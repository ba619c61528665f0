import SmlSynth.Text

/-!
# Digits

* `Digits.natural?`: the number that decimal digits write.
* `Digits.hexValue?`: the value of a hexadecimal digit.
-/

namespace SmlSynth.Digits

/-- **The number that decimal digits write**; it takes at least one. -/
def natural? (ds : Text) : Option Nat :=
  if ds ≠ [] ∧ ds.all Char.isDigit then some (Nat.ofDigitChars 10 ds 0) else none

/-- The value of a hexadecimal digit, a letter being of either case. -/
def hexValue? (c : Char) : Option Nat :=
  if '0' ≤ c ∧ c ≤ '9' then some (c.toNat - 48)
  else if 'a' ≤ c ∧ c ≤ 'f' then some (c.toNat - 87)
  else if 'A' ≤ c ∧ c ≤ 'F' then some (c.toNat - 55)
  else none

end SmlSynth.Digits
