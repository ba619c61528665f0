/-!
# The shortest decimal text of a double

A finite double is `m * 2 ^ q`. The reals that round to it form an interval around it;
among the decimals in that interval the ones with the fewest digits are chosen, of
these the nearest to the double, and of two equally near the larger. The digits are
laid out positionally, however long that gets.

* `Double.fields`: the sign, `m` and `q` of a double.
* `Double.readsBack`: which decimals `d * 10 ^ k` round to a double.
* `Double.shortest`: the chosen decimal.
* `Double.text`: its text.
-/

namespace SmlSynth

/-- **The magnitude of a finite double**: `mantissa * 2 ^ exponent`. `halfStep` tells
that the neighbour below is only half as far away as the one above, which is so at
powers of two. -/
structure Double where
  mantissa : Nat
  exponent : Int
  halfStep : Bool

namespace Double

/-- What the bits of a double say. -/
inductive Fields where
  | finite (negative : Bool) (magnitude : Double)
  | infinite (negative : Bool)
  | notANumber

/-- The fields of a double's bits. -/
def fields (bits : UInt64) : Fields :=
  let negative := bits >>> 63 == 1
  let biased := ((bits >>> 52) &&& 0x7FF).toNat
  let fraction := (bits &&& 0xFFFFFFFFFFFFF).toNat
  if biased = 0x7FF then
    if fraction = 0 then .infinite negative else .notANumber
  else if biased = 0 then .finite negative ⟨fraction, -1074, false⟩
  else .finite negative ⟨fraction + 0x10000000000000, biased - 1075, fraction = 0 && biased ≠ 1⟩

/-- Compares `a * 2 ^ x` with `d * 10 ^ k`, in natural numbers. -/
def compareScaled (a : Nat) (x : Int) (d : Nat) (k : Int) : Ordering :=
  compare (a * Nat.pow 2 x.toNat * Nat.pow 10 (-k).toNat)
    (d * Nat.pow 10 k.toNat * Nat.pow 2 (-x).toNat)

/-- **Whether the decimal `d * 10 ^ k` rounds to the double.** The ends of the interval
belong to it exactly when the mantissa is even. -/
def readsBack (v : Double) (d : Nat) (k : Int) : Bool :=
  let low := 4 * v.mantissa - (if v.halfStep then 1 else 2)
  let high := 4 * v.mantissa + 2
  let even := v.mantissa % 2 == 0
  let above := compareScaled low (v.exponent - 2) d k
  let below := compareScaled high (v.exponent - 2) d k
  (above == .lt || (even && above == .eq)) && (below == .gt || (even && below == .eq))

/-- The double divided by `10 ^ k`, rounded down. -/
def quotient (v : Double) (k : Int) : Nat :=
  v.mantissa * Nat.pow 2 v.exponent.toNat * Nat.pow 10 (-k).toNat /
    (Nat.pow 10 k.toNat * Nat.pow 2 (-v.exponent).toNat)

/-- The better of the two multiples of `10 ^ k` next to the double, if one reads back. -/
def onGrid (v : Double) (k : Int) : Option Nat :=
  let d := v.quotient k
  match v.readsBack d k, v.readsBack (d + 1) k with
  | true, true =>
    -- twice the double lies below `(2 d + 1) * 10 ^ k` when the lower multiple is nearer
    if compareScaled (2 * v.mantissa) v.exponent (2 * d + 1) k == .lt then some d else some (d + 1)
  | true, false => some d
  | false, true => some (d + 1)
  | false, false => none

/-- The first grid that holds a decimal which reads back, from `10 ^ (steps - 345)` downwards. -/
def search (v : Double) : Nat → Nat × Int
  | 0 => (v.quotient (-345), -345)
  | steps + 1 =>
    let k : Int := (steps : Int) - 345
    match v.onGrid k with
    | some d => (d, k)
    | none => search v steps

/-- **The decimal of a double**, as digits and a power of ten: the coarsest decimal
grid with a point that reads back. Every double has one between `10 ^ -345` and `10 ^ 309`. -/
def shortest (v : Double) : Nat × Int := v.search 655

/-- The decimal `d * 10 ^ k` without an exponent. -/
def positional (d : Nat) (k : Int) : List Char :=
  let digits := Nat.toDigits 10 d
  if 0 ≤ k then digits ++ List.replicate k.toNat '0'
  else
    let places := (-k).toNat
    if places < digits.length then
      digits.take (digits.length - places) ++ '.' :: digits.drop (digits.length - places)
    else '0' :: '.' :: (List.replicate (places - digits.length) '0' ++ digits)

/-- **The text of a double.** A whole number has no point, and minus zero keeps its sign. -/
def text (x : Float) : List Char :=
  let signed (negative : Bool) (cs : List Char) : List Char := if negative then '-' :: cs else cs
  match fields x.toBits with
  | .notANumber => ['N', 'a', 'N']
  | .infinite negative => signed negative ['i', 'n', 'f']
  | .finite negative v =>
    if v.mantissa = 0 then signed negative ['0']
    else signed negative (positional v.shortest.1 v.shortest.2)

end Double

end SmlSynth
