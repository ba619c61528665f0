import SmlSynth.Digits

/-!
# JSON values

A value of a JSON text. Numbers stay as they are written. A string may spell half of a
surrogate pair, which is well formed but names no text; such a string is `none`.

* `Json.Value`: the values.
* `Json.integer?`: the number that a numeral without fraction or exponent writes.
-/

namespace SmlSynth.Json

/-- **JSON values.** -/
inductive Value where
  | null
  | bool (b : Bool)
  /-- A number, as it is written. -/
  | number (numeral : Text)
  /-- A string; `none` if its escapes name no text. -/
  | string (content : Option Text)
  | array (items : List Value)
  /-- An object, its members in order. -/
  | object (members : List (Option Text × Value))

namespace Value

/-- The string of a text. -/
def text (t : Text) : Value := .string (some t)

/-- The string of a `String`. -/
def str (s : String) : Value := .text s.toList

/-- The numeral of a natural number. -/
def nat (n : Nat) : Value := .number (Nat.toDigits 10 n)

/-- The numeral of an integer. -/
def int (i : Int) : Value :=
  match i with
  | .ofNat n => .nat n
  | .negSucc n => .number ('-' :: Nat.toDigits 10 (n + 1))

/-- An object with keys that are texts. -/
def record (members : List (String × Value)) : Value :=
  .object (members.map fun m => (some m.1.toList, m.2))

end Value

/-! ## Numerals -/

/-- The integer that a numeral writes. A numeral with a fraction or an exponent writes none, and
neither does minus zero. -/
def integer? : Text → Option Int
  | '-' :: ds =>
    match Digits.natural? ds with
    | some (n + 1) => some (.negSucc n)
    | _ => none
  | ds => (Digits.natural? ds).map Int.ofNat

end SmlSynth.Json
