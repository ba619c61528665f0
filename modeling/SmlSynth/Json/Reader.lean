import SmlSynth.Digits
import SmlSynth.Json.Value

/-!
# Reading JSON

The strict grammar of JSON: blanks between tokens, no comments, no trailing commas, nothing
after the value.

* `Json.stringBody`: the rest of a string, after its opening quote.
* `Json.numeral`: the number at the front of a text.
* `Json.read?`: the value that a text writes.

The recursion is bounded by a fuel of twice the length of the text: every second step takes
a character.
-/

namespace SmlSynth.Json

def isBlank (c : Char) : Bool := c == ' ' || c == '\n' || c == '\r' || c == '\t'

/-- A text without the blanks at its front. -/
def skipBlanks (cs : Text) : Text := cs.dropWhile isBlank

/-! ## Strings -/

/-- The value of four hexadecimal digits. -/
def hexUnit? (a b c d : Char) : Option Nat := do
  let values ← [a, b, c, d].mapM Digits.hexValue?
  return values.foldl (fun n d => 16 * n + d) 0

/-- The character that a backslash and a letter stand for. -/
def escaped? : Char → Option Char
  | '\x22' => some '\x22'
  | '\\' => some '\\'
  | '/' => some '/'
  | 'b' => some '\x08'
  | 'f' => some '\x0c'
  | 'n' => some '\n'
  | 'r' => some '\r'
  | 't' => some '\t'
  | _ => none

/-- A character before the content of a string, if that names a text. -/
def prepend (c : Char) (r : Option Text × Text) : Option Text × Text := (r.1.map (c :: ·), r.2)

/-- The content of a string when half of a surrogate pair may be left alone before it. -/
def afterHalf (high : Option Nat) (r : Option Text × Text) : Option Text × Text :=
  if high.isSome then (none, r.2) else r

/-- The character of a surrogate pair. -/
def pairChar (high low : Nat) : Char :=
  Char.ofNat (0x10000 + (high - 0xD800) * 0x400 + (low - 0xDC00))

/-- **The content of a string after its opening quote**, and the text after its closing one. `high`
is the upper half of a surrogate pair just read, which is one character with a lower half
directly after it. Any other half leaves the string without a text. -/
def stringBody (high : Option Nat) : Text → Option (Option Text × Text)
  | [] => none
  | '\\' :: 'u' :: a :: b :: c :: d :: rest => do
    let unit ← hexUnit? a b c d
    if 0xD800 ≤ unit ∧ unit < 0xDC00 then
      return afterHalf high (← stringBody (some unit) rest)
    else if 0xDC00 ≤ unit ∧ unit < 0xE000 then
      let r ← stringBody none rest
      match high with
      | some h => return prepend (pairChar h unit) r
      | none => return (none, r.2)
    else return afterHalf high (prepend (Char.ofNat unit) (← stringBody none rest))
  | '\\' :: c :: rest => do
    let e ← escaped? c
    return afterHalf high (prepend e (← stringBody none rest))
  | c :: rest =>
    if c = '\x22' then some (afterHalf high (some [], rest))
    else if c < ' ' ∨ c = '\\' then none
    else (stringBody none rest).map fun r => afterHalf high (prepend c r)

/-! ## Numbers -/

/-- Digits at the front of a text, at least one, and what follows them. -/
def digits1 (cs : Text) : Option (Text × Text) :=
  let ds := cs.takeWhile Char.isDigit
  if ds.isEmpty then none else some (ds, cs.dropWhile Char.isDigit)

/-- The whole part of a number: a zero, or digits that do not start with one. -/
def wholePart : Text → Option (Text × Text)
  | '0' :: rest => some (['0'], rest)
  | cs => digits1 cs

/-- The fraction of a number, if there is one. -/
def fractionPart : Text → Option (Text × Text)
  | '.' :: rest => (digits1 rest).map fun r => ('.' :: r.1, r.2)
  | cs => some ([], cs)

/-- The sign of an exponent, if there is one. -/
def exponentSign : Text → Text × Text
  | '+' :: rest => (['+'], rest)
  | '-' :: rest => (['-'], rest)
  | cs => ([], cs)

/-- The exponent of a number, if there is one. -/
def exponentPart : Text → Option (Text × Text)
  | [] => some ([], [])
  | c :: rest =>
    if c = 'e' ∨ c = 'E' then
      let s := exponentSign rest
      (digits1 s.2).map fun r => (c :: s.1 ++ r.1, r.2)
    else some ([], c :: rest)

/-- A number without a sign. -/
def unsignedNumeral (cs : Text) : Option (Text × Text) := do
  let (whole, cs) ← wholePart cs
  let (fraction, cs) ← fractionPart cs
  let (exponent, cs) ← exponentPart cs
  return (whole ++ fraction ++ exponent, cs)

/-- **The number at the front of a text**, as it is written, and what follows it. -/
def numeral : Text → Option (Text × Text)
  | '-' :: rest => (unsignedNumeral rest).map fun r => ('-' :: r.1, r.2)
  | cs => unsignedNumeral cs

/-! ## Values -/

/-- What follows a word at the front of a text. -/
def afterWord : Text → Text → Option Text
  | [], cs => some cs
  | w :: ws, c :: cs => if w = c then afterWord ws cs else none
  | _ :: _, [] => none

mutual

/-- The value at the front of a text, and what follows it. -/
def readValue : Nat → Text → Option (Value × Text)
  | 0, _ => none
  | fuel + 1, cs =>
    match skipBlanks cs with
    | [] => none
    | '\x22' :: rest => (stringBody none rest).map fun r => (.string r.1, r.2)
    | '[' :: rest =>
      match skipBlanks rest with
      | ']' :: rest => some (.array [], rest)
      | _ => (readItems fuel rest).map fun r => (.array r.1, r.2)
    | '\x7b' :: rest =>
      match skipBlanks rest with
      | '\x7d' :: rest => some (.object [], rest)
      | _ => (readMembers fuel rest).map fun r => (.object r.1, r.2)
    | 'n' :: rest => (afterWord ['u', 'l', 'l'] rest).map (.null, ·)
    | 't' :: rest => (afterWord ['r', 'u', 'e'] rest).map (.bool true, ·)
    | 'f' :: rest => (afterWord ['a', 'l', 's', 'e'] rest).map (.bool false, ·)
    | cs => (numeral cs).map fun r => (.number r.1, r.2)

/-- The items of an array up to its closing bracket. -/
def readItems : Nat → Text → Option (List Value × Text)
  | 0, _ => none
  | fuel + 1, cs => do
    let (item, cs) ← readValue fuel cs
    match skipBlanks cs with
    | ',' :: rest => (readItems fuel rest).map fun r => (item :: r.1, r.2)
    | ']' :: rest => some ([item], rest)
    | _ => none

/-- The members of an object up to its closing brace. -/
def readMembers : Nat → Text → Option (List (Option Text × Value) × Text)
  | 0, _ => none
  | fuel + 1, cs =>
    match skipBlanks cs with
    | '\x22' :: rest => do
      let (key, cs) ← stringBody none rest
      match skipBlanks cs with
      | ':' :: rest =>
        let (item, cs) ← readValue fuel rest
        match skipBlanks cs with
        | ',' :: rest => (readMembers fuel rest).map fun r => ((key, item) :: r.1, r.2)
        | '\x7d' :: rest => some ([(key, item)], rest)
        | _ => none
      | _ => none
    | _ => none

end

/-- **The value that a text writes**, with blanks around it and nothing else. -/
def read? (cs : Text) : Option Value :=
  match readValue (2 * cs.length + 1) cs with
  | some (v, rest) => if skipBlanks rest = [] then some v else none
  | none => none

end SmlSynth.Json
