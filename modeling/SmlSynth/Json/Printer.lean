import SmlSynth.Json.Value

/-!
# Writing JSON

* `Json.quote`: a string. The quote, the backslash and the control characters are
  escaped, and every other character stands for itself.
* `Json.compact`: a value without blanks.
* `Json.pretty`: a value with one item or member a line, indented by two spaces a level.
-/

namespace SmlSynth.Json

/-- A hexadecimal digit, the letters in lower case. -/
def hexDigitChar (n : Nat) : Char := Nat.digitChar n

/-- A character within a string. -/
def escape (c : Char) : Text :=
  if c = '\x22' then ['\\', '\x22']
  else if c = '\\' then ['\\', '\\']
  else if c = '\x08' then ['\\', 'b']
  else if c = '\x0c' then ['\\', 'f']
  else if c = '\n' then ['\\', 'n']
  else if c = '\r' then ['\\', 'r']
  else if c = '\t' then ['\\', 't']
  else if c < ' ' then
    ['\\', 'u', '0', '0', hexDigitChar (c.toNat / 16), hexDigitChar (c.toNat % 16)]
  else [c]

/-- A string. One that names no text is written as half of a surrogate pair. -/
def quote : Option Text → Text
  | some t => '\x22' :: t.flatMap escape ++ ['\x22']
  | none => "\"\\ud800\"".toList

mutual

/-- **A value without blanks.** -/
def compact : Value → Text
  | .null => "null".toList
  | .bool b => (if b then "true" else "false").toList
  | .number numeral => numeral
  | .string content => quote content
  | .array [] => ['[', ']']
  | .array (v :: vs) => '[' :: compact v ++ compactItems vs
  | .object [] => ['\x7b', '\x7d']
  | .object (m :: ms) => '\x7b' :: quote m.1 ++ ':' :: compact m.2 ++ compactMembers ms

/-- The items after the first, and the closing bracket. -/
def compactItems : List Value → Text
  | [] => [']']
  | v :: vs => ',' :: compact v ++ compactItems vs

/-- The members after the first, and the closing brace. -/
def compactMembers : List (Option Text × Value) → Text
  | [] => ['\x7d']
  | m :: ms => ',' :: quote m.1 ++ ':' :: compact m.2 ++ compactMembers ms

end

/-- A line end and the indentation of a level. -/
def newLine (level : Nat) : Text := '\n' :: List.replicate (2 * level) ' '

mutual

/-- A value at a level, over several lines. -/
def prettyAt (level : Nat) : Value → Text
  | .null => "null".toList
  | .bool b => (if b then "true" else "false").toList
  | .number numeral => numeral
  | .string content => quote content
  | .array [] => ['[', ']']
  | .array (v :: vs) =>
    '[' :: newLine (level + 1) ++ prettyAt (level + 1) v ++ prettyItems level vs
  | .object [] => ['\x7b', '\x7d']
  | .object (m :: ms) =>
    '\x7b' :: newLine (level + 1) ++ quote m.1 ++ ':' :: ' ' :: prettyAt (level + 1) m.2 ++
      prettyMembers level ms

/-- The items after the first, each on its line, and the closing bracket. -/
def prettyItems (level : Nat) : List Value → Text
  | [] => newLine level ++ [']']
  | v :: vs => ',' :: newLine (level + 1) ++ prettyAt (level + 1) v ++ prettyItems level vs

/-- The members after the first, each on its line, and the closing brace. -/
def prettyMembers (level : Nat) : List (Option Text × Value) → Text
  | [] => newLine level ++ ['\x7d']
  | m :: ms =>
    ',' :: newLine (level + 1) ++ quote m.1 ++ ':' :: ' ' :: prettyAt (level + 1) m.2 ++
      prettyMembers level ms

end

/-- **A value over several lines.** -/
def pretty (v : Value) : Text := prettyAt 0 v

end SmlSynth.Json
