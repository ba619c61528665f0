import SmlSynth.Digits
import SmlSynth.Toml.Value
import SmlSynth.Word

/-!
# TOML scalars

Strings of the four kinds, numbers, truth values and times, read from the front of a text.

* `Toml.Scan`: readers that take characters from the front of a text.
* `Toml.singleLineString`, `Toml.multiLineString`, `Toml.number`, `Toml.time`.
-/

namespace SmlSynth.Toml

/-- **A reader** takes characters from the front of a text, or fails. -/
abbrev Scan (α : Type) := StateT Text Option α

def refuse {α : Type} : Scan α := fun _ => none

/-- The next character, if there is one; it is not taken. -/
def peek : Scan (Option Char) := do return (← get).head?

/-- Takes a character of a kind. -/
def satisfy (p : Char → Bool) : Scan Char := fun cs =>
  match cs with
  | c :: rest => if p c then some (c, rest) else none
  | [] => none

def char (c : Char) : Scan Unit := do let _ ← satisfy (· == c)

def chars : List Char → Scan Unit
  | [] => pure ()
  | c :: cs => do char c; chars cs

/-- Takes characters as long as they are of a kind. -/
def span (p : Char → Bool) : Scan Text := fun cs => some (cs.takeWhile p, cs.dropWhile p)

/-- What a reader takes, as it is written. -/
def spelled (r : Scan Unit) : Scan Text := fun cs =>
  (r cs).map fun (_, rest) => (cs.take (cs.length - rest.length), rest)

/-- A reader, or nothing. -/
def optionally (r : Scan Unit) : Scan Unit := r <|> pure ()

/-! ## Blanks and comments -/

def isBlank (c : Char) : Bool := c == ' ' || c == '\t'

/-- Whether a character may stand in a comment or a string: a tab, or no control character. -/
def isTextChar (c : Char) : Bool := c == '\t' || (' ' ≤ c && c != '\x7f')

def blanks : Scan Unit := do let _ ← span isBlank

def newline : Scan Unit := char '\n' <|> chars ['\r', '\n']

def comment : Scan Unit := do
  char '#'
  let _ ← span isTextChar

/-- Succeeds at the end of the text. -/
def atEnd : Scan Unit := do if (← get).isEmpty then pure () else refuse

/-- Takes what may follow on a line after its content, and the line end. -/
def lineEnd : Scan Unit := do
  blanks
  optionally comment
  newline <|> atEnd

/-- A text without the blanks, line ends and comments at its front. A character that may not
stand in a comment ends what is skipped. -/
def skipLayout (inComment : Bool) : Text → Text
  | [] => []
  | '\r' :: '\n' :: rest => skipLayout false rest
  | c :: rest =>
    if c == '\n' then skipLayout false rest
    else if inComment then
      if isTextChar c then skipLayout true rest else c :: rest
    else if isBlank c then skipLayout false rest
    else if c == '#' then skipLayout true rest
    else c :: rest

/-- Takes blanks, line ends and comments. -/
def layout : Scan Unit := modify (skipLayout false)

/-! ## Strings -/

/-- The character whose code point hexadecimal digits write. -/
def codePoint? (digits : List Char) : Option Char := do
  let values ← digits.mapM Digits.hexValue?
  let n := values.foldl (fun n d => 16 * n + d) 0
  if n < 0xD800 ∨ (0xDFFF < n ∧ n < 0x110000) then some (Char.ofNat n) else none

/-- The character that a backslash and a letter stand for. -/
def escaped? : Char → Option Char
  | 'b' => some '\x08'
  | 't' => some '\t'
  | 'n' => some '\n'
  | 'f' => some '\x0c'
  | 'r' => some '\r'
  | '\x22' => some '\x22'
  | '\\' => some '\\'
  | _ => none

/-- A character before a string's content. -/
def prepend (c : Char) (r : Text × Text) : Text × Text := (c :: r.1, r.2)

/-- The content of a one-line string with escapes, after its opening quote. -/
def basicBody : Text → Option (Text × Text)
  | [] => none
  | '\\' :: 'u' :: a :: b :: c :: d :: rest => do
    return prepend (← codePoint? [a, b, c, d]) (← basicBody rest)
  | '\\' :: 'U' :: a :: b :: c :: d :: e :: f :: g :: h :: rest => do
    return prepend (← codePoint? [a, b, c, d, e, f, g, h]) (← basicBody rest)
  | '\\' :: c :: rest => do return prepend (← escaped? c) (← basicBody rest)
  | c :: rest =>
    if c = '\x22' then some ([], rest)
    else if isTextChar c ∧ c ≠ '\\' then (basicBody rest).map (prepend c)
    else none

/-- The content of a one-line string without escapes, after its opening quote. -/
def literalBody : Text → Option (Text × Text)
  | [] => none
  | c :: rest =>
    if c = '\x27' then some ([], rest)
    else if isTextChar c then (literalBody rest).map (prepend c)
    else none

/-- The end of a string over several lines, after three quotes: up to two more quotes are
its last characters. -/
def closing (quote : Char) : Text → Text × Text
  | c :: d :: rest =>
    if c = quote then
      if d = quote then ([quote, quote], rest) else ([quote], d :: rest)
    else ([], c :: d :: rest)
  | [c] => if c = quote then ([quote], []) else ([], [c])
  | [] => ([], [])

/-- Whether nothing but blanks is left on the line. -/
def lineIsOver (cs : Text) : Bool :=
  match cs.dropWhile isBlank with
  | '\n' :: _ => true
  | '\r' :: '\n' :: _ => true
  | _ => false

/-- The content of a string with escapes over several lines, after its opening quotes. A
backslash at the end of a line leaves out the line end and all blanks and line ends after
it; `skipping` tells that this is going on. -/
def multiBasicBody (skipping : Bool) : Text → Option (Text × Text)
  | [] => none
  | '\x22' :: '\x22' :: '\x22' :: rest => some (closing '\x22' rest)
  | '\r' :: '\n' :: rest =>
    if skipping then multiBasicBody true rest else (multiBasicBody false rest).map (prepend '\n')
  | '\\' :: 'u' :: a :: b :: c :: d :: rest => do
    return prepend (← codePoint? [a, b, c, d]) (← multiBasicBody false rest)
  | '\\' :: 'U' :: a :: b :: c :: d :: e :: f :: g :: h :: rest => do
    return prepend (← codePoint? [a, b, c, d, e, f, g, h]) (← multiBasicBody false rest)
  | '\\' :: c :: rest =>
    if lineIsOver (c :: rest) then multiBasicBody true (c :: rest)
    else do return prepend (← escaped? c) (← multiBasicBody false rest)
  | c :: rest =>
    if c = '\n' then
      if skipping then multiBasicBody true rest else (multiBasicBody false rest).map (prepend c)
    else if skipping ∧ isBlank c then multiBasicBody true rest
    else if isTextChar c ∧ c ≠ '\\' then (multiBasicBody false rest).map (prepend c)
    else none

/-- The content of a string without escapes over several lines, after its opening quotes. -/
def multiLiteralBody : Text → Option (Text × Text)
  | [] => none
  | '\x27' :: '\x27' :: '\x27' :: rest => some (closing '\x27' rest)
  | '\r' :: '\n' :: rest => (multiLiteralBody rest).map (prepend '\n')
  | c :: rest =>
    if c = '\n' ∨ isTextChar c then (multiLiteralBody rest).map (prepend c) else none

/-- Takes a string on one line, of either kind. -/
def singleLineString : Scan Text := do
  match ← satisfy fun c => c == '\x22' || c == '\x27' with
  | '\x22' => basicBody
  | _ => literalBody

/-- Takes a string over several lines, of either kind. A line end after the opening quotes is
not part of it. -/
def multiLineString : Scan Text := do
  let quote ← satisfy fun c => c == '\x22' || c == '\x27'
  chars [quote, quote]
  optionally newline
  if quote == '\x22' then multiBasicBody false else multiLiteralBody

/-! ## Numbers -/

/-- Digits of a kind, with single underscores between them; the underscores are left out. -/
def moreDigits (isDigit : Char → Bool) : Text → Option (Text × Text)
  | [] => some ([], [])
  | '_' :: c :: rest => if isDigit c then (moreDigits isDigit rest).map (prepend c) else none
  | c :: rest =>
    if isDigit c then (moreDigits isDigit rest).map (prepend c)
    else if c = '_' then none
    else some ([], c :: rest)

/-- Takes digits of a kind, at least one. -/
def digitRun (isDigit : Char → Bool) : Scan Text := do
  let c ← satisfy isDigit
  return c :: (← moreDigits isDigit)

/-- Takes the sign of a number, if there is one: whether it is minus. -/
def sign : Scan Bool := do
  match ← peek with
  | some '-' => char '-'; return true
  | some '+' => char '+'; return false
  | _ => return false

/-- Takes decimal digits that start with a zero only if they end with it. -/
def wholeDigits : Scan Text := do
  match ← peek with
  | some '0' => char '0'; return ['0']
  | _ => digitRun Char.isDigit

/-- The number that digits of a base write. -/
def valueOf (base : Nat) (digits : Text) : Nat :=
  (digits.filterMap Digits.hexValue?).foldl (fun n d => base * n + d) 0

/-- An integer of 64 bits. -/
def signed (negative : Bool) (n : Nat) : Scan Value :=
  match int64? (if negative then -n else n) with
  | some i => return .integer i
  | none => refuse

def basedInteger (mark : Char) (base : Nat) (isDigit : Char → Bool) : Scan Value := do
  chars ['0', mark]
  signed false (valueOf base (← digitRun isDigit))

def decimalInteger : Scan Value := do
  let negative ← sign
  signed negative (valueOf 10 (← wholeDigits))

def integer : Scan Value :=
  basedInteger 'x' 16 (fun c => (Digits.hexValue? c).isSome) <|>
    basedInteger 'o' 8 (fun c => '0' ≤ c && c ≤ '7') <|>
    basedInteger 'b' 2 (fun c => c == '0' || c == '1') <|> decimalInteger

/-- The least natural number that rounds to no finite double: the greatest finite one and half
a step. -/
def leastInfinite : Nat := Nat.pow 2 1024 - Nat.pow 2 970

/-- Whether `n` times ten to the `e` rounds to a finite double. A decimal with far fewer or far
more than three hundred digits before its point needs no exact comparison. -/
def isFinite (n : Nat) (e : Int) : Bool :=
  let digits : Int := (Nat.toDigits 10 n).length
  if n = 0 || digits + e < 300 then true
  else if 320 < digits + e then false
  else n * Nat.pow 10 e.toNat < leastInfinite * Nat.pow 10 (-e).toNat

/-- Takes the exponent of a float. -/
def exponent : Scan Int := do
  let _ ← satisfy fun c => c == 'e' || c == 'E'
  let negative ← sign
  let n := valueOf 10 (← digitRun Char.isDigit)
  return if negative then -n else n

/-- Takes the fraction of a float. -/
def fraction : Scan Text := do
  char '.'
  digitRun Char.isDigit

/-- Takes a float with digits. One that is too large is refused, but not if it is negative. -/
def digitFloat : Scan Unit := do
  let negative ← sign
  let whole ← wholeDigits
  let (part, e) ← (do return ([], ← exponent)) <|>
    (do return (← fraction, ← exponent <|> pure 0))
  if negative || isFinite (valueOf 10 (whole ++ part)) (e - part.length) then pure () else refuse

/-- Takes an infinite float or one that is not a number. -/
def specialFloat : Scan Unit := do
  let _ ← sign
  chars ['i', 'n', 'f'] <|> chars ['n', 'a', 'n']

def float : Scan Value := do return .float (← spelled (digitFloat <|> specialFloat))

/-! ## Times -/

/-- Takes a number of as many digits as given, within bounds. -/
def fixedNumber (width low high : Nat) : Scan Nat := do
  let cs ← get
  let digits := cs.take width
  if digits.length = width ∧ digits.all Char.isDigit then
    let n := valueOf 10 digits
    set (cs.drop width)
    if low ≤ n ∧ n ≤ high then return n else refuse
  else refuse

/-- The number of days of a month. -/
def daysIn (year month : Nat) : Nat :=
  if month = 2 then
    if year % 4 = 0 ∧ (year % 100 ≠ 0 ∨ year % 400 = 0) then 29 else 28
  else if month = 4 ∨ month = 6 ∨ month = 9 ∨ month = 11 then 30
  else 31

def date : Scan Unit := do
  let year ← fixedNumber 4 0 9999
  char '-'
  let month ← fixedNumber 2 1 12
  char '-'
  let _ ← fixedNumber 2 1 (daysIn year month)

def secondFraction : Scan Unit := do
  char '.'
  let _ ← satisfy Char.isDigit
  let _ ← span Char.isDigit

def timeOfDay : Scan Unit := do
  let _ ← fixedNumber 2 0 23
  char ':'
  let _ ← fixedNumber 2 0 59
  char ':'
  let _ ← fixedNumber 2 0 60
  optionally secondFraction

/-- Takes the offset of a time zone. -/
def zoneOffset : Scan Unit := do
  match ← satisfy fun c => c == 'Z' || c == 'z' || c == '+' || c == '-' with
  | '+' | '-' =>
    let _ ← fixedNumber 2 0 23
    char ':'
    let _ ← fixedNumber 2 0 59
  | _ => pure ()

/-- Takes a time of day after a date, with an offset if there is one. -/
def timeAfterDate : Scan Unit := do
  let _ ← satisfy fun c => c == 'T' || c == 't' || c == ' '
  timeOfDay
  optionally zoneOffset

/-- Takes a date, a time of day or both. -/
def time : Scan Value := do
  return .datetime (← spelled ((do date; optionally timeAfterDate) <|> timeOfDay))

/-! ## Scalars -/

def keyword (word : Text) (v : Value) : Scan Value := do
  chars word
  return v

/-- **Takes a scalar.** -/
def scalar : Scan Value :=
  (do return .string (← multiLineString)) <|> (do return .string (← singleLineString)) <|>
    keyword ['t', 'r', 'u', 'e'] (.boolean true) <|>
    keyword ['f', 'a', 'l', 's', 'e'] (.boolean false) <|> time <|> float <|> integer

end SmlSynth.Toml
