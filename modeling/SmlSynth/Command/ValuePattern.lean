import SmlSynth.Digits
import SmlSynth.Text

/-!
# Patterns of values

In a log filter the value of a field is a number or a pattern: a regular expression. Here
patterns are only checked for being well-formed, since no event of a run is matched with one.

A closing brace ends the field, so that no repetition count can be written.

* `ValuePattern.isValue`: whether a text is a number or a pattern.
-/

namespace SmlSynth.ValuePattern

/-- The characters that a backslash makes literal: those of ASCII that are no letters or
digits, and no angle brackets, which mean the ends of words. -/
def isEscapable (c : Char) : Bool :=
  decide (c.toNat < 128) && !c.isAlphanum && c != '<' && c != '>'

/-- The controls that have a letter. -/
def namedControls : List (Char × Char) :=
  [('a', '\x07'), ('f', '\x0c'), ('t', '\t'), ('n', '\n'), ('r', '\r'), ('v', '\x0b')]

/-- The number of digits of a character's code, by the letter before it. -/
def codeLengths : List (Char × Nat) := [('x', 2), ('u', 4), ('U', 8)]

/-- The character that hexadecimal digits write. -/
def charOfHex? (ds : Text) : Option Char := do
  let n := (← ds.mapM Digits.hexValue?).foldl (fun n d => 16 * n + d) 0
  if n.isValidChar then some (Char.ofNat n) else none

/-- What a backslash may write. -/
inductive Escape where
  | literal (c : Char)
  | letters
  | position

/-- What follows a backslash, and what is left. -/
def escape? : Text → Option (Escape × Text)
  | [] => none
  | 'p' :: c :: rest | 'P' :: c :: rest =>
    if "CLMNPSZ".toList.contains c.toUpper then some (.letters, rest) else none
  | c :: rest =>
    if "dDsSwW".toList.contains c then some (.letters, rest)
    else if c = 'A' ∨ c = 'z' then some (.position, rest)
    else if isEscapable c then some (.literal c, rest)
    else
      match namedControls.lookup c, codeLengths.lookup c with
      | some control, _ => some (.literal control, rest)
      | none, some n =>
        if n ≤ rest.length then
          (charOfHex? (rest.take n)).map fun d => (.literal d, rest.drop n)
        else none
      | none, none => none

/-- A member of a class of characters: a literal or another class. -/
def member? : Text → Option (Option Char × Text)
  | [] => none
  | '\\' :: rest =>
    match escape? rest with
    | some (.literal c, rest) => some (some c, rest)
    | some (.letters, rest) => some (none, rest)
    | _ => none
  | c :: rest => some (some c, rest)

/-- What follows the opening bracket of a class and the members that may only stand first. -/
def classStart (cs : Text) : Text :=
  let cs := if cs.head? = some '^' then cs.drop 1 else cs
  let rest := cs.dropWhile (· == '-')
  if rest.length = cs.length ∧ cs.head? = some ']' then cs.drop 1 else rest

/-- What follows a class, inside `depth` more. A range has to be in order. -/
def afterClass? : Nat → Nat → Text → Option Text
  | 0, _, _ => none
  | fuel + 1, depth, cs =>
    match cs with
    | [] => none
    | ']' :: rest => if depth = 0 then some rest else afterClass? fuel (depth - 1) rest
    | '[' :: rest => afterClass? fuel (depth + 1) (classStart rest)
    | '&' :: '&' :: rest | '-' :: '-' :: rest | '~' :: '~' :: rest => afterClass? fuel depth rest
    | _ =>
      match member? cs with
      | none => none
      | some (first, '-' :: rest) =>
        if rest.head? = some ']' ∨ rest.head? = some '-' then afterClass? fuel depth ('-' :: rest)
        else
          match first, member? rest with
          | some a, some (some b, rest) => if a ≤ b then afterClass? fuel depth rest else none
          | _, _ => none
      | some (_, rest) => afterClass? fuel depth rest

/-- What follows the opening of a group: its name or its switches, if it has any. The truth value
tells whether switches stand alone, without a group. -/
def groupStart? : Text → Option (Bool × Text)
  | '?' :: 'P' :: '<' :: rest | '?' :: '<' :: rest =>
    let name := rest.takeWhile (· != '>')
    let named := name.head?.any fun c => c.isAlpha || c == '_'
    let sound := name.all fun c => c.isAlphanum || "_.[]".toList.contains c
    if named ∧ sound ∧ name.length < rest.length then some (false, rest.drop (name.length + 1))
    else none
  | '?' :: rest =>
    let switches := rest.takeWhile fun c => "imsUuRx-".toList.contains c
    let sound := switches.Nodup ∧ switches.getLast? ≠ some '-'
    match rest.drop switches.length with
    | ':' :: rest => if sound then some (false, rest) else none
    | ')' :: rest => if sound ∧ switches ≠ [] then some (true, rest) else none
    | _ => none
  | rest => some (false, rest)

/-- Whether a text goes on as a pattern, inside `depth` groups. `repeatable` holds after what
a repetition can follow. -/
def goesOn : Nat → Nat → Bool → Text → Bool
  | 0, _, _, _ => false
  | fuel + 1, depth, repeatable, cs =>
    match cs with
    | [] => depth = 0
    | '(' :: rest =>
      match groupStart? rest with
      | some (true, rest) => goesOn fuel depth false rest
      | some (false, rest) => goesOn fuel (depth + 1) false rest
      | none => false
    | ')' :: rest => decide (0 < depth) && goesOn fuel (depth - 1) true rest
    | '|' :: rest => goesOn fuel depth false rest
    | '*' :: rest | '+' :: rest | '?' :: rest => repeatable && goesOn fuel depth true rest
    | '{' :: _ => false
    | '[' :: rest =>
      match afterClass? (rest.length + 1) 0 (classStart rest) with
      | some rest => goesOn fuel depth true rest
      | none => false
    | '\\' :: rest =>
      match escape? rest with
      | some (_, rest) => goesOn fuel depth true rest
      | none => false
    | _ :: rest => goesOn fuel depth true rest

/-- Whether a text is an exponent or nothing. -/
def isExponent : Text → Bool
  | [] => true
  | e :: rest =>
    let digits := if rest.head? = some '+' ∨ rest.head? = some '-' then rest.drop 1 else rest
    (e == 'e' || e == 'E') && !digits.isEmpty && digits.all Char.isDigit

/-- Whether a text is a number without a sign: digits, with a point and an exponent if need be,
or the name of a number that has no digits. -/
def isNumber (cs : Text) : Bool :=
  let (whole, rest) := cs.span Char.isDigit
  let (fraction, rest) := match rest with
    | '.' :: rest => rest.span Char.isDigit
    | _ => ([], rest)
  (!(whole ++ fraction).isEmpty && isExponent rest) ||
    ["inf", "infinity", "nan"].contains (String.ofList (cs.map Char.toLower))

/-- **Whether a text is a number or a pattern.** A number is a pattern too, unless it starts
with a plus sign. -/
def isValue (cs : Text) : Bool :=
  (cs.head? = some '+' && isNumber (cs.drop 1)) || goesOn (cs.length + 1) 0 false cs

end SmlSynth.ValuePattern
