import SmlSynth.Text

/-!
# Comment bodies

A text is safe between comment brackets when it holds neither bracket and when its ends
form none with the brackets around it. `sanitize` makes any text safe by dropping
characters, round by round, until a round changes nothing.

* `SafeBody`: the safe texts.
* `sanitize`: a safe part of a text.
-/

namespace SmlSynth.Comment

/-- Whether two neighbours form a comment bracket. -/
def isBracket (a b : Char) : Bool := (a == '(' && b == '*') || (a == '*' && b == ')')

/-- **Texts that are safe between comment brackets**: no bracket inside, no start that closes
the opening bracket and no end that opens another or spoils the closing one. -/
structure SafeBody (t : Text) : Prop where
  inside : ∀ before a b after, t = before ++ a :: b :: after → isBracket a b = false
  start : ∀ c, t.head? = some c → c ≠ '*' ∧ c ≠ ')'
  stop : ∀ c, t.getLast? = some c → c ≠ '(' ∧ c ≠ '*'

/-- The text without the characters that form a bracket with the one kept before them. -/
def dropBrackets : Option Char → Text → Text
  | _, [] => []
  | kept, c :: rest =>
    if kept.any (isBracket · c) then dropBrackets kept rest else c :: dropBrackets (some c) rest

/-- The text without stars and closing parentheses at its start. -/
def trimStart (t : Text) : Text := t.dropWhile fun c => c == '*' || c == ')'

/-- The text without opening parentheses and stars at its end. -/
def trimEnd (t : Text) : Text := (t.reverse.dropWhile fun c => c == '(' || c == '*').reverse

/-- One round: brackets are dropped, then both ends are trimmed. -/
def round (t : Text) : Text := trimEnd (trimStart (dropBrackets none t))

/-- Rounds until one changes nothing, but at most as many as are given. -/
def settle : Nat → Text → Option Text
  | 0, _ => none
  | rounds + 1, t => if round t = t then some t else settle rounds (round t)

/-- **The safe part of a text.** A round that changes a text makes it shorter, so there is
a fixed point within as many rounds as the text has characters, and one more. -/
def sanitize (t : Text) : Text := (settle (t.length + 1) t).getD []

/-- A comment with the safe part of a text as its body. -/
def enclose (t : Text) : Text := '(' :: '*' :: sanitize t ++ ['*', ')']

end SmlSynth.Comment
