import SmlSynth.Gen.Weights
import SmlSynth.Grammar.Characters

/-!
# String and character constants

A string constant is a sequence of elements between quotes. An element is a printable
character, a named escape, a three-digit code or a four-digit code point.

* `Literal.Element`: the elements, with their spelling.
* `Literal.Element.sample`, `Literal.Element.sampleEscape`: how they are drawn.
* `Literal.string`, `Literal.character`: the constants made of them.
-/

namespace SmlSynth.Literal

/-- **An element of a string constant.** -/
inductive Element where
  /-- A character that stands for itself. -/
  | plain (c : Char)
  /-- A backslash and a letter or sign that names a character. -/
  | named (c : Char)
  /-- A backslash and a code in three decimal digits. -/
  | code (n : Fin 256)
  /-- A backslash, the letter u and four hexadecimal digits. -/
  | codePoint (digits : List Char)
deriving Repr, DecidableEq

/-- The three decimal digits of a code. -/
def threeDigits (n : Nat) : List Char :=
  [Nat.digitChar (n / 100), Nat.digitChar (n / 10 % 10), Nat.digitChar (n % 10)]

/-- The spelling of an element. -/
def Element.text : Element → Text
  | .plain c => [c]
  | .named c => ['\\', c]
  | .code n => '\\' :: threeDigits n
  | .codePoint digits => '\\' :: 'u' :: digits

/-- The named escapes and their weights. What is left to one goes to the numbered ones. -/
def namedEscapes : List (Float × Char) :=
  [(0.15, 'n'), (0.15, 't'), (0.10, '\\'), (0.10, '\x22'), (0.10, 'a'), (0.10, 'b'), (0.10, 'v'),
    (0.10, 'f'), (0.05, 'r')]

/-- The string constant with these elements. -/
def string (elements : List Element) : Text :=
  '\x22' :: elements.flatMap Element.text ++ ['\x22']

/-- The character constant of an element. -/
def character (element : Element) : Text := '#' :: '\x22' :: element.text ++ ['\x22']

variable {σ : Type} [Source σ]

/-- An escape: a roll that outlasts the named ones decides again between a code and a code
point. -/
def Element.sampleEscape : Sampler σ Element := do
  let roll ← Sampler.unit
  match (Weights.walk roll (namedEscapes.map (·.1))).bind (namedEscapes[·]?) with
  | some (_, c) => return .named c
  | none =>
    if ← Sampler.chance 0.6 then return .code (← Sampler.below 256 (by decide))
    else return .codePoint (← Sampler.times 4 Sampler.hexDigit)

/-- An element: in 85 of 100 cases a printable character, else an escape. -/
def Element.sample : Sampler σ Element := do
  if ← Sampler.chance 0.85 then return .plain (← Sampler.printableChar) else sampleEscape

end SmlSynth.Literal
