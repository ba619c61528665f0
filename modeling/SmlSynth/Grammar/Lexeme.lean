import SmlSynth.Grammar.Comment
import SmlSynth.Grammar.Literal
import SmlSynth.Grammar.Words

/-!
# Lexemes

The terminals of the grammar: what is spelled character by character rather than put
together from parts.

* `Lexeme`: the kinds of lexemes.
* `Lexeme.sample`: how a lexeme of each kind is drawn.
-/

namespace SmlSynth

/-- **The kinds of lexemes** that are drawn character by character. -/
inductive Lexeme where
  | comment
  /-- A letter and up to ten identifier characters. -/
  | identifier
  /-- A lower-case letter and up to two identifier characters. -/
  | shortIdentifier
  /-- Up to three symbolic characters that are not punctuation. -/
  | symbolic
  /-- A short identifier that is no reserved word. -/
  | name
  /-- An upper-case letter and up to four identifier characters. -/
  | capitalName
  /-- A number from one to ten, as a record label. -/
  | numericLabel
  /-- A digit, as a precedence. -/
  | precedence
  | decimalInt
  | hexInt
  | word
  | real
  | string
  | character
deriving Repr, DecidableEq

namespace Lexeme

variable {σ : Type} [Source σ]

open Sampler

/-! ## Comments and identifiers -/

/-- A comment with up to nineteen characters, of which the safe part is kept. -/
def sampleComment : Sampler σ Text := do
  let n ← below 20 (by decide)
  return Comment.enclose (← times n latinChar)

/-- An identifier: a first character and fewer than `rest` others. -/
def sampleIdentifier (first : Sampler σ Char) (rest : Nat) (h : 0 < rest) : Sampler σ Text := do
  let c ← first
  let n ← below rest h
  return c :: (← times n identifierChar)

/-- A lower-case letter and up to two identifier characters. -/
def sampleShort : Sampler σ Text := sampleIdentifier lowerLetter 3 (by decide)

/-- One to three symbolic characters, drawn again while they are punctuation. -/
def sampleSymbolic : Sampler σ Text :=
  redrawing (do times (← upTo 1 3) symbolicChar) fun t => !isSymbolicReserved t

/-- A short identifier, drawn again while it is reserved in the core language. What is reserved
in the module language gets an underscore. -/
def sampleName : Sampler σ Text := do
  let t ← redrawing sampleShort fun t => !isCoreReserved t
  return if isModuleReserved t then t ++ ['_'] else t

/-! ## Numbers -/

/-- Whether a number is negative: one in ten is. -/
def sampleNegative : Sampler σ Bool := return (← below 10 (by decide)) = 0

def sign (negative : Bool) : Text := if negative then ['~'] else []

def sampleDecimal : Sampler σ Text := do
  let negative ← sampleNegative
  let digits ← naturalDigits (← upTo 1 5)
  return sign negative ++ digits

/-- A hexadecimal integer of up to four digits. -/
def sampleHex : Sampler σ Text := do
  let negative ← sampleNegative
  let digits ← times (← upTo 1 4) hexDigit
  return sign negative ++ '0' :: 'x' :: digits

/-- A word constant of up to four digits, hexadecimal or decimal. -/
def sampleWord : Sampler σ Text := do
  let hex ← coin
  let n ← upTo 1 4
  if hex then return '0' :: 'w' :: 'x' :: (← times n hexDigit)
  else return '0' :: 'w' :: (← times n digit)

/-- The fraction of a real constant: a point and up to three digits. -/
def sampleFraction : Sampler σ Text := return '.' :: (← times (← upTo 1 3) digit)

/-- The exponent of a real constant: a letter of either case, a sign and up to two digits. -/
def sampleExponent : Sampler σ Text := do
  let mark := if ← coin then 'e' else 'E'
  let negative ← coin
  return mark :: sign negative ++ (← times (← upTo 1 2) digit)

/-- A part of a constant if it is wanted, and nothing otherwise. -/
def samplePart (wanted : Bool) (part : Sampler σ Text) : Sampler σ Text :=
  if wanted then part else return []

/-- **A real constant** of up to four digits before the point. One that was drawn without
fraction and exponent would read as an integer, so it gets a zero fraction. -/
def sampleReal : Sampler σ Text := do
  let negative ← sampleNegative
  let whole ← naturalDigits (← upTo 1 4)
  let hasFraction ← coin
  let hasExponent ← coin
  let fraction ← samplePart hasFraction sampleFraction
  let exponent ← samplePart hasExponent sampleExponent
  let repair := if hasFraction || hasExponent then [] else ['.', '0']
  return sign negative ++ whole ++ fraction ++ exponent ++ repair

/-! ## Strings and characters -/

/-- A string constant of up to fourteen elements. -/
def sampleString : Sampler σ Text := do
  let n ← below 15 (by decide)
  return Literal.string (← times n Literal.Element.sample)

/-- A character constant, one in five with an escape. -/
def sampleCharacter : Sampler σ Text := do
  if (← below 5 (by decide)) = 0 then
    return Literal.character (← Literal.Element.sampleEscape)
  else return Literal.character (.plain (← printableChar))

/-- **A lexeme of a kind.** -/
def sample : Lexeme → Sampler σ Text
  | comment => sampleComment
  | identifier => sampleIdentifier letter 11 (by decide)
  | shortIdentifier => sampleShort
  | symbolic => sampleSymbolic
  | name => sampleName
  | capitalName => sampleIdentifier upperLetter 5 (by decide)
  | numericLabel => return Nat.toDigits 10 (← upTo 1 10)
  | precedence => return [← digit]
  | decimalInt => sampleDecimal
  | hexInt => sampleHex
  | word => sampleWord
  | real => sampleReal
  | string => sampleString
  | character => sampleCharacter

end Lexeme

end SmlSynth
