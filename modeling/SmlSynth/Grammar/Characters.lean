import SmlSynth.Gen.Draw

/-!
# Draws of characters

The alphabets that words and constants are spelled with, and the draw of a character
from each.
-/

namespace SmlSynth

/-! ## Alphabets -/

/-- The `n` characters from `first` on, in code order. -/
def charRun (first : Char) (n : Nat) : List Char :=
  (List.range n).map fun i => Char.ofNat (first.toNat + i)

def lowerLetters : List Char := charRun 'a' 26

def upperLetters : List Char := charRun 'A' 26

def decimalDigits : List Char := charRun '0' 10

/-- The decimal digits but zero. -/
def nonzeroDigits : List Char := charRun '1' 9

/-- The hexadecimal digits, the letters in both cases. -/
def hexDigits : List Char := charRun '0' 10 ++ charRun 'a' 6 ++ charRun 'A' 6

def symbolicChars : List Char :=
  ['!', '%', '&', '$', '#', '+', '-', '/', ':', '<', '=', '>', '?', '@', '\\', '~', '\x60', '^',
    '|', '*']

/-- The printable characters that stand for themselves in a string: all but the quote and
the backslash. -/
def printableChars : List Char :=
  (charRun ' ' 95).filter fun c => c != '\x22' && c != '\\'

/-- The first 256 characters. -/
def latinChars : List Char := charRun '\x00' 256

/-! ## Draws -/

namespace Sampler

variable {σ : Type} [Source σ]

def lowerLetter : Sampler σ Char := element lowerLetters (by decide)

def upperLetter : Sampler σ Char := element upperLetters (by decide)

/-- A letter; a coin decides the case. -/
def letter : Sampler σ Char := do if ← coin then lowerLetter else upperLetter

def digit : Sampler σ Char := element decimalDigits (by decide)

def nonzeroDigit : Sampler σ Char := element nonzeroDigits (by decide)

def hexDigit : Sampler σ Char := element hexDigits (by decide)

def symbolicChar : Sampler σ Char := element symbolicChars (by decide)

def printableChar : Sampler σ Char := element printableChars (by decide)

def latinChar : Sampler σ Char := element latinChars (by simp [latinChars, charRun])

/-- A character of an alphanumeric identifier: of ten, six are letters, two are digits, one is
an underscore and one a prime. -/
def identifierChar : Sampler σ Char := do
  let roll ← unit
  if roll < 0.6 then letter
  else if roll < 0.8 then digit
  else if roll < 0.9 then return '_'
  else return '\x27'

/-- Decimal digits without a leading zero, unless there is only one. -/
def naturalDigits (n : Nat) : Sampler σ Text :=
  if n ≤ 1 then return [← digit]
  else do
    let first ← nonzeroDigit
    let rest ← times (n - 1) digit
    return first :: rest

end Sampler

end SmlSynth
