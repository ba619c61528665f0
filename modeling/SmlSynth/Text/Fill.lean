import SmlSynth.Text.LineBreak

/-!
# Filling lines

A text is broken into lines of at most a certain width. Each line takes as many words as fit,
and a word that is wider than a line is broken at the width.

* `Text.columns`: the width of a text.
* `Text.words`: the words that lines are filled with.
* `Text.fill`: the lines of a text.
-/

namespace SmlSynth

namespace Text

/-! ## Widths -/

/-- The ranges of the characters that take two columns. -/
def wideRanges : List (Nat × Nat) :=
  [(0x1100, 0x115f), (0x2e80, 0x303e), (0x3041, 0x33ff), (0x3400, 0x4dbf), (0x4e00, 0xa4cf),
    (0xa960, 0xa97c), (0xac00, 0xd7a3), (0xf900, 0xfaff), (0xfe30, 0xfe6f), (0xff01, 0xff60),
    (0xffe0, 0xffe6), (0x1f300, 0x1f64f), (0x1f900, 0x1f9ff), (0x20000, 0x3fffd)]

/-- The columns that a character takes: none for a control or a mark, and two for a wide one. -/
def charColumns (c : Char) : Nat :=
  if c.toNat < 0x20 ∨ (0x7f ≤ c.toNat ∧ c.toNat < 0xa0) then 0
  else if (0x300 ≤ c.toNat ∧ c.toNat ≤ 0x36f) ∨ (0x200b ≤ c.toNat ∧ c.toNat ≤ 0x200f) then 0
  else if inRanges wideRanges c then 2
  else 1

/-- **The columns that a text takes.** -/
def columns : Text → Nat
  | [] => 0
  | c :: cs => charColumns c + columns cs

/-! ## Words -/

/-- A word of a line, with the spaces after it. -/
structure Word where
  body : Text
  spaces : Text
deriving Repr, DecidableEq

namespace Word

/-- The text of a word. -/
def text (w : Word) : Text := w.body ++ w.spaces

/-- The word that a segment holds. -/
def ofSegment (cs : Text) : Word :=
  let spaces := cs.reverse.takeWhile (· == ' ')
  ⟨cs.take (cs.length - spaces.length), spaces⟩

/-- The words of bodies, with the spaces after the last. -/
def ofBodies (spaces : Text) : List Text → List Word
  | [] => []
  | [body] => [⟨body, spaces⟩]
  | body :: rest => ⟨body, []⟩ :: ofBodies spaces rest

end Word

/-- A text broken after each hyphen between letters or digits; `before` holds that the
character before it is one. -/
def hyphenated (before : Bool) : Text → List Text
  | [] => [[]]
  | c :: cs =>
    let rest := hyphenated (isAlphanumeric c) cs
    if c == '-' && before && cs.head?.any isAlphanumeric then [c] :: rest
    else
      match rest with
      | [] => [[c]]
      | part :: others => (c :: part) :: others

/-- A text broken where its columns exceed the width; `used` columns are taken. -/
def chopped (width used : Nat) : Text → List Text
  | [] => [[]]
  | c :: cs =>
    if 0 < used ∧ width < used + charColumns c then
      match chopped width (charColumns c) cs with
      | [] => [[], [c]]
      | part :: others => [] :: (c :: part) :: others
    else
      match chopped width (used + charColumns c) cs with
      | [] => [[c]]
      | part :: others => (c :: part) :: others

/-- **The words that a line is filled with**, none of them wider than the width. -/
def words (width : Nat) (line : Text) : List Word :=
  (segments line).flatMap fun segment =>
    let word := Word.ofSegment segment
    (Word.ofBodies word.spaces (hyphenated false word.body)).flatMap fun part =>
      if width < columns part.body then
        Word.ofBodies part.spaces (chopped width 0 part.body)
      else [part]

/-! ## Lines -/

/-- Puts words on lines, each on the last line if it fits; `used` columns of that are taken. -/
def packed (width used : Nat) (line : List Word) : List Word → List (List Word)
  | [] => [line]
  | word :: rest =>
    if width < used + columns word.body ∧ line ≠ [] then
      line :: packed width (columns word.text) [word] rest
    else packed width (used + columns word.text) (line ++ [word]) rest

/-- The text of a line, without the spaces at its end. -/
def lineText : List Word → Text
  | [] => []
  | [word] => word.body
  | word :: rest => word.text ++ lineText rest

/-- **The lines of a text**, none wider than the width. A line break in the text ends a line. -/
def fill (width : Nat) (cs : Text) : List Text :=
  (pieces '\n' cs).flatMap fun line => (packed width 0 [] (words width line)).map lineText

end Text

end SmlSynth
