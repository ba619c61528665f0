import SmlSynth.Text.Classes

/-!
# Line breaks

Where a line of text may be broken, by the rules of Unicode's line breaking algorithm. Each
character has a class, and the classes on both sides of a place, with whether there are spaces
between them, decide about the place.

The classes are those of the standard for Latin text and general punctuation. Of other scripts
only the wide ones are told apart, whose characters may be parted anywhere; the characters of
the rest count as letters.

* `BreakClass.of`: the class of a character.
* `BreakClass.mayBreak`: the rules.
* `Text.segments`: the parts of a text that no break may divide.
-/

namespace SmlSynth

/-- **What a character is to line breaks.** -/
inductive BreakClass where
  /-- It ends a line, whatever follows. -/
  | lineEnd
  | space
  /-- A space of no width, which invites a break. -/
  | zeroWidthSpace
  /-- It ties its neighbours together. -/
  | glue
  /-- It belongs to the character before it. -/
  | mark
  | opening
  | closing
  | closingBracket
  | quotation
  | exclamation
  /-- A separator in numbers, such as a comma. -/
  | separator
  | slash
  | hyphen
  /-- A break may follow it. -/
  | breakAfter
  /-- A break may precede it. -/
  | breakBefore
  /-- It cannot start a line. -/
  | nonstarter
  | ellipsis
  | dash
  | digit
  /-- What stands before a number, such as a currency. -/
  | beforeNumber
  /-- What stands after a number, such as a unit. -/
  | afterNumber
  | letter
  | ideograph
deriving Repr, DecidableEq

namespace BreakClass

/-- The classes of ranges of characters; those of no range are letters. -/
def ranges : List (Nat × Nat × BreakClass) :=
  [(0x0, 0x8, mark), (0x9, 0x9, breakAfter), (0xa, 0xd, lineEnd), (0xe, 0x1f, mark),
    (0x20, 0x20, space), (0x21, 0x21, exclamation), (0x22, 0x22, quotation),
    (0x24, 0x24, beforeNumber), (0x25, 0x25, afterNumber), (0x27, 0x27, quotation),
    (0x28, 0x28, opening), (0x29, 0x29, closingBracket), (0x2b, 0x2b, beforeNumber),
    (0x2c, 0x2c, separator), (0x2d, 0x2d, hyphen), (0x2e, 0x2e, separator), (0x2f, 0x2f, slash),
    (0x30, 0x39, digit), (0x3a, 0x3b, separator), (0x3f, 0x3f, exclamation),
    (0x5b, 0x5b, opening), (0x5c, 0x5c, beforeNumber), (0x5d, 0x5d, closingBracket),
    (0x7b, 0x7b, opening), (0x7c, 0x7c, breakAfter), (0x7d, 0x7d, closing), (0x7f, 0x84, mark),
    (0x85, 0x85, lineEnd), (0x86, 0x9f, mark), (0xa0, 0xa0, glue), (0xa1, 0xa1, opening),
    (0xa2, 0xa2, afterNumber), (0xa3, 0xa5, beforeNumber), (0xab, 0xab, quotation),
    (0xad, 0xad, breakAfter), (0xb0, 0xb0, afterNumber), (0xb1, 0xb1, beforeNumber),
    (0xb4, 0xb4, breakBefore), (0xbb, 0xbb, quotation), (0xbf, 0xbf, opening),
    (0x300, 0x36f, mark), (0x483, 0x489, mark), (0x1100, 0x115f, ideograph),
    (0x2000, 0x2006, breakAfter), (0x2007, 0x2007, glue), (0x2008, 0x200a, breakAfter),
    (0x200b, 0x200b, zeroWidthSpace), (0x200c, 0x200f, mark), (0x2010, 0x2010, breakAfter),
    (0x2011, 0x2011, glue), (0x2012, 0x2013, breakAfter), (0x2014, 0x2014, dash),
    (0x2018, 0x2019, quotation), (0x201a, 0x201a, opening), (0x201b, 0x201d, quotation),
    (0x201e, 0x201e, opening), (0x201f, 0x201f, quotation), (0x2024, 0x2026, ellipsis),
    (0x2027, 0x2027, breakAfter), (0x2028, 0x2029, lineEnd), (0x202a, 0x202e, mark),
    (0x202f, 0x202f, glue), (0x2030, 0x2037, afterNumber), (0x2039, 0x203a, quotation),
    (0x203c, 0x203d, nonstarter), (0x2044, 0x2044, separator), (0x2045, 0x2045, opening),
    (0x2046, 0x2046, closing), (0x2047, 0x2049, nonstarter), (0x2056, 0x2056, breakAfter),
    (0x2057, 0x2057, afterNumber), (0x2058, 0x205b, breakAfter), (0x205d, 0x205f, breakAfter),
    (0x2060, 0x2060, glue), (0x2066, 0x206f, mark), (0x20a0, 0x20cf, beforeNumber),
    (0x20d0, 0x20f0, mark), (0x2e80, 0x2fff, ideograph), (0x3000, 0x3000, breakAfter),
    (0x3001, 0x3002, closing), (0x3005, 0x3005, nonstarter), (0x3008, 0x3008, opening),
    (0x3009, 0x3009, closing), (0x300a, 0x300a, opening), (0x300b, 0x300b, closing),
    (0x300c, 0x300c, opening), (0x300d, 0x300d, closing), (0x300e, 0x300e, opening),
    (0x300f, 0x300f, closing), (0x3010, 0x3010, opening), (0x3011, 0x3011, closing),
    (0x301c, 0x301c, nonstarter), (0x309b, 0x309e, nonstarter), (0x30fb, 0x30fe, nonstarter),
    (0x3003, 0x33ff, ideograph), (0x3400, 0x4dbf, ideograph), (0x4e00, 0xa4cf, ideograph),
    (0xac00, 0xd7a3, ideograph), (0xf900, 0xfaff, ideograph), (0xfe00, 0xfe0f, mark),
    (0xfeff, 0xfeff, glue), (0xff01, 0xff01, exclamation), (0xff08, 0xff08, opening),
    (0xff09, 0xff09, closing), (0xff0c, 0xff0c, closing), (0xff0e, 0xff0e, closing),
    (0xff1a, 0xff1b, nonstarter), (0xff1f, 0xff1f, exclamation), (0xff02, 0xff5a, ideograph),
    (0x1f300, 0x1faff, ideograph), (0x20000, 0x3fffd, ideograph)]

/-- **The class of a character.** -/
def of (c : Char) : BreakClass :=
  match ranges.find? fun r => decide (r.1 ≤ c.toNat) && decide (c.toNat ≤ r.2.1) with
  | some r => r.2.2
  | none => letter

/-- Whether no break may stand before a class, even after spaces. -/
def clings : BreakClass → Bool
  | lineEnd | space | zeroWidthSpace | closing | closingBracket | exclamation | separator
  | slash => true
  | _ => false

/-- Whether a break may stand after spaces that follow a class. -/
def mayBreakAfterSpaces (before after : BreakClass) : Bool :=
  if before = zeroWidthSpace then true
  else if after.clings || before = opening then false
  else
    match before, after with
    | quotation, opening => false
    | closing, nonstarter | closingBracket, nonstarter => false
    | dash, dash => false
    | _, _ => true

/-- Whether two classes belong together as parts of a number, of a word or of both. -/
def joined : BreakClass → BreakClass → Bool
  | letter, digit | digit, letter | letter, letter | digit, digit => true
  | beforeNumber, ideograph | ideograph, afterNumber => true
  | beforeNumber, letter | afterNumber, letter => true
  | letter, beforeNumber | letter, afterNumber => true
  | closing, afterNumber | closingBracket, afterNumber => true
  | closing, beforeNumber | closingBracket, beforeNumber => true
  | digit, afterNumber | digit, beforeNumber => true
  | afterNumber, opening | afterNumber, digit | beforeNumber, opening | beforeNumber, digit => true
  | hyphen, digit | separator, digit | slash, digit => true
  | separator, letter => true
  | letter, opening | digit, opening => true
  | closingBracket, letter | closingBracket, digit => true
  | _, _ => false

/-- Whether a break may stand between two classes with no space between them. -/
def mayBreakBetween (before after : BreakClass) : Bool :=
  if before = lineEnd then true
  else if after = lineEnd || after = space || after = zeroWidthSpace then false
  else if before = zeroWidthSpace then true
  else if before = glue then false
  else if after = glue then before = breakAfter || before = hyphen
  else if after.clings || before = opening then false
  else
    match before, after with
    | closing, nonstarter | closingBracket, nonstarter => false
    | dash, dash => false
    | quotation, _ | _, quotation => false
    | _, breakAfter | _, hyphen | _, nonstarter | breakBefore, _ => false
    | _, ellipsis => false
    | _, _ => !joined before after

/-- **Whether a break may stand between two classes.** -/
def mayBreak (before : BreakClass) (spaced : Bool) (after : BreakClass) : Bool :=
  if spaced then mayBreakAfterSpaces before after else mayBreakBetween before after

end BreakClass

/-! ## Segments -/

/-- What decides about the next place of a text: the class of the last character that is
neither a space nor a mark, and whether there were spaces after it. -/
structure BreakContext where
  before : BreakClass
  spaced : Bool

namespace BreakContext

/-- The context after a character. A mark on its own counts as a letter. -/
def next (context : BreakContext) (c : Char) : BreakContext :=
  match BreakClass.of c with
  | .space => if context.before = .lineEnd then ⟨.letter, true⟩ else ⟨context.before, true⟩
  | .mark =>
    if context.spaced || context.before = .lineEnd || context.before = .zeroWidthSpace then
      ⟨.letter, false⟩
    else context
  | after => ⟨after, false⟩

/-- Whether a break may stand before a character. -/
def mayBreakBefore (context : BreakContext) (c : Char) : Bool :=
  match BreakClass.of c with
  | .mark =>
    if context.spaced then BreakClass.mayBreakAfterSpaces context.before .letter
    else context.before = .lineEnd || context.before = .zeroWidthSpace
  | after => BreakClass.mayBreak context.before context.spaced after

end BreakContext

namespace Text

/-- Whether a character is a hyphen. Words are broken at hyphens by a rule of their own. -/
def isHyphen (c : Char) : Bool := c == '-' || c == '\u00ad'

/-- The segments of a text that starts with a character, which leaves the context. -/
def segmentsFrom (context : BreakContext) (c : Char) : Text → List Text
  | [] => [[c]]
  | d :: ds =>
    let rest := segmentsFrom (context.next d) d ds
    if context.mayBreakBefore d && !isHyphen c then [c] :: rest
    else
      match rest with
      | [] => [[c]]
      | segment :: others => (c :: segment) :: others

/-- Texts, the last two of them made one. -/
def joinLast : List Text → List Text
  | [a, b] => [a ++ b]
  | a :: rest => a :: joinLast rest
  | [] => []

/-- **The parts of a text that no break may divide**, spaces at their ends included. A text
that ends in a hyphen is not broken before its last part. -/
def segments (cs : Text) : List Text :=
  match cs with
  | [] => []
  | c :: rest =>
    let parts := segmentsFrom (BreakContext.next ⟨.letter, false⟩ c) c rest
    if cs.getLast?.any isHyphen then joinLast parts else parts

end Text

end SmlSynth
