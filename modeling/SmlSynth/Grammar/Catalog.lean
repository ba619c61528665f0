import SmlSynth.Grammar.Exp

/-!
# A catalog of rare fragments

Fragments that are seldom written in Standard ML, for programs that ask for them.

* `rareSymbolicNames`, `rareNumerals`, `rareStrings`, `rareCharacters`: the catalog's words.
* `rareConstant`, `rareExp`, `rareDec`, `rareBinding`: the phrases made of them.
-/

namespace SmlSynth

/-- Symbolic identifiers of unusual shape. -/
def rareSymbolicNames : List String :=
  ["!!!", "%%%", "&&&", "???", "<<<", ">>>", "~~~", "+-+", "<=>", "|>", "<|", ">>>=",
    "<<<<=", "\\\\\\", "^^^", "$$$", "@@@", "***"]

/-- Numeric constants at the edge of their notation. -/
def rareNumerals : List String :=
  ["0", "~0", "0x0", "~0x0", "0w0", "0wx0", "0.0", "~0.0", "0E0", "0.0e~0", "1E~10",
    "9999999999", "0xFFFFFFFF", "0wFFFFFFFF", "123456789.987654321", "1.0e10", "~1.0E~10"]

/-- String constants with every kind of escape, with gaps, and with characters beyond ASCII. -/
def rareStrings : List String :=
  ["\"\"", "\"\\n\\t\\r\\f\\v\\b\\a\"", "\"\\\\\\\"\"", "\"\\000\\001\\127\\255\"",
    "\"\\u0000\\u00FF\\uFFFF\"", "\"a\\^@b\\^Ac\\^_d\"", "\"\\ \\\"", "\"\\\n\\\"",
    "\"\\\t\n \\\"", "\"αβγδ\"", "\"日本語\"", "\"🎉\"", "\"\\u03B1\\u03B2\\u03B3\""]

/-- Character constants at the edge of their notation. -/
def rareCharacters : List String :=
  ["#\"\\n\"", "#\"\\t\"", "#\"\\\\\"", "#\"\\\"\"", "#\"\\000\"", "#\"\\255\"", "#\" \"",
    "#\"\\u0000\"", "#\"\\u00FF\""]

namespace Phrase

open Gen

/-- A symbolic identifier of the catalog. -/
def rareSymbolicName : Phrase := word rareSymbolicNames

/-- A numeric constant of the catalog. -/
def rareNumeral : Phrase := word rareNumerals

/-- A string constant of the catalog. -/
def rareString : Phrase := word rareStrings

/-- A character constant of the catalog. -/
def rareCharacter : Phrase := word rareCharacters

/-- A constant of the catalog. -/
def rareConstant : Phrase :=
  .weighted [(0.4, rareNumeral), (0.3, rareString), (0.3, rareCharacter)]

/-- A pattern of the catalog. -/
def rarePat : Phrase :=
  .weighted
    [(0.2, lit "(_, _, _)"), (0.2, lit "((x, y), (z, w))"), (0.2, .seq [name, lit " : int"]),
      (0.2, .seq [name, lit " as ", name]), (0.2, lit "\x7b...\x7d")]

/-- A declaration that binds a pattern of the catalog, so that it can stand alone. -/
def rareBinding : Phrase :=
  .seq ([lit "val ", rarePat] ++ spaced "=" ++ [rule .boundExp])

/-- An expression of the catalog. -/
def rareExp : Phrase :=
  .weighted
    [(0.15, lit "(1 < 2) andalso (2 < 3)"), (0.15, operatorExp),
      (0.15, .seq [lit "#1", spaces, lit "(1, 2)"]),
      (0.15, lit "(raise Fail \"x\") handle Fail _ => 0"), (0.10, lit "fn x => fn y => x + y"),
      (0.10, empty.brackets), (0.10, empty.parens),
      (0.10, (lit "print \"a\"; print \"b\"; ()").parens)]

/-- A declaration of the catalog. -/
def rareDec : Phrase :=
  .weighted
    [(0.20, lit "fun f x = g x and g x = f x"),
      (0.20, lit "datatype t = A | B of int | C of int * int"),
      (0.15, lit "type 'a pair = 'a * 'a"), (0.15, lit "infix 5 +++"),
      (0.15, lit "exception MyExn of string"), (0.15, lit "local val x = 1 in val y = x end"),
      (0.10, .seq [lit "infixr ", precedence, lit " ", rareSymbolicName])]

end Phrase

end SmlSynth
