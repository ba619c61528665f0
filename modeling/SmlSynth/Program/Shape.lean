import SmlSynth.Grammar.Catalog
import SmlSynth.Grammar.Dec
import SmlSynth.Program.Config

/-!
# Shapes of programs

A program's shape is the phrase it is sampled from. Each tier has its own, from a single
binding or expression to a program with every kind of part.

* `shape`: the shape of a tier.
* `program`: a program of a tier.
-/

namespace SmlSynth.Phrase

open Gen

/-- A phrase that comes after a semicolon. -/
def trailing (p : Phrase) : Phrase := .seq [lit ";", optSpace, p]

/-- A phrase if it is wanted, and nothing otherwise. -/
def onlyIf (wanted : Bool) (p : Phrase) : Phrase := if wanted then p else empty

/-! ## The lower tiers -/

/-- A binding, an expression or a constant. -/
def minimalShape : Phrase :=
  .weighted [(0.4, valDec), (0.3, rule .boundExp), (0.2, constant), (0.1, unit)]

/-- One declaration, or two bindings. -/
def simpleShape : Phrase :=
  .weighted
    [(0.5, .delayed valDec), (0.3, .delayed funDec), (0.1, .delayed typeDec),
      (0.1, .seq [.delayed valDec, lit ";", optSpace, .delayed valDec])]

/-- Declarations, with a comment before them and an expression after them. -/
def mediumShape (comments : Bool) : Phrase :=
  .seq
    [onlyIf comments (.optional comment), optNewline, .delayed decs, optNewline,
      .optional (.seq [optSpace, trailing (rule .exp)])]

/-- Type declarations, declarations, an exception and an expression, with comments. -/
def complexShape (comments : Bool) : Phrase :=
  .seq
    [onlyIf comments (.optional comment), optNewline,
      .optional (.seq [.weighted [(0.6, .delayed datatypeDec), (0.4, .delayed typeDec)], spaces]),
      .delayed decs, optNewline, .optional (.seq [spaces, .delayed exceptionDec]), optNewline,
      .optional (trailing (rule .exp)), onlyIf comments (.optional comment)]

/-! ## The extreme tier -/

/-- The argument of a constructor, or nothing. -/
def optPayload : Phrase := .optional (.seq [lit " of ", rule .ty])

/-- A datatype, constructor by constructor, with a space after it. -/
def preambleDatatype : Phrase :=
  .seq
    [lit "datatype ", typeParameters, name, lit " = ", capitalName, optPayload,
      .many (.seq [lit " | ", capitalName, optPayload]), spaces]

/-- A declaration local to another, with a space after it. -/
def preambleLocal : Phrase :=
  .seq ([lit "local", spaces, rule .dec] ++ spacedWord "in" ++
    [rule .dec, spaces, lit "end", spaces])

/-- An item of a program: a declaration, an expression, a comment or nothing. -/
def plainItem (comments : Bool) : Phrase :=
  .weighted
    [(0.5, rule .dec), (0.3, rule .exp), (0.1, onlyIf comments comment), (0.1, empty)]

/-- **An item of a program**, with fragments of the catalog mixed in if they are wanted. -/
def item (comments rarities : Bool) : Phrase :=
  if rarities then
    .weighted
      [(0.70, plainItem comments), (0.10, .delayed rareDec), (0.10, .delayed rareExp),
        (0.05, .delayed rareBinding), (0.05, .delayed rareConstant)]
  else plainItem comments

/-- Every kind of part, with a comment at the start. -/
def extremeShape (comments rarities : Bool) : Phrase :=
  .seq
    [onlyIf comments comment, optNewline, .optional (.seq [.delayed leftFixityDec, spaces]),
      .optional preambleDatatype, .optional (.seq [.delayed exceptionDec, spaces]),
      .optional preambleLocal, .delayed decs,
      onlyIf rarities (.many (.seq [lit ";", optSpace, item comments rarities])), optNewline,
      .optional (trailing (.delayed letExp)),
      onlyIf comments (.optional (.seq [optSpace, comment]))]

/-- **The shape of programs of a tier.** -/
def shape (tier : Tier) (comments rarities : Bool) : Phrase :=
  match tier with
  | .minimal => minimalShape
  | .simple => simpleShape
  | .medium => mediumShape comments
  | .complex => complexShape comments
  | .extreme => extremeShape comments rarities

/-- **A program of a tier**: its shape, checked when it runs. -/
def program (tier : Tier) (comments rarities : Bool) : Phrase :=
  .delayed (shape tier comments rarities)

end SmlSynth.Phrase
