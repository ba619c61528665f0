import SmlSynth.Grammar.Ty

/-!
# Patterns

The phrase classes of patterns. At the depth limit a pattern is a variable, a wildcard, a
constant, the unit or the empty list.
-/

namespace SmlSynth.Phrase

open Gen

/-- The pattern that matches everything. -/
def wildcard : Phrase := lit "_"

/-- The unit, as a pattern or an expression. -/
def unit : Phrase := lit "()"

def emptyList : Phrase := lit "[]"

/-- A pattern without parts. -/
def simplePat : Phrase :=
  .weighted [(0.35, name), (0.25, wildcard), (0.25, patternConstant), (0.10, unit),
    (0.05, emptyList)]

/-- A row of a record pattern: a label with its pattern, a label alone, or the record
wildcard. -/
def patRow : Phrase :=
  .weighted [(0.7, .seq ([label] ++ spaced "=" ++ [rule .pat])), (0.2, name), (0.1, lit "...")]

def recordPat : Phrase := (Gen.seq [optSpace, .sepBy1 (.delayed patRow) comma, optSpace]).braces

/-- A tuple of at least two patterns. -/
def tuplePat : Phrase :=
  (Gen.seq [optSpace, rule .pat, comma, .sepBy1 (rule .pat) comma, optSpace]).parens

def listPat : Phrase := (Gen.seq [optSpace, .sepBy (rule .pat) comma, optSpace]).brackets

/-- A pattern for a list by its head and tail. -/
def consPat : Phrase := .seq ([rule .atPat] ++ spaced "::" ++ [rule .pat])

/-- A constructor of the initial basis, or a constructor with its argument. -/
def constructorPat : Phrase :=
  .weighted
    [(0.4, builtinValue), (0.3, .seq [lit "SOME", spaces, rule .atPat]),
      (0.3, .seq [capitalName, spaces, rule .atPat])]

def typedPat : Phrase := .seq ([rule .atPat] ++ spaced ":" ++ [rule .ty])

/-- A name for what a pattern matches. -/
def layeredPat : Phrase := .seq ([name] ++ spacedWord "as" ++ [rule .pat])

def parenPat : Phrase := (Gen.seq [optSpace, rule .pat, optSpace]).parens

/-- The arguments of a function clause. -/
def argumentPats : Phrase := .sepBy1 (rule .atPat) spaces

/-- A type after a colon, or nothing. -/
def optTypeAnnotation : Phrase := .optional (.seq (spaced ":" ++ [rule .ty]))

/-- **Patterns in argument position.** -/
def atPatBody : Phrase :=
  .depthChoice simplePat (.weighted
    [(0.40, simplePat), (0.20, .delayed recordPat), (0.15, .delayed tuplePat),
      (0.15, .delayed listPat), (0.10, .delayed parenPat)])

/-- **Patterns.** -/
def patBody : Phrase :=
  .depthChoice simplePat (.weighted
    [(0.35, simplePat), (0.15, .delayed consPat), (0.10, .delayed constructorPat),
      (0.10, .delayed typedPat), (0.10, .delayed tuplePat), (0.08, .delayed listPat),
      (0.07, .delayed recordPat), (0.05, .delayed layeredPat)])

end SmlSynth.Phrase
