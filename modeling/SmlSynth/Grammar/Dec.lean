import SmlSynth.Grammar.Exp

/-!
# Declarations

The phrase classes of declarations. At the depth limit a declaration binds values, types or
exceptions or sets the fixity of names, and what it binds is at the limit too.
-/

namespace SmlSynth.Phrase

open Gen

/-! ## Values and functions -/

/-- A pattern bound to an expression. -/
def valBinding : Phrase := .seq [rule .pat, equals, rule .boundExp]

def valDec : Phrase := .seq [lit "val", spaces, .sepBy1 (.delayed valBinding) andWord]

def valRecDec : Phrase :=
  .seq [lit "val", spaces, lit "rec", spaces,
    .sepBy1 (.seq [name, equals, .delayed fnExp]) andWord]

/-- A clause of a function. -/
def funClause : Phrase :=
  .seq [name, spaces, .delayed argumentPats, optTypeAnnotation, equals, rule .boundExp]

/-- A function declaration by clauses. -/
def funDec : Phrase :=
  .seq [lit "fun", spaces, .sepBy1 (.sepBy1 (.delayed funClause) bar) andWord]

/-! ## Types and datatypes -/

/-- A type name bound to a type. -/
def typeBinding : Phrase := .seq [typeParameters, name, equals, rule .ty]

def typeDec : Phrase := .seq [lit "type", spaces, .sepBy1 (.delayed typeBinding) andWord]

/-- A constructor, alone or with the type of its argument. -/
def conBinding : Phrase :=
  .weighted [(0.5, capitalName), (0.5, .seq ([capitalName] ++ spacedWord "of" ++ [rule .ty]))]

/-- A datatype with its constructors. -/
def dataBinding : Phrase :=
  .seq [typeParameters, name, equals, .sepBy1 (.delayed conBinding) bar]

/-- Type abbreviations within a datatype declaration, or nothing. -/
def optWithtype : Phrase :=
  .optional (.seq (spacedWord "withtype" ++ [.sepBy1 (.delayed typeBinding) andWord]))

def datatypeDec : Phrase :=
  .seq [lit "datatype", spaces, .sepBy1 (.delayed dataBinding) andWord, optWithtype]

/-- A second name for a datatype. -/
def replicationDec : Phrase :=
  .seq [lit "datatype", spaces, name, equals, lit "datatype", spaces, longName]

/-! ## Exceptions, scopes and fixity -/

/-- An exception, alone, with the type of its argument, or as a second name. -/
def exnBinding : Phrase :=
  .weighted
    [(0.4, name), (0.4, .seq ([name] ++ spacedWord "of" ++ [rule .ty])),
      (0.2, .seq [name, equals, longName])]

def exceptionDec : Phrase :=
  .seq [lit "exception", spaces, .sepBy1 (.delayed exnBinding) andWord]

def localDec : Phrase :=
  .seq ([lit "local", spaces, .delayed decs] ++ spacedWord "in" ++
    [.delayed decs, spaces, lit "end"])

/-- **A fixity directive.** A symbolic operand may end in a star. Between declarations a space,
a semicolon or the end of a line follows it; after the last one of a program the text may end, or a
comment follow directly. -/
def fixityDec (directive : String) : Phrase :=
  .seq [lit directive, .optional (.seq [spaces, precedence]), spaces,
    .sepBy1 (.weighted [(0.8, name), (0.2, lexeme .symbolic)]) spaces]

/-- A directive for operators that group to the left. -/
def leftFixityDec : Phrase := fixityDec "infix"

/-- A directive for operators that group to the right. -/
def rightFixityDec : Phrase := fixityDec "infixr"

/-- A directive that takes the fixity of names away. -/
def nonfixDec : Phrase := .seq [lit "nonfix", spaces, .sepBy1 name spaces]

/-- A declaration that opens structures. -/
def openDec : Phrase := .seq [lit "open", spaces, .sepBy1 capitalName spaces]

def emptyDec : Phrase := empty

/-- The declarations of the depth limit. -/
def simpleDec : Phrase :=
  .weighted
    [(0.50, .delayed valDec), (0.30, .delayed typeDec), (0.10, .delayed exceptionDec),
      (0.05, leftFixityDec), (0.05, nonfixDec)]

/-- **Declarations.** -/
def decBody : Phrase :=
  .depthChoice simpleDec (.weighted
    [(0.24, .delayed valDec), (0.25, .delayed funDec), (0.15, .delayed datatypeDec),
      (0.10, .delayed typeDec), (0.08, .delayed exceptionDec), (0.05, .delayed localDec),
      (0.03, .delayed leftFixityDec), (0.02, .delayed rightFixityDec),
      (0.02, .delayed nonfixDec), (0.02, .delayed valRecDec), (0.02, .delayed openDec),
      (0.02, .delayed replicationDec)])

end SmlSynth.Phrase
