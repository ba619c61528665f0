import SmlSynth.Gen.Grammar
import SmlSynth.Grammar.Lexeme

/-!
# Phrases

A phrase is a generator over lexemes and the rules of the Standard ML grammar. The
rules are the phrase classes that can contain themselves; every other phrase is written
out where it is used.

* `Rule`: the recursive phrase classes.
* `Phrase`: generators over them.
* The words, constants, spaces and punctuation that phrases are put together from.
-/

namespace SmlSynth

/-- **The recursive phrase classes** of Standard ML. -/
inductive Rule where
  | ty
  /-- Operands of type constructors. -/
  | atTy
  | pat
  /-- Patterns in argument position. -/
  | atPat
  | exp
  /-- Expressions in operand position. -/
  | atExp
  /-- Expressions on the right of bindings, kept small. -/
  | boundExp
  | dec
deriving Repr, DecidableEq

/-- **A phrase of Standard ML.** -/
abbrev Phrase := Gen (Symbol Lexeme Rule)

namespace Phrase

open Gen

def lexeme (l : Lexeme) : Phrase := .ref (.terminal l)

/-- A phrase of a recursive class. -/
def rule (r : Rule) : Phrase := .ref (.rule r)

/-- One of fixed words. -/
def word (words : List String) : Phrase := .oneOf (texts words)

/-! ## Spaces and line ends -/

/-- A space or nothing. -/
def optSpace : Phrase := .optional space

/-- One or two spaces. -/
def spaces : Phrase := .seq [space, optSpace]

/-- The end of a line, in one of two forms. -/
def newline : Phrase := .either (lit "\n") (lit "\r\n")

/-- Nothing, the end of a line, or one with an indentation after it. -/
def optNewline : Phrase :=
  .weighted [(0.7, empty), (0.2, newline), (0.1, .seq [newline, .either (lit "  ") (lit "\t")])]

/-! ## Punctuation -/

/-- A mark with room for a space on either side. -/
def spaced (mark : String) : List Phrase := [optSpace, lit mark, optSpace]

/-- A word with spaces on either side. -/
def spacedWord (word : String) : List Phrase := [spaces, lit word, spaces]

def comma : Phrase := .seq [lit ",", optSpace]

def bar : Phrase := .seq (spaced "|")

/-- The word between simultaneous bindings. -/
def andWord : Phrase := .seq (spacedWord "and")

/-- The sign between the sides of a binding. -/
def equals : Phrase := .seq (spaced "=")

/-! ## Comments and names -/

def comment : Phrase := lexeme .comment

/-- Rarely a comment, else nothing. -/
def optComment : Phrase := .weighted [(0.9, empty), (0.1, comment)]

/-- A name of a value, which serves for type constructors as well. -/
def name : Phrase := lexeme .name

/-- A capitalised name, of a structure or a constructor. -/
def capitalName : Phrase := lexeme .capitalName

/-- A type variable. -/
def plainTypeVar : Phrase := .seq [lit "'", lexeme .identifier]

/-- A type variable that admits equality. -/
def equalityTypeVar : Phrase := .seq [lit "''", lexeme .identifier]

def typeVar : Phrase := .weighted [(0.8, plainTypeVar), (0.2, equalityTypeVar)]

/-- A name that may be qualified by a structure. -/
def longName : Phrase := .weighted [(0.8, name), (0.2, .seq [capitalName, lit ".", name])]

/-- A record label: a name or a number. -/
def label : Phrase := .weighted [(0.8, name), (0.2, lexeme .numericLabel)]

def precedence : Phrase := lexeme .precedence

/-! ## Constants -/

def intConstant : Phrase := .weighted [(0.8, lexeme .decimalInt), (0.2, lexeme .hexInt)]

/-- A constant of any kind. -/
def constant : Phrase :=
  .weighted [(0.35, intConstant), (0.15, lexeme .word), (0.15, lexeme .real),
    (0.25, lexeme .string), (0.10, lexeme .character)]

/-- A constant that may stand in a pattern, where reals may not. -/
def patternConstant : Phrase :=
  .weighted [(0.40, intConstant), (0.20, lexeme .word), (0.25, lexeme .string),
    (0.15, lexeme .character)]

/-! ## Names of the initial basis -/

def builtinValue : Phrase := word builtinValues

def builtinType : Phrase := word builtinTypes

def infixOperator : Phrase := word infixOperators

def prefixOperator : Phrase := word prefixOperators

/-! ## Declarations in sequence -/

/-- One or more declarations, separated by spaces, a semicolon or the end of a line. -/
def decs : Phrase :=
  .sepBy1 (rule .dec) (.weighted
    [(0.5, spaces), (0.3, .seq [lit ";", optSpace]), (0.2, .seq [newline, optSpace])])

end Phrase

end SmlSynth
