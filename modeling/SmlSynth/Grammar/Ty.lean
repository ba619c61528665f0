import SmlSynth.Grammar.Phrase

/-!
# Types

The phrase classes of types. A type or operand of a type constructor is depth-gated: at
the limit it is a variable or a constructor name.
-/

namespace SmlSynth.Phrase

open Gen

/-- A built-in type name or a possibly qualified constructor name. -/
def typeName : Phrase := .weighted [(0.7, builtinType), (0.3, longName)]

/-- A type without parts. -/
def simpleType : Phrase := .weighted [(0.4, typeVar), (0.6, typeName)]

/-- The star between the components of a product. -/
def star : Phrase := .seq (spaced "*")

/-- A label with its type. -/
def typeRow : Phrase := .seq ([label] ++ spaced ":" ++ [rule .ty])

def recordType : Phrase := (Gen.seq [optSpace, .sepBy1 (.delayed typeRow) comma, optSpace]).braces

/-- A product of at least two types. -/
def tupleType : Phrase := .seq [rule .atTy, star, .sepBy1 (rule .atTy) star]

def functionType : Phrase := .seq ([rule .atTy] ++ spaced "->" ++ [rule .ty])

/-- A type constructor after one operand, or after several in parentheses. -/
def constructedType : Phrase :=
  .weighted
    [(0.6, .seq [rule .atTy, spaces, typeName]),
      (0.4, .seq [(Gen.sepBy1 (rule .ty) comma).parens, spaces, typeName])]

def parenType : Phrase := (Gen.seq [optSpace, rule .ty, optSpace]).parens

/-- A type constructor of the initial basis after one operand. -/
def builtinApplication (constructor : String) : Phrase :=
  .seq [rule .atTy, spaces, lit constructor]

/-- A type in common use: a built-in one, a list or an option. -/
def commonType : Phrase :=
  .choice [builtinType, builtinApplication "list", builtinApplication "option"]

/-- The type parameters of a binding with a space after them, or nothing. -/
def typeParameters : Phrase :=
  .weighted
    [(0.5, lit ""), (0.3, .seq [typeVar, spaces]),
      (0.2, .seq [(Gen.sepBy1 typeVar comma).parens, spaces])]

/-- **Operands of type constructors.** -/
def atTyBody : Phrase :=
  .depthChoice simpleType (.weighted
    [(0.50, simpleType), (0.20, .delayed recordType), (0.15, .delayed parenType),
      (0.15, .delayed constructedType)])

/-- **Types.** -/
def tyBody : Phrase :=
  .depthChoice simpleType (.weighted
    [(0.35, simpleType), (0.25, .delayed functionType), (0.15, .delayed tupleType),
      (0.10, .delayed recordType), (0.10, .delayed constructedType), (0.05, .delayed parenType)])

end SmlSynth.Phrase
