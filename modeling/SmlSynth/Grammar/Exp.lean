import SmlSynth.Grammar.Pat

/-!
# Expressions

The phrase classes of expressions: operands, the full language, and a smaller one for the
right of bindings, which keeps declarations compact. At the depth limit all three are
constants, names, the unit or an operator named as a value.
-/

namespace SmlSynth.Phrase

open Gen

/-! ## Expressions without parts -/

/-- An operator named as a value. The star gets a space, so that a parenthesis after it closes
no comment. -/
def operatorExp : Phrase := .map (.padAfter '*') (.seq [lit "op", spaces, infixOperator])

/-- An expression without parts. -/
def simpleExp : Phrase :=
  .weighted [(0.35, constant), (0.35, longName), (0.15, builtinValue), (0.10, unit),
    (0.05, operatorExp)]

/-! ## Records, tuples, lists and sequences -/

/-- A label with its expression. -/
def expRow : Phrase := .seq ([label] ++ spaced "=" ++ [rule .exp])

def recordExp : Phrase := (Gen.seq [optSpace, .sepBy1 (.delayed expRow) comma, optSpace]).braces

/-- The function that selects a label. -/
def selectorExp : Phrase := .seq [lit "#", label]

/-- A tuple of at least two expressions. -/
def tupleExp : Phrase :=
  (Gen.seq [optSpace, rule .exp, comma, .sepBy1 (rule .exp) comma, optSpace]).parens

def listExp : Phrase := (Gen.seq [optSpace, .sepBy (rule .exp) comma, optSpace]).brackets

/-- The semicolon between expressions in parentheses. -/
def semicolon : Phrase := .seq [lit ";", optSpace]

/-- At least two expressions, to be evaluated in order. -/
def sequenceExp : Phrase :=
  (Gen.seq [optSpace, rule .exp, semicolon, .sepBy1 (rule .exp) semicolon, optSpace]).parens

def parenExp : Phrase := (Gen.seq [optSpace, rule .exp, optSpace]).parens

/-! ## Control -/

def ifExp : Phrase :=
  .seq ([lit "if", spaces, rule .exp] ++ spacedWord "then" ++ [rule .exp] ++
    spacedWord "else" ++ [rule .exp])

def whileExp : Phrase :=
  .seq ([lit "while", spaces, rule .exp] ++ spacedWord "do" ++ [rule .exp])

/-- A pattern with its result. -/
def matchRule : Phrase := .seq ([rule .pat] ++ spaced "=>" ++ [rule .exp])

def matchRules : Phrase := .sepBy1 (.delayed matchRule) bar

def caseExp : Phrase :=
  .seq ([lit "case", spaces, rule .exp] ++ spacedWord "of" ++ [matchRules])

def fnExp : Phrase := .seq [lit "fn", spaces, matchRules]

/-! ## Operators and application -/

/-- An operator between operands. -/
def infixExp : Phrase := .seq [rule .atExp, spaces, infixOperator, spaces, rule .exp]

/-- A list by its head and tail. -/
def consExp : Phrase := .seq ([rule .atExp] ++ spaced "::" ++ [rule .exp])

/-- A word of the language between operands. -/
def wordInfixExp (word : String) : Phrase :=
  .seq ([rule .atExp] ++ spacedWord word ++ [rule .exp])

def andalsoExp : Phrase := wordInfixExp "andalso"

def orelseExp : Phrase := wordInfixExp "orelse"

/-- A function applied to an operand. -/
def appExp : Phrase := .seq [rule .atExp, spaces, rule .atExp]

/-- A function applied to one operand after another. -/
def multiAppExp : Phrase := .seq [rule .atExp, .many1 (.seq [spaces, rule .atExp])]

/-- An operator before its operand. -/
def prefixExp : Phrase := .seq [prefixOperator, spaces, rule .atExp]

/-! ## Types, exceptions and local declarations -/

def typedExp : Phrase := .seq ([rule .atExp] ++ spaced ":" ++ [rule .ty])

def raiseExp : Phrase := .seq [lit "raise", spaces, rule .exp]

def handleExp : Phrase := .seq ([rule .atExp] ++ spacedWord "handle" ++ [matchRules])

/-- Declarations local to expressions. -/
def letExp : Phrase :=
  .seq ([lit "let", spaces, .delayed decs] ++ spacedWord "in" ++
    [.sepBy1 (rule .exp) (.seq (spaced ";")), spaces, lit "end"])

/-! ## The phrase classes -/

/-- **Expressions in operand position**: what needs no parentheses around it. -/
def atExpBody : Phrase :=
  .depthChoice simpleExp (.weighted
    [(0.40, simpleExp), (0.15, .delayed recordExp), (0.15, .delayed tupleExp),
      (0.15, .delayed listExp), (0.10, .delayed parenExp), (0.05, .delayed selectorExp)])

/-- **Expressions.** -/
def expBody : Phrase :=
  .depthChoice simpleExp (.weighted
    [(0.18, simpleExp), (0.11, .delayed appExp), (0.10, .delayed infixExp),
      (0.10, .delayed ifExp), (0.08, .delayed fnExp), (0.08, .delayed letExp),
      (0.07, .delayed caseExp), (0.05, .delayed tupleExp), (0.05, .delayed listExp),
      (0.04, .delayed consExp), (0.03, .delayed andalsoExp), (0.03, .delayed orelseExp),
      (0.02, .delayed typedExp), (0.02, .delayed handleExp), (0.02, .delayed raiseExp),
      (0.02, .delayed whileExp), (0.02, .delayed sequenceExp), (0.02, .delayed multiAppExp),
      (0.02, .delayed prefixExp)])

/-- **Expressions on the right of bindings.** -/
def boundExpBody : Phrase :=
  .depthChoice simpleExp (.weighted
    [(0.40, simpleExp), (0.20, .delayed appExp), (0.15, .delayed infixExp),
      (0.10, .delayed tupleExp), (0.10, .delayed listExp), (0.05, .delayed fnExp)])

end SmlSynth.Phrase
