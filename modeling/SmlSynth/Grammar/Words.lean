import SmlSynth.Text

/-!
# Words of Standard ML

* `coreReserved`, `moduleReserved`, `symbolicReserved`: words that are no identifiers.
* `builtinValues`, `builtinTypes`: names of the initial basis.
* `infixOperators`, `prefixOperators`: operators that expressions apply.
-/

namespace SmlSynth

/-- The reserved words of the core language. -/
def coreReserved : List String :=
  ["abstype", "and", "andalso", "as", "case", "datatype", "do", "else", "end", "exception",
    "fn", "fun", "handle", "if", "in", "infix", "infixr", "let", "local", "nonfix", "of", "op",
    "open", "orelse", "raise", "rec", "then", "type", "val", "while", "with", "withtype"]

/-- The reserved words of the module language. -/
def moduleReserved : List String :=
  ["eqtype", "functor", "include", "sharing", "sig", "signature", "struct", "structure",
    "where"]

/-- Symbolic words that stand for punctuation. -/
def symbolicReserved : List String := ["#", "|", "=", ":", "=>", "->", ":>"]

/-- Value names of the initial basis. -/
def builtinValues : List String := ["nil", "true", "false", "NONE", "SOME", "ref"]

/-- Type names of the initial basis. -/
def builtinTypes : List String :=
  ["int", "real", "bool", "string", "char", "unit", "list", "option", "ref", "word", "exn"]

/-- Operators written between their operands. -/
def infixOperators : List String :=
  ["+", "-", "*", "/", "div", "mod", "<", ">", "<=", ">=", "=", "<>", "::", "@", "^", "o",
    "before", ":="]

/-- Functions written like operators before their operand. -/
def prefixOperators : List String := ["!", "not", "~", "abs", "floor", "ceil", "trunc", "round"]

def texts (words : List String) : List Text := words.map String.toList

def isCoreReserved (t : Text) : Bool := (texts coreReserved).contains t

def isModuleReserved (t : Text) : Bool := (texts moduleReserved).contains t

def isSymbolicReserved (t : Text) : Bool := (texts symbolicReserved).contains t

end SmlSynth
