import SmlSynth.Digits
import SmlSynth.Program.Batch
import SmlSynth.Word

/-!
# Command-line arguments

Options have a long name, most also a letter. The value of an option is attached to it or
is the argument after it. A value that stands alone is examined when the next option is
met or the arguments end, so an unknown argument after it is reported first.

* `Arguments`: what the command line asks for.
* `Arguments.parse`: the arguments of a command line, or why the program stops.
-/

namespace SmlSynth

/-- **What the command line asks for.** -/
structure Arguments where
  count : Nat := 10
  seed : Option Int64 := none
  output : String := "."
  selector : Selector := .mixed
  profile : String := "default"
  noManifest : Bool := false
deriving DecidableEq

/-- **Why the program stops at its arguments**: a fault of usage, or a request for the help
text or the version. -/
inductive Halt where
  | unknownArgument
  /-- A value that is none of those allowed, or is missing. -/
  | invalidValue
  /-- A value that is no number of the right kind. -/
  | malformedValue
  | givenTwice
  /-- A value for a switch. -/
  | needlessValue
  | help
  | version
deriving Repr, DecidableEq

namespace Arguments

/-! ## Values -/

/-- A natural number that a word holds. A plus sign may stand before it. -/
def natural? (s : String) : Option Nat :=
  match s.toList with
  | '+' :: cs => (Digits.natural? cs).bind word?
  | cs => (Digits.natural? cs).bind word?

/-- An integer that a signed word holds. A sign may stand before it. -/
def integer? (s : String) : Option Int64 :=
  match s.toList with
  | '-' :: cs => (Digits.natural? cs).bind fun n => int64? (-n)
  | '+' :: cs => (Digits.natural? cs).bind fun n => int64? n
  | cs => (Digits.natural? cs).bind fun n => int64? n

/-! ## Options -/

/-- The options that take a value. -/
inductive Key where
  | count
  | seed
  | output
  | complexity
  | profile
deriving Repr, DecidableEq

/-- The options that take none. -/
inductive Switch where
  | noManifest
  | help
  | version
deriving Repr, DecidableEq

/-- An option. -/
inductive OptionName where
  | key (k : Key)
  | switch (s : Switch)
deriving Repr, DecidableEq

/-- The options by their long names. -/
def longNames : List (String × OptionName) :=
  [("count", .key .count), ("seed", .key .seed), ("output", .key .output),
    ("complexity", .key .complexity), ("profile", .key .profile),
    ("no-manifest", .switch .noManifest), ("help", .switch .help), ("version", .switch .version)]

/-- The options by their letters. -/
def letters : List (Char × OptionName) :=
  [('n', .key .count), ('s', .key .seed), ('o', .key .output), ('c', .key .complexity),
    ('p', .key .profile), ('h', .switch .help), ('V', .switch .version)]

/-- The arguments with the value of an option. -/
def assign (a : Arguments) (k : Key) (value : String) : Except Halt Arguments :=
  match k with
  | .count =>
    match natural? value with
    | some n => .ok { a with count := n }
    | none => .error .malformedValue
  | .seed =>
    match integer? value with
    | some i => .ok { a with seed := some i }
    | none => .error .malformedValue
  | .output => if value = "" then .error .invalidValue else .ok { a with output := value }
  | .complexity =>
    match Selector.ofName? value with
    | some s => .ok { a with selector := s }
    | none => .error .invalidValue
  | .profile => .ok { a with profile := value }

/-! ## Reading the arguments one by one -/

/-- **What is known after some arguments**: the values so far, the options that had one, and the
last option with the value that stood after it, not examined yet. -/
structure Progress where
  arguments : Arguments := {}
  given : List Key := []
  pending : Option (Key × Option String) := none

/-- Examines a value: it has to be there, its option must not have had one, and it has to be
of the right kind. -/
def Progress.accept (p : Progress) (k : Key) (value : Option String) : Except Halt Progress :=
  match value with
  | none => .error .invalidValue
  | some v =>
    if p.given.contains k then .error .givenTwice
    else do return ⟨← p.arguments.assign k v, k :: p.given, none⟩

/-- Examines the value that is pending. -/
def Progress.settle (p : Progress) : Except Halt Progress :=
  match p.pending with
  | some (k, value) => p.accept k value
  | none => .ok p

/-- An option that takes a value, with the value attached to it if there is one. -/
def Progress.meetKey (p : Progress) (k : Key) (attached : Option String) :
    Except Halt Progress := do
  let p ← p.settle
  match attached with
  | some v => p.accept k (some v)
  | none => return { p with pending := some (k, none) }

/-- An option that takes no value. -/
def Progress.meetSwitch (p : Progress) (s : Switch) : Except Halt Progress := do
  let p ← p.settle
  match s with
  | .help => throw .help
  | .version => throw .version
  | .noManifest =>
    if p.arguments.noManifest then throw .givenTwice
    else return { p with arguments := { p.arguments with noManifest := true } }

/-- An argument that starts with two dashes: a long name, and a value after an equals sign. -/
def Progress.meetLong (p : Progress) (body : List Char) : Except Halt Progress :=
  let name := body.takeWhile (· != '=')
  let attached := match body.dropWhile (· != '=') with
    | _ :: value => some (String.ofList value)
    | [] => none
  match longNames.lookup (String.ofList name) with
  | none => .error .unknownArgument
  | some (.key k) => p.meetKey k attached
  | some (.switch s) => if attached.isSome then .error .needlessValue else p.meetSwitch s

/-- An argument that starts with one dash: letters of options, up to the first that takes a value.
What is left is that value, after an equals sign or not. -/
def Progress.meetLetters (p : Progress) : List Char → Except Halt Progress
  | [] => .ok p
  | c :: rest =>
    match letters.lookup c with
    | none => .error .unknownArgument
    | some (.switch s) => do meetLetters (← p.meetSwitch s) rest
    | some (.key k) =>
      match rest with
      | [] => p.meetKey k none
      | '=' :: value => p.meetKey k (some (String.ofList value))
      | value => p.meetKey k (some (String.ofList value))

def isExponentMark (c : Char) : Bool := c == 'e' || c == 'E'

/-- Whether characters look like a number: digits, a point not at the start, and an exponent
mark neither at the start nor at the end. -/
def looksNumeric (cs : List Char) : Bool :=
  let whole := cs.takeWhile (!isExponentMark ·)
  let wholeIsNumeric :=
    whole.head? != some '.' && whole.count '.' ≤ 1 && whole.all fun c => c.isDigit || c == '.'
  match cs.dropWhile (!isExponentMark ·) with
  | [] => wholeIsNumeric
  | _ :: exponent =>
    !whole.isEmpty && wholeIsNumeric && !exponent.isEmpty && exponent.all Char.isDigit

/-- Whether an argument that starts with a dash is the negative seed that is waited for. -/
def Progress.takesNegative (p : Progress) (body : List Char) : Bool :=
  match p.pending with
  | some (.seed, none) => looksNumeric body
  | _ => false

/-- An argument that is no option: the value that is waited for, or else a stray word. -/
def Progress.meetWord (p : Progress) (word : String) : Except Halt Progress :=
  match p.pending with
  | some (k, none) => .ok { p with pending := some (k, some word) }
  | _ => .error .unknownArgument

/-- The next argument. -/
def Progress.meet (p : Progress) (arg : String) : Except Halt Progress :=
  match arg.toList with
  | '-' :: '-' :: body => p.meetLong body
  | '-' :: c :: body =>
    if p.takesNegative (c :: body) then p.meetWord arg else p.meetLetters (c :: body)
  | _ => p.meetWord arg

/-- All arguments. After two dashes alone no argument is known. -/
def Progress.meetAll (p : Progress) : List String → Except Halt Progress
  | [] => .ok p
  | arg :: rest =>
    if arg = "--" then if rest.isEmpty then .ok p else .error .unknownArgument
    else do meetAll (← p.meet arg) rest

/-- **The arguments of a command line**, the program's name left out. -/
def parse (args : List String) : Except Halt Arguments := do
  let p ← Progress.meetAll {} args
  return (← p.settle).arguments

/-- What is wrong with arguments that are well formed. -/
def fault? (a : Arguments) : Option String :=
  if a.count = 0 then some "--count must be greater than 0" else none

end Arguments

end SmlSynth
