import SmlSynth.Toml.Scalar

/-!
# TOML documents

A document is a sequence of lines: entries, headers of tables and of elements of arrays of
tables, comments and empty lines. Entries belong to the table of the last header.

* `Toml.key`, `Toml.value`: keys and values.
* `Toml.document`: the entries of a document.
* `Toml.read?`: the table that a text writes.

Keys of eighty parts or more and values nested eighty deep or more are refused.
-/

namespace SmlSynth.Toml

/-- The depth of nesting at which keys and values are refused. -/
def nestingLimit : Nat := 80

/-! ## Keys -/

/-- Whether a character may stand in a key without quotes. -/
def isKeyChar (c : Char) : Bool := c.isAlphanum || c == '_' || c == '-'

/-- Takes a part of a key, quoted or not. -/
def keyPart : Scan Text := do
  match ← peek with
  | some '\x22' => singleLineString
  | some '\x27' => singleLineString
  | _ =>
    let part ← span isKeyChar
    if part.isEmpty then refuse else return part

/-- Takes the parts of a key, with blanks around each. -/
def keyParts : Nat → Scan (List Text)
  | 0 => refuse
  | fuel + 1 => do
    blanks
    let part ← keyPart
    blanks
    match ← peek with
    | some '.' =>
      char '.'
      return part :: (← keyParts fuel)
    | _ => return [part]

/-- **Takes a key**: the parts but the last, and the last. -/
def key : Scan (List Text × Text) := do
  let parts ← keyParts (nestingLimit - 1)
  match parts.getLast? with
  | some last => return (parts.dropLast, last)
  | none => refuse

/-! ## Values -/

mutual

/-- Takes a value at a depth of nesting. -/
def value : Nat → Nat → Scan Value
  | 0, _ => refuse
  | fuel + 1, depth => do
    match ← peek with
    | some '[' =>
      if nestingLimit ≤ depth + 1 then refuse
      else
        char '['
        layout
        match ← peek with
        | some ']' => char ']'; return .array []
        | _ => return .array (← items fuel (depth + 1))
    | some '\x7b' =>
      if nestingLimit ≤ depth + 1 then refuse
      else
        char '\x7b'
        blanks
        match ← peek with
        | some '\x7d' => char '\x7d'; return .table .braces []
        | _ => return .table .braces (← bracedEntries fuel (depth + 1) [])
    | _ => scalar

/-- Takes the items of an array up to its closing bracket. A comma may follow the last. -/
def items : Nat → Nat → Scan (List Value)
  | 0, _ => refuse
  | fuel + 1, depth => do
    layout
    let item ← value fuel depth
    layout
    match ← peek with
    | some ',' =>
      char ','
      layout
      match ← peek with
      | some ']' => char ']'; return [item]
      | _ => return item :: (← items fuel depth)
    | _ => char ']'; return [item]

/-- Takes the entries of a table in braces up to its closing brace. -/
def bracedEntries : Nat → Nat → Entries → Scan Entries
  | 0, _, _ => refuse
  | fuel + 1, depth, es => do
    let (path, last) ← key
    char '='
    blanks
    let v ← value fuel depth
    blanks
    match addEntry path last v es with
    | none => refuse
    | some es =>
      match ← peek with
      | some ',' => char ','; bracedEntries fuel depth es
      | _ => char '\x7d'; return es

end

/-! ## Lines -/

/-- The tables read so far, and the header that entries belong to. -/
structure Progress where
  root : Entries
  header : List Text

/-- The document with an entry in the table of the current header. -/
def Progress.add (p : Progress) (path : List Text) (last : Text) (v : Value) : Option Progress :=
  (within .implied Origin.admitsHeader (fun _ es => addEntry path last v es) .header p.header
    p.root).map fun root => { p with root := root }

/-- Continues with a result, if there is one. -/
def proceed {α : Type} (r : Option α) : Scan α := fun cs => r.map fun a => (a, cs)

/-- Takes a header. -/
def header (p : Progress) : Scan Progress := do
  char '['
  let nested ← (do char '['; return true) <|> pure false
  let (path, last) ← key
  char ']'
  if nested then char ']'
  lineEnd
  let root ← proceed (if nested then openElement path last p.root else openTable path last p.root)
  return ⟨root, path ++ [last]⟩

/-- Takes an entry. -/
def entry (fuel : Nat) (p : Progress) : Scan Progress := do
  let (path, last) ← key
  char '='
  blanks
  let v ← value fuel 0
  lineEnd
  proceed (p.add path last v)

/-- Takes lines up to the end of the text. Each takes at least one character. -/
def document (valueFuel : Nat) : Nat → Progress → Scan Entries
  | 0, _ => refuse
  | fuel + 1, p => do
    blanks
    match ← peek with
    | none => return p.root
    | some '#' => lineEnd; document valueFuel fuel p
    | some '\n' => newline; document valueFuel fuel p
    | some '\r' => newline; document valueFuel fuel p
    | some '[' => document valueFuel fuel (← header p)
    | some _ => document valueFuel fuel (← entry valueFuel p)

/-- A text without a byte order mark at its front. -/
def skipMark : Text → Text
  | c :: rest => if c = '\ufeff' then rest else c :: rest
  | [] => []

/-- **The table that a text writes.** -/
def read? (s : String) : Option Entries :=
  let cs := skipMark s.toList
  ((document (2 * cs.length + 2) (cs.length + 1) ⟨[], []⟩).run cs).map (·.1)

end SmlSynth.Toml
