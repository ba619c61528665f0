import SmlSynth.Text

/-!
# TOML values

* `Toml.Value`: the values, tables among them.
* `Toml.Origin`: what brought a table about, which decides how it may be extended.
* `Toml.within`: a change to the table that a path leads to.
-/

namespace SmlSynth.Toml

/-- **What brought a table about.** -/
inductive Origin where
  /-- A header of its own. -/
  | header
  /-- A longer header that passes through it. -/
  | implied
  /-- A dotted key. -/
  | dotted
  /-- Braces. -/
  | braces
deriving Repr, DecidableEq

/-- **TOML values.** Floats and times are kept as they are written. -/
inductive Value where
  | string (content : Text)
  | integer (i : Int64)
  | float (numeral : Text)
  | boolean (b : Bool)
  | datetime (text : Text)
  | array (items : List Value)
  | table (origin : Origin) (entries : List (Text × Value))
  /-- An array of tables, each under a header of its own. -/
  | tables (elements : List (List (Text × Value)))

/-- The entries of a table, in order. -/
abbrev Entries := List (Text × Value)

/-- Whether a header may pass through a table. -/
def Origin.admitsHeader : Origin → Bool
  | braces => false
  | _ => true

/-- Whether a dotted key may pass through a table. -/
def Origin.admitsDotted : Origin → Bool
  | implied => true
  | dotted => true
  | _ => false

/-- The entries with another value for a key that is there. -/
def replace (key : Text) (v : Value) (es : Entries) : Entries :=
  es.map fun e => if e.1 = key then (key, v) else e

/-- **A change to the table that a path leads to**, from a table on. Missing tables are made, of
origin `made`; the path passes through tables that `admits` lets it pass, and through the
last element of an array of tables. The change is given the origin of its table. -/
def within (made : Origin) (admits : Origin → Bool) (change : Origin → Entries → Option Entries)
    (origin : Origin) : List Text → Entries → Option Entries
  | [], es => change origin es
  | key :: keys, es =>
    match es.lookup key with
    | none => do
      let inner ← within made admits change made keys []
      return es ++ [(key, .table made inner)]
    | some (.table o inner) => do
      if admits o then
        let inner ← within made admits change o keys inner
        return replace key (.table o inner) es
      else none
    | some (.tables elements) => do
      let last ← elements.getLast?
      let inner ← within made admits change .header keys last
      return replace key (.tables (elements.dropLast ++ [inner])) es
    | some _ => none

/-- **A table with one more entry**, under a key that may be dotted. A dotted key adds only to
tables that dotted keys brought about, and no key is given twice. -/
def addEntry (path : List Text) (key : Text) (v : Value) (es : Entries) : Option Entries :=
  within .dotted Origin.admitsDotted
    (fun origin es =>
      if !path.isEmpty && origin != .dotted then none
      else if (es.lookup key).isSome then none
      else some (es ++ [(key, v)]))
    .header path es

/-- The document with a table of its own under a header. Only a table that longer headers
implied may be there already. -/
def openTable (path : List Text) (key : Text) (es : Entries) : Option Entries :=
  within .implied Origin.admitsHeader
    (fun _ es =>
      match es.lookup key with
      | none => some (es ++ [(key, .table .header [])])
      | some (.table .implied inner) => some (replace key (.table .header inner) es)
      | some _ => none)
    .header path es

/-- The document with one more element in an array of tables. -/
def openElement (path : List Text) (key : Text) (es : Entries) : Option Entries :=
  within .implied Origin.admitsHeader
    (fun _ es =>
      match es.lookup key with
      | none => some (es ++ [(key, .tables [[]])])
      | some (.tables elements) => some (replace key (.tables (elements ++ [[]])) es)
      | some _ => none)
    .header path es

end SmlSynth.Toml
