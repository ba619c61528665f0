import SmlSynth.Files.Fault
import SmlSynth.Profile
import SmlSynth.Report
import SmlSynth.Toml.Document

/-!
# Looking up profiles

A profile is named or, if its name contains a slash or ends in `.toml`, read from a TOML
file. In a file any field may be missing.

* `Profile.ofToml?`: the profile of a TOML table.
* `Profile.lookup`: the profile of a name or path.
* `ProfileError`: why there is none.
-/

namespace SmlSynth

/-! ## Profiles in TOML -/

/-- A field of a table, if it is there. -/
def tomlField {α : Type} (read? : Toml.Value → Option α) (default : α) (v : Option Toml.Value) :
    Option α :=
  match v with
  | some v => read? v
  | none => some default

/-- A truth value. -/
def tomlBool? : Toml.Value → Option Bool
  | .boolean b => some b
  | _ => none

/-- A budget. -/
def tomlBudget? : Toml.Value → Option Nat
  | .integer i => if 0 ≤ i.toInt then some i.toInt.toNat else none
  | _ => none

/-- **The budgets of a value**: a table by the names of the tiers, or an array in the order of
the tiers, whose further items are ignored. A time has none of the names. -/
def Budgets.ofToml? (v : Toml.Value) : Option Budgets := do
  let field : Nat → String → Option Toml.Value := fun i name =>
    match v with
    | .table _ es => es.lookup name.toList
    | .array items => items[i]?
    | _ => none
  match v with
  | .table .. | .array _ | .datetime _ =>
    let standard : Budgets := {}
    return ⟨← tomlField tomlBudget? standard.minimal (field 0 "minimal"),
      ← tomlField tomlBudget? standard.simple (field 1 "simple"),
      ← tomlField tomlBudget? standard.medium (field 2 "medium"),
      ← tomlField tomlBudget? standard.complex (field 3 "complex"),
      ← tomlField tomlBudget? standard.extreme (field 4 "extreme")⟩
  | _ => none

/-- **The profile of a table.** Other keys are ignored. -/
def Profile.ofToml? (es : Toml.Entries) : Option Profile := do
  let standard : Profile := {}
  return ⟨← tomlField tomlBool? standard.includeComments (es.lookup "include_comments".toList),
    ← tomlField tomlBool? standard.obscureFeatures (es.lookup "obscure_features".toList),
    ← tomlField Budgets.ofToml? standard.maxLengths (es.lookup "max_lengths".toList)⟩

/-! ## Errors -/

/-- **Why there is no profile.** -/
inductive ProfileError where
  /-- No profile has the name; `available` lists those there are. -/
  | unknown (name available : String)
  /-- The file cannot be read. -/
  | unreadable (path : String) (fault : FileFault)
  /-- The file holds no profile. -/
  | malformed (path : String)
deriving DecidableEq

namespace ProfileError

/-- The message of an error. -/
def message : ProfileError → String
  | unknown name available =>
    "unknown profile '" ++ name ++ "', available profiles: " ++ available
  | unreadable path _ => "failed to read profile file '" ++ path ++ "'"
  | malformed path => "failed to parse profile '" ++ path ++ "'"

/-- The report of an error. -/
def report (e : ProfileError) : Report :=
  match e with
  | unknown .. =>
    { code := "P0001", message := e.message,
      help := some "pass an embedded profile name or a path ending in .toml" }
  | unreadable _ fault => { code := "P0002", message := e.message, cause := some fault.message }
  | malformed _ => { code := "P0003", message := e.message }

end ProfileError

/-! ## Names and paths -/

/-- Whether a name means a file. -/
def meansFile (name : String) : Bool :=
  name.toList.contains '/' || ".toml".toList.isSuffixOf name.toList

/-- The profile that a file's text holds. -/
def Profile.ofText (path text : String) : Except ProfileError Profile :=
  match (Toml.read? text).bind Profile.ofToml? with
  | some p => .ok p
  | none => .error (.malformed path)

/-- The profile of a name that means no file. -/
def Profile.named (name : String) : Except ProfileError Profile :=
  match Profile.embeddedTexts.lookup name with
  | some text => Profile.ofText name text
  | none => .error (.unknown name (", ".intercalate Profile.available))

/-- **The profile of a name or path.** Files are read only for a name that means one. -/
def Profile.lookup {m : Type → Type} [Monad m] [FileSystem m] (name : String) :
    m (Except ProfileError Profile) :=
  if meansFile name then do
    match ← FileSystem.read name with
    | .ok text => return Profile.ofText name text
    | .error fault => return .error (.unreadable name fault)
  else return Profile.named name

end SmlSynth
