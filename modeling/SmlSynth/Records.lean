import SmlSynth.Json.Decode
import SmlSynth.Profile
import SmlSynth.Program.Config

/-!
# Tiers, requests and profiles in JSON

* `Tier.toJson`, `Tier.ofJson?`: a tier is its name. An object whose only member has the
  name as its key and null as its value is read as well.
* `Config.toJson`, `Config.ofJson?`: a record in which every field is required.
* `Profile.toJson`, `Profile.ofJson?`: a record in which any field may be missing.
-/

namespace SmlSynth

open Json

/-! ## Tiers -/

/-- A tier as its name. -/
def Tier.toJson (t : Tier) : Value := .str t.name

/-- **The tier of a value.** -/
def Tier.ofJson? : Value → Option Tier
  | .string (some t) => Tier.ofName? (String.ofList t)
  | .object [(some t, .null)] => Tier.ofName? (String.ofList t)
  | _ => none

/-! ## Requests -/

/-- The fields of a request. -/
def Config.fieldNames : List String :=
  ["max_length", "complexity", "seed", "include_comments", "include_obscure_features"]

/-- A request as a record. -/
def Config.toJson (c : Config) : Value :=
  .record
    [("max_length", .nat c.maxLength), ("complexity", c.tier.toJson), ("seed", .int c.seed.toInt),
      ("include_comments", .bool c.comments), ("include_obscure_features", .bool c.rarities)]

/-- The request of a record. -/
def Config.ofJson? (v : Value) : Option Config := do
  match ← fields? Config.fieldNames v with
  | [maxLength, tier, seed, comments, rarities] =>
    return ⟨← required asNat? maxLength, ← required Tier.ofJson? tier, ← required asInt64? seed,
      ← required asBool? comments, ← required asBool? rarities⟩
  | _ => none

/-! ## Profiles -/

/-- The budgets as a record, by the names of the tiers. -/
def Budgets.toJson (b : Budgets) : Value :=
  .record
    [("minimal", .nat b.minimal), ("simple", .nat b.simple), ("medium", .nat b.medium),
      ("complex", .nat b.complex), ("extreme", .nat b.extreme)]

/-- The budgets of a record. -/
def Budgets.ofJson? (v : Value) : Option Budgets := do
  let budget := withDefault asNat?
  match ← fields? (Tier.all.map Tier.name) v with
  | [minimal, simple, medium, complex, extreme] =>
    let standard : Budgets := {}
    return ⟨← budget standard.minimal minimal, ← budget standard.simple simple,
      ← budget standard.medium medium, ← budget standard.complex complex,
      ← budget standard.extreme extreme⟩
  | _ => none

/-- The fields of a profile. -/
def Profile.fieldNames : List String := ["include_comments", "obscure_features", "max_lengths"]

/-- A profile as a record. -/
def Profile.toJson (p : Profile) : Value :=
  .record
    [("include_comments", .bool p.includeComments), ("obscure_features", .bool p.obscureFeatures),
      ("max_lengths", p.maxLengths.toJson)]

/-- The profile of a record. -/
def Profile.ofJson? (v : Value) : Option Profile := do
  match ← fields? Profile.fieldNames v with
  | [comments, obscure, maxLengths] =>
    let standard : Profile := {}
    return ⟨← withDefault asBool? standard.includeComments comments,
      ← withDefault asBool? standard.obscureFeatures obscure,
      ← withDefault Budgets.ofJson? standard.maxLengths maxLengths⟩
  | _ => none

end SmlSynth
