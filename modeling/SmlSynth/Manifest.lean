import SmlSynth.Json.Printer
import SmlSynth.Json.Reader
import SmlSynth.Program.Batch
import SmlSynth.Records

/-!
# Manifests

A manifest lists the files of a batch, with what is needed to write them again.

* `FileEntry`, `Manifest`: the records.
* `Manifest.text`, `Manifest.ofText?`: a manifest as the text of its file.
-/

namespace SmlSynth

open Json

/-- **A file of a batch**: its name, and the tier, seed and length in characters of its text. -/
structure FileEntry where
  file : String
  tier : Tier
  seed : Int64
  length : Nat
deriving DecidableEq

/-- **The list of the files of a batch.** `generatedAt` is in seconds since 1970. -/
structure Manifest where
  version : String
  seed : Int64
  selector : String
  profile : String
  count : Nat
  generatedAt : Nat
  files : List FileEntry
deriving DecidableEq

/-! ## Entries -/

/-- The entry of a fixture in a file. -/
def FileEntry.ofFixture (file : String) (f : Fixture) : FileEntry :=
  ⟨file, f.tier, f.seed, f.text.length⟩

/-- The fields of an entry. -/
def FileEntry.fieldNames : List String := ["file", "tier", "seed", "length"]

/-- An entry as a record. -/
def FileEntry.toJson (e : FileEntry) : Value :=
  .record
    [("file", .str e.file), ("tier", e.tier.toJson), ("seed", .int e.seed.toInt),
      ("length", .nat e.length)]

/-- The entry of a record. -/
def FileEntry.ofJson? (v : Value) : Option FileEntry := do
  match ← fields? FileEntry.fieldNames v with
  | [file, tier, seed, length] =>
    return ⟨← required asString? file, ← required Tier.ofJson? tier, ← required asInt64? seed,
      ← required asNat? length⟩
  | _ => none

namespace Manifest

/-- The name of the file that holds a manifest. -/
def fileName : String := "smlgen.json"

/-- The version that manifests are written with. -/
def currentVersion : String := "0.1.0"

/-- The manifest of a batch. -/
def ofEntries (seed : Int64) (selector profile : String) (generatedAt : Nat)
    (files : List FileEntry) : Manifest :=
  ⟨currentVersion, seed, selector, profile, files.length, generatedAt, files⟩

/-- The fields of a manifest. -/
def fieldNames : List String :=
  ["version", "seed", "selector", "profile", "count", "generated_at", "files"]

/-- A manifest as a record. -/
def toJson (m : Manifest) : Value :=
  .record
    [("version", .str m.version), ("seed", .int m.seed.toInt), ("selector", .str m.selector),
      ("profile", .str m.profile), ("count", .nat m.count), ("generated_at", .nat m.generatedAt),
      ("files", .array (m.files.map FileEntry.toJson))]

/-- The manifest of a record. -/
def ofJson? (v : Value) : Option Manifest := do
  match ← fields? fieldNames v with
  | [version, seed, selector, profile, count, generatedAt, files] =>
    return ⟨← required asString? version, ← required asInt64? seed, ← required asString? selector,
      ← required asString? profile, ← required asNat? count, ← required asNat? generatedAt,
      ← required (asList? FileEntry.ofJson?) files⟩
  | _ => none

/-- **The text of a manifest's file.** -/
def text (m : Manifest) : String := String.ofList (pretty m.toJson)

/-- **The manifest that a text writes.** -/
def ofText? (s : String) : Option Manifest := (read? s.toList).bind ofJson?

end Manifest

end SmlSynth
