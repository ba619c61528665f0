import SmlSynth.Profile.Lookup
import SmlSynth.Proofs.Places

/-!
# The profile of a name

A name that is a path has the profile that its file holds, and any other the one that comes with the
program under it. The latter are texts as well, which are read when they are looked up.

* `IsPath`: the names that are paths.
* `Profile.IsAt`, `Profile.MissingAt`: the profile that a name has, and why it has none.
* `Profile.embedded_texts`: what the texts of the program's profiles say.
* `lookup_ok_iff`, `lookup_error_iff`: the profile, or the reason, is what looking a name up yields.
-/

namespace SmlSynth

open FileTree

/-! ## Names and paths -/

/-- **A name is a path** if it has a slash or ends as the names of TOML files do. -/
def IsPath (name : String) : Prop := '/' ∈ name.toList ∨ ∃ stem, name = stem ++ ".toml"

theorem meansFile_iff {name : String} : meansFile name = true ↔ IsPath name := by
  rw [meansFile, IsPath, Bool.or_eq_true, List.contains_iff_mem, List.isSuffixOf_iff_suffix]
  refine or_congr_right ⟨fun ⟨stem, hstem⟩ => ⟨String.ofList stem, ?_⟩, fun ⟨stem, hstem⟩ => ?_⟩
  · rw [← String.toList_inj, String.toList_append, String.toList_ofList, hstem]
  · rw [hstem, String.toList_append]
    exact List.suffix_append _ _

namespace Profile

/-- **The profile that a name has** in a file tree. -/
inductive IsAt (t : FileTree) (name : String) (profile : Profile) : Prop where
  /-- A file holds it. -/
  | file (text : String) (table : Toml.Entries) (path : IsPath name)
      (content : t.read name = .ok text) (parsed : Toml.read? text = some table)
      (typed : ofToml? table = some profile)
  /-- It comes with the program. -/
  | embedded (path : ¬ IsPath name) (known : (name, profile) ∈ Profile.embedded)

/-- **Why a name has no profile** in a file tree. -/
inductive MissingAt (t : FileTree) (name : String) : ProfileError → Prop where
  | unreadable (fault : FileFault) (path : IsPath name) (content : t.read name = .error fault) :
      MissingAt t name (.unreadable name fault)
  /-- The file is not in the format. -/
  | malformed (text : String) (path : IsPath name) (content : t.read name = .ok text)
      (parsed : Toml.read? text = none) : MissingAt t name (.malformed name)
  /-- A field of the file has a value of another type. -/
  | illTyped (text : String) (table : Toml.Entries) (path : IsPath name)
      (content : t.read name = .ok text) (parsed : Toml.read? text = some table)
      (typed : ofToml? table = none) : MissingAt t name (.malformed name)
  /-- No profile of the program has the name. The error lists those that there are. -/
  | unknown (path : ¬ IsPath name) (known : ∀ profile, (name, profile) ∉ Profile.embedded) :
      MissingAt t name (.unknown name (", ".intercalate (Profile.embedded.map (·.1))))

variable {t : FileTree} {name text : String} {profile : Profile} {e : ProfileError}

theorem ofText_ok_iff : ofText name text = .ok profile ↔
    ∃ table, Toml.read? text = some table ∧ ofToml? table = some profile := by
  rw [← Option.bind_eq_some_iff, ofText]
  cases (Toml.read? text).bind ofToml? <;> simp

theorem ofText_error_iff : ofText name text = .error e ↔ e = .malformed name ∧
    (Toml.read? text = none ∨ ∃ table, Toml.read? text = some table ∧ ofToml? table = none) := by
  rw [ofText]
  cases hread : Toml.read? text with
  | none => simp [eq_comm]
  | some table => cases htable : ofToml? table <;> simp [htable, eq_comm]

/-- **The profiles that come with the program are what their texts say.** -/
theorem embedded_texts : embeddedTexts.map (fun e => (e.1, (Toml.read? e.2).bind ofToml?)) =
    embedded.map fun e => (e.1, some e.2) := by
  -- the characters of a text are found faster line by line
  simp only [embeddedTexts, Toml.read?, List.map_cons, List.map_nil, String.toList_append]
  decide +kernel

/-- A look-up in a list whose values were changed changes the value that is found. -/
theorem lookup_map_value {α β γ : Type} [BEq α] (f : β → γ) (key : α) (l : List (α × β)) :
    (l.map fun e => (e.1, f e.2)).lookup key = (l.lookup key).map f := by
  induction l with
  | nil => rfl
  | cons e l ih =>
    rw [List.map_cons, List.lookup_cons, List.lookup_cons, ih]
    cases key == e.1 <;> rfl

/-- To look up a text and read it is to look up what it says. -/
theorem named_eq (name : String) : named name =
    match embedded.lookup name with
    | some profile => .ok profile
    | none => .error (.unknown name (", ".intercalate (embedded.map (·.1)))) := by
  have hnames : available = embedded.map (·.1) := by decide
  have hread := congrArg (List.lookup name) embedded_texts
  rw [lookup_map_value (fun text => (Toml.read? text).bind ofToml?), lookup_map_value some] at hread
  unfold named
  cases htext : embeddedTexts.lookup name with
  | none =>
    rw [htext] at hread
    rw [Option.map_eq_none_iff.1 hread.symm, hnames]
  | some text =>
    rw [htext] at hread
    obtain ⟨profile, hprofile, hfound⟩ := Option.map_eq_some_iff.1 hread.symm
    have hsays : (Toml.read? text).bind ofToml? = some profile := hfound.symm
    rw [hprofile]
    show ofText name text = .ok profile
    rw [ofText, hsays]

theorem named_ok_iff : named name = .ok profile ↔ (name, profile) ∈ embedded := by
  rw [← lookup_iff_mem (by decide), named_eq]
  cases embedded.lookup name <;> simp

theorem named_error_iff : named name = .error e ↔
    e = .unknown name (", ".intercalate (embedded.map (·.1))) ∧
      ∀ profile, (name, profile) ∉ embedded := by
  -- the names of the program's profiles differ, so that what is not found is not there
  simp only [← lookup_iff_mem (show (embedded.map (·.1)).Nodup by decide), named_eq]
  cases embedded.lookup name <;> simp [eq_comm]

/-- A name that is no path is not looked for in the files. -/
theorem perform_lookup_of_not_isPath (h : ¬ IsPath name) :
    t.perform (lookup name) = (named name, t) := by
  rw [lookup, if_neg (meansFile_iff.not.2 h)]
  rfl

/-- A path is read. -/
theorem perform_lookup_of_isPath (h : IsPath name) : t.perform (lookup name) =
    (match t.read name with
      | .ok text => ofText name text
      | .error fault => .error (.unreadable name fault), t) := by
  rw [lookup, if_pos (meansFile_iff.2 h), perform_bind, perform_read]
  cases t.read name <;> rfl

/-- **Looking up a name yields the profile that it has.** -/
theorem lookup_ok_iff : (t.perform (lookup name)).1 = .ok profile ↔ IsAt t name profile := by
  by_cases h : IsPath name
  · -- a path has what its file holds, and nothing that comes with the program
    rw [perform_lookup_of_isPath h]
    constructor
    · intro hok
      cases hread : t.read name with
      | error fault => rw [hread] at hok; cases hok
      | ok text =>
        rw [hread] at hok
        obtain ⟨table, hparsed, htyped⟩ := ofText_ok_iff.1 hok
        exact .file text table h hread hparsed htyped
    · rintro (⟨text, table, -, hread, hparsed, htyped⟩ | ⟨hnot, -⟩)
      · rw [hread]
        exact ofText_ok_iff.2 ⟨table, hparsed, htyped⟩
      · exact absurd h hnot
  · rw [perform_lookup_of_not_isPath h, named_ok_iff]
    constructor
    · exact .embedded h
    · rintro (⟨-, -, hpath, -⟩ | ⟨-, hknown⟩)
      · exact absurd hpath h
      · exact hknown

/-- **Looking up a name fails for the reason that it has no profile.** -/
theorem lookup_error_iff : (t.perform (lookup name)).1 = .error e ↔ MissingAt t name e := by
  by_cases h : IsPath name
  · rw [perform_lookup_of_isPath h]
    constructor
    · intro herror
      cases hread : t.read name with
      | error fault => rw [hread] at herror; cases herror; exact .unreadable fault h hread
      | ok text =>
        rw [hread] at herror
        obtain ⟨rfl, hparsed | ⟨table, hparsed, htyped⟩⟩ := ofText_error_iff.1 herror
        · exact .malformed text h hread hparsed
        · exact .illTyped text table h hread hparsed htyped
    · rintro (⟨fault, -, hread⟩ | ⟨text, -, hread, hparsed⟩ |
        ⟨text, table, -, hread, hparsed, htyped⟩ | ⟨hnot, -⟩)
      · rw [hread]
      · rw [hread]
        exact ofText_error_iff.2 ⟨rfl, .inl hparsed⟩
      · rw [hread]
        exact ofText_error_iff.2 ⟨rfl, .inr ⟨table, hparsed, htyped⟩⟩
      · exact absurd h hnot
  · rw [perform_lookup_of_not_isPath h, named_error_iff]
    constructor
    · rintro ⟨rfl, hknown⟩
      exact .unknown h hknown
    · rintro (⟨-, hpath, -⟩ | ⟨-, hpath, -⟩ | ⟨-, -, hpath, -⟩ | ⟨-, hknown⟩)
      · exact absurd hpath h
      · exact absurd hpath h
      · exact absurd hpath h
      · exact ⟨rfl, hknown⟩

end Profile

end SmlSynth
