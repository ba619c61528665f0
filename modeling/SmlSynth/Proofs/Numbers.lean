import SmlSynth.Command.Arguments
import SmlSynth.Proofs.Batches
import SmlSynth.Proofs.Length
import SmlSynth.Proofs.Profiles

/-!
# The numbers of a run are words

What a run counts and measures is held by a word, so that it can be written as a number and read
again: the programs that are asked for, the budgets of the profile, and so the lengths of the texts.

* `Arguments.count_lt_of_parse`: the count of a command line is a word.
* `Budgets.Fits`: budgets that are words; `Profile.IsAt.fits`: those of every profile that is found.
* `length_of_generateBatch`: so are the lengths of a batch's texts.
-/

namespace SmlSynth

/-! ## The count -/

theorem lt_of_word? {k n : Nat} (h : word? k = some n) : n < wordCount := by
  obtain ⟨hlt, hn⟩ := Option.ite_none_right_eq_some.1 h
  exact Option.some.inj hn ▸ hlt

namespace Arguments

/-- A natural number among the arguments is a word. -/
theorem natural?_lt {s : String} {n : Nat} (h : natural? s = some n) : n < wordCount := by
  unfold natural? at h
  split at h
  · obtain ⟨k, -, hk⟩ := Option.bind_eq_some_iff.1 h
    exact lt_of_word? hk
  · obtain ⟨k, -, hk⟩ := Option.bind_eq_some_iff.1 h
    exact lt_of_word? hk

variable {p : Progress}

/-- **Progress whose count is a word.** -/
def Progress.Counted (p : Progress) : Prop := p.arguments.count < wordCount

/-- **A reading that leaves the count a word**, unless it stops. -/
def Keeps (r : Except Halt Progress) : Prop := ∀ p, r = .ok p → p.Counted

theorem keeps_ok (h : p.Counted) : Keeps (.ok p) := by
  rintro _ ⟨⟩
  exact h

theorem keeps_error (e : Halt) : Keeps (.error e) := by
  rintro _ ⟨⟩

theorem keeps_bind {r : Except Halt Progress} {f : Progress → Except Halt Progress}
    (h : Keeps r) (hf : ∀ p : Progress, p.Counted → Keeps (f p)) : Keeps (r >>= f) := by
  cases r with
  | error e => exact keeps_error e
  | ok p => exact hf p (h p rfl)

/-- **The value of an option leaves the count a word**: only that of one option changes it. -/
theorem count_assign {a a' : Arguments} {k : Key} {value : String} (ha : a.count < wordCount)
    (h : a.assign k value = .ok a') : a'.count < wordCount := by
  cases k with
  | count =>
    simp only [assign] at h
    split at h
    · rename_i n hn
      cases h
      exact natural?_lt hn
    · cases h
  | seed | output | complexity =>
    simp only [assign] at h
    split at h <;> cases h
    exact ha
  | profile =>
    cases h
    exact ha

theorem keeps_accept (h : p.Counted) (k : Key) (value : Option String) :
    Keeps (p.accept k value) := by
  unfold Progress.accept
  cases value with
  | none => exact keeps_error _
  | some v =>
    simp only
    split
    · exact keeps_error _
    · cases hassign : p.arguments.assign k v with
      | error e => exact keeps_error e
      | ok a => exact keeps_ok (count_assign h hassign)

theorem keeps_settle (h : p.Counted) : Keeps p.settle := by
  unfold Progress.settle
  split
  · exact keeps_accept h _ _
  · exact keeps_ok h

theorem keeps_meetKey (h : p.Counted) (k : Key) (attached : Option String) :
    Keeps (p.meetKey k attached) := by
  refine keeps_bind (keeps_settle h) fun p hp => ?_
  cases attached with
  | none => exact keeps_ok hp
  | some v => exact keeps_accept hp k v

theorem keeps_meetSwitch (h : p.Counted) (s : Switch) : Keeps (p.meetSwitch s) := by
  refine keeps_bind (keeps_settle h) fun p hp => ?_
  cases s with
  | help => exact keeps_error _
  | version => exact keeps_error _
  | noManifest =>
    simp only
    split
    · exact keeps_error _
    · exact keeps_ok hp

theorem keeps_meetLong (h : p.Counted) (body : List Char) : Keeps (p.meetLong body) := by
  unfold Progress.meetLong
  simp only
  split
  · exact keeps_error _
  · exact keeps_meetKey h _ _
  · split
    · exact keeps_error _
    · exact keeps_meetSwitch h _

theorem keeps_meetLetters (h : p.Counted) (cs : List Char) : Keeps (p.meetLetters cs) := by
  -- each letter starts from the progress that the one before it left
  induction cs generalizing p with
  | nil => exact keeps_ok h
  | cons c rest ih =>
    unfold Progress.meetLetters
    split
    · exact keeps_error _
    · exact keeps_bind (keeps_meetSwitch h _) fun p hp => ih hp
    · split
      · exact keeps_meetKey h _ _
      · exact keeps_meetKey h _ _
      · exact keeps_meetKey h _ _

theorem keeps_meetWord (h : p.Counted) (word : String) : Keeps (p.meetWord word) := by
  unfold Progress.meetWord
  split
  · exact keeps_ok h
  · exact keeps_error _

theorem keeps_meet (h : p.Counted) (arg : String) : Keeps (p.meet arg) := by
  unfold Progress.meet
  split
  · exact keeps_meetLong h _
  · split
    · exact keeps_meetWord h _
    · exact keeps_meetLetters h _
  · exact keeps_meetWord h _

/-- **However many arguments there are, the count stays a word.** -/
theorem keeps_meetAll (h : p.Counted) (args : List String) : Keeps (p.meetAll args) := by
  induction args generalizing p with
  | nil => exact keeps_ok h
  | cons arg rest ih =>
    unfold Progress.meetAll
    split
    · split
      · exact keeps_ok h
      · exact keeps_error _
    · exact keeps_bind (keeps_meet h arg) fun p hp => ih hp

/-- **The count of a command line is a word.** -/
theorem count_lt_of_parse {args : List String} {a : Arguments} (h : parse args = .ok a) :
    a.count < wordCount := by
  have hstart : Progress.Counted {} := by
    show 10 < wordCount
    decide
  have hkeeps : Keeps (Progress.meetAll {} args >>= Progress.settle) :=
    keeps_bind (keeps_meetAll hstart args) fun _ hp => keeps_settle hp
  have hparse : parse args =
      (Progress.meetAll {} args >>= Progress.settle) >>= fun p => .ok p.arguments := by
    rw [bind_assoc]
    rfl
  rw [hparse] at h
  cases hread : Progress.meetAll {} args >>= Progress.settle with
  | error e => rw [hread] at h; cases h
  | ok p =>
    rw [hread] at h
    cases h
    exact hkeeps p hread

end Arguments

/-! ## Budgets -/

/-- A field of a table has what its default has, and all that is read for it. -/
theorem of_tomlField {α : Type} {P : α → Prop} {read? : Toml.Value → Option α} {default a : α}
    {v : Option Toml.Value} (hdefault : P default) (hread : ∀ v a, read? v = some a → P a)
    (h : tomlField read? default v = some a) : P a := by
  cases v with
  | none => exact Option.some.inj h ▸ hdefault
  | some v => exact hread v a h

theorem tomlBudget?_lt {v : Toml.Value} {n : Nat} (h : tomlBudget? v = some n) :
    n < wordCount := by
  unfold tomlBudget? at h
  split at h
  · rename_i i
    obtain ⟨-, hn⟩ := Option.ite_none_right_eq_some.1 h
    -- an integer of a table is a signed word
    have hword := i.toInt_lt
    have hvalue : i.toInt.toNat = n := Option.some.inj hn
    unfold wordCount
    omega
  · cases h

theorem budgetField_lt {default n : Nat} {v : Option Toml.Value} (hdefault : default < wordCount)
    (h : tomlField tomlBudget? default v = some n) : n < wordCount :=
  of_tomlField (P := (· < wordCount)) hdefault (fun _ _ => tomlBudget?_lt) h

/-- **Budgets that are words.** -/
structure Budgets.Fits (b : Budgets) : Prop where
  minimal : b.minimal < wordCount
  simple : b.simple < wordCount
  medium : b.medium < wordCount
  complex : b.complex < wordCount
  extreme : b.extreme < wordCount

namespace Budgets

theorem fits_default : ({} : Budgets).Fits := by constructor <;> decide

/-- **Budgets that are read are words.** -/
theorem fits_ofToml? {v : Toml.Value} {b : Budgets} (h : ofToml? v = some b) : b.Fits := by
  unfold ofToml? at h
  cases v with
  | table | array | datetime =>
    simp only [Option.bind_eq_bind, Option.bind_eq_some_iff] at h
    obtain ⟨_, hminimal, _, hsimple, _, hmedium, _, hcomplex, _, hextreme, h⟩ := h
    cases h
    exact ⟨budgetField_lt fits_default.minimal hminimal, budgetField_lt fits_default.simple hsimple,
      budgetField_lt fits_default.medium hmedium, budgetField_lt fits_default.complex hcomplex,
      budgetField_lt fits_default.extreme hextreme⟩
  | string | integer | float | boolean | tables => cases h

end Budgets

namespace Profile

variable {profile : Profile}

/-- The budgets of a profile that is read are words. -/
theorem fits_ofToml? {table : Toml.Entries} (h : ofToml? table = some profile) :
    profile.maxLengths.Fits := by
  unfold ofToml? at h
  simp only [Option.bind_eq_bind, Option.bind_eq_some_iff] at h
  obtain ⟨_, -, _, -, _, hlengths, h⟩ := h
  cases h
  exact of_tomlField Budgets.fits_default (fun _ _ => Budgets.fits_ofToml?) hlengths

/-- **The budgets of every profile that is found are words.** -/
theorem IsAt.fits {t : FileTree} {name : String} (h : IsAt t name profile) :
    profile.maxLengths.Fits := by
  cases h with
  | file text table path content parsed typed => exact fits_ofToml? typed
  | embedded path known =>
    have hall : ∀ e ∈ Profile.embedded, e.2.maxLengths.Fits := by
      intro e he
      simp only [Profile.embedded, List.mem_cons, List.not_mem_nil, or_false] at he
      rcases he with rfl | rfl | rfl
      · exact Budgets.fits_default
      · constructor <;> decide
      · exact Budgets.fits_default
    exact hall _ known

theorem budget_lt (h : profile.maxLengths.Fits) (tier : Tier) :
    profile.budget tier < wordCount := by
  have hone : 1 < wordCount := by decide
  cases tier
  · exact Nat.max_lt.2 ⟨hone, h.minimal⟩
  · exact Nat.max_lt.2 ⟨hone, h.simple⟩
  · exact Nat.max_lt.2 ⟨hone, h.medium⟩
  · exact Nat.max_lt.2 ⟨hone, h.complex⟩
  · exact Nat.max_lt.2 ⟨hone, h.extreme⟩

end Profile

/-! ## Lengths -/

/-- **The lengths of a batch's texts are words**, if the budgets are. -/
theorem length_of_generateBatch {σ : Type} [Source σ] {entropy : Entropy σ} {count : Nat}
    {seed : Int64} {selector : Selector} {profile : Profile} {fixtures : List Fixture}
    (h : (generateBatch entropy count seed selector profile).outcome = .ok fixtures)
    (hprofile : profile.maxLengths.Fits) : ∀ f ∈ fixtures, f.text.length < wordCount := by
  intro f hf
  obtain ⟨i, hi⟩ := List.mem_iff_getElem?.1 hf
  have hfixture := (generateBatch_ok_iff.1 h).2 i f hi
  have hshort : 940 < wordCount := by decide
  exact Nat.lt_of_le_of_lt (length_generate hfixture.text)
    (Nat.max_lt.2 ⟨Profile.budget_lt hprofile f.tier, hshort⟩)

end SmlSynth
