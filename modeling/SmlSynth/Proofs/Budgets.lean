import SmlSynth.Proofs.FirstFit

/-!
# Searches under two budgets

A search that is asked for shorter programs goes on for longer, and one text can be its answer
under many budgets. Both are seen by running two searches side by side.

* `searchFit_of_fits`, `searchFit_of_long`, `searchFit_of_minimal`: what a search does with the
  text of an attempt.
* `Traced.answeredFrom?`: the attempt that a run answers from, read off what it reports.
* `searchFit_stable`: a text that is within a smaller budget is the answer there too.
* `answeredFrom_mono`: a greater budget never answers from a later attempt.
* `generate_budget`: both, for programs as asked for.
-/

namespace SmlSynth

/-- **The attempt that a run answers from**: the one that it reports last. A run that answers with
the fallback reports that instead. -/
def Traced.answeredFrom? {α : Type} (run : Traced α) : Option Nat :=
  match run.events.getLast? with
  | some (.attempt number ..) => some number
  | _ => none

section Search

variable {once : Tier → Int64 → Except Fault Text} {m m' : Nat} {seed : Int64}
  {left number k : Nat} {tier target : Tier} {t : Text}

/-! ## One attempt -/

theorem searchFit_of_error {e : Fault} (h : once tier (seed + Int64.ofNat number) = .error e) :
    searchFit once m seed (left + 1) number tier = .of (.error e) := by
  simp only [searchFit, h]; rfl

/-- A text within the budget is the answer. -/
theorem searchFit_of_fits (h : once tier (seed + Int64.ofNat number) = .ok t) (ht : t.length ≤ m) :
    searchFit once m seed (left + 1) number tier =
      .after (.attempt number tier (seed + Int64.ofNat number) t.length) (.of (.ok t)) := by
  simp only [searchFit, h, Traced.andThen, Traced.of, if_pos ht]; rfl

/-- **After a text that is too long the search goes on a tier lower.** -/
theorem searchFit_of_long (h : once tier (seed + Int64.ofNat number) = .ok t) (ht : m < t.length)
    (hlower : tier.lower = some target) :
    searchFit once m seed (left + 1) number tier =
      .after (.attempt number tier (seed + Int64.ofNat number) t.length)
        (.after (.degrading tier target t.length m)
          (searchFit once m seed left (number + 1) target)) := by
  simp only [searchFit, h, Traced.andThen, Traced.of, if_neg (Nat.not_le.2 ht), hlower]; rfl

/-- After a text of the lowest tier that is too long the fallback is the answer. -/
theorem searchFit_of_minimal (h : once tier (seed + Int64.ofNat number) = .ok t) (ht : m < t.length)
    (hlower : tier.lower = none) :
    searchFit once m seed (left + 1) number tier =
      .after (.attempt number tier (seed + Int64.ofNat number) t.length)
        (.after (.fallback seed) (.of (once .minimal seed))) := by
  simp only [searchFit, h, Traced.andThen, Traced.of, if_neg (Nat.not_le.2 ht), hlower]; rfl

/-! ## A smaller budget that is met -/

/-- **A text that a smaller budget has room for is the answer there too**: what was too long before
it still is. -/
theorem searchFit_stable (hm : m ≤ m') (ht : t.length ≤ m)
    (h : (searchFit once m' seed left number tier).outcome = .ok t) :
    (searchFit once m seed left number tier).outcome = .ok t := by
  induction left generalizing number tier with
  | zero => exact h
  | succ left ih =>
    cases hr : once tier (seed + Int64.ofNat number) with
    | error e => rw [searchFit_of_error hr] at h; cases h
    | ok u =>
      rcases Nat.lt_or_ge m' u.length with hlong | hfits
      · cases hlower : tier.lower with
        | some target =>
          rw [searchFit_of_long hr hlong hlower] at h
          rw [searchFit_of_long hr (by omega) hlower]
          exact ih h
        | none =>
          rw [searchFit_of_minimal hr hlong hlower] at h
          rw [searchFit_of_minimal hr (by omega) hlower]
          exact h
      · -- the greater budget answers here, with the text that the smaller one has room for
        rw [searchFit_of_fits hr hfits] at h
        obtain rfl : u = t := Except.ok.inj h
        rw [searchFit_of_fits hr ht]
        rfl

/-! ## The attempt that a run answers from -/

theorem answeredFrom_of_fits (h : once tier (seed + Int64.ofNat number) = .ok t)
    (ht : t.length ≤ m) :
    (searchFit once m seed (left + 1) number tier).answeredFrom? = some number := by
  rw [searchFit_of_fits h ht]; rfl

/-- What is reported before a search that goes on does not matter. -/
theorem answeredFrom_of_long (h : once tier (seed + Int64.ofNat number) = .ok t)
    (ht : m < t.length) (hlower : tier.lower = some target) :
    (searchFit once m seed (left + 1) number tier).answeredFrom? =
      (searchFit once m seed left (number + 1) target).answeredFrom? := by
  rw [searchFit_of_long h ht hlower]
  obtain ⟨events, outcome⟩ := searchFit once m seed left (number + 1) target
  cases events with
  | nil => rfl
  | cons e rest => simp only [Traced.answeredFrom?, Traced.after, List.getLast?_cons_cons]

/-- **A search that answers from an attempt** does so from the one at hand, or it goes on and
answers from a later one. -/
theorem answeredFrom_cases
    (h : (searchFit once m seed (left + 1) number tier).answeredFrom? = some k) :
    ∃ t, once tier (seed + Int64.ofNat number) = .ok t ∧
      (t.length ≤ m ∧ number = k ∨
        m < t.length ∧ ∃ target, tier.lower = some target ∧
          (searchFit once m seed left (number + 1) target).answeredFrom? = some k) := by
  cases hr : once tier (seed + Int64.ofNat number) with
  | error e => rw [searchFit_of_error hr] at h; cases h
  | ok t =>
    refine ⟨t, rfl, ?_⟩
    rcases Nat.lt_or_ge m t.length with hlong | hfits
    · cases hlower : tier.lower with
      | some target =>
        rw [answeredFrom_of_long hr hlong hlower] at h
        exact .inr ⟨hlong, target, rfl, h⟩
      | none => rw [searchFit_of_minimal hr hlong hlower] at h; cases h
    · rw [answeredFrom_of_fits hr hfits] at h
      exact .inl ⟨hfits, Option.some.inj h⟩

/-- Attempts are numbered on from where a search starts. -/
theorem le_of_answeredFrom (h : (searchFit once m seed left number tier).answeredFrom? = some k) :
    number ≤ k := by
  induction left generalizing number tier with
  | zero => cases h
  | succ left ih =>
    obtain ⟨t, -, ⟨-, rfl⟩ | ⟨-, target, -, hnext⟩⟩ := answeredFrom_cases h
    · exact Nat.le_refl _
    · exact Nat.le_of_succ_le (ih hnext)

/-- **A greater budget never answers from a later attempt.** The two searches stay side by side
until the greater budget answers. -/
theorem answeredFrom_mono (hm : m ≤ m')
    (h : (searchFit once m seed left number tier).answeredFrom? = some k) :
    ∃ k' ≤ k, (searchFit once m' seed left number tier).answeredFrom? = some k' := by
  induction left generalizing number tier with
  | zero => cases h
  | succ left ih =>
    have hnumber := le_of_answeredFrom h
    obtain ⟨t, hr, hcases⟩ := answeredFrom_cases h
    rcases Nat.lt_or_ge m' t.length with hlong | hfits
    · -- too long for both budgets
      obtain ⟨hfits, -⟩ | ⟨-, target, hlower, hnext⟩ := hcases
      · omega
      · rw [answeredFrom_of_long hr hlong hlower]
        exact ih hnext
    · exact ⟨number, hnumber, answeredFrom_of_fits hr hfits⟩

/-- **The answer is the text of the attempt** that the search answers from, and is within the
budget. -/
theorem outcome_of_answeredFrom {start : Tier} (hdown : start.down number = some tier)
    (h : (searchFit once m seed left number tier).answeredFrom? = some k) :
    ∃ t, (searchFit once m seed left number tier).outcome = .ok t ∧ t.length ≤ m ∧
      attemptAt once start seed k = some (.ok t) := by
  induction left generalizing number tier with
  | zero => cases h
  | succ left ih =>
    obtain ⟨t, hr, ⟨hfits, rfl⟩ | ⟨hlong, target, hlower, hnext⟩⟩ := answeredFrom_cases h
    · refine ⟨t, ?_, hfits, ?_⟩
      · rw [searchFit_of_fits hr hfits]; rfl
      · rw [attemptAt, hdown, Option.map_some, hr]
    · have hdown' : start.down (number + 1) = some target := by
        unfold Tier.down; rw [hdown]; exact hlower
      rw [searchFit_of_long hr hlong hlower]
      exact ih hdown' hnext

end Search

/-! ## Programs -/

variable {σ : Type} [Source σ]

/-- **Programs under two budgets.** What is generated for a budget is generated for every smaller
one that it meets, also if it is the fallback. If a budget is answered from an attempt, then every
greater one is answered from that or an earlier attempt. A run that answers from an attempt answers
with the text of that attempt, and within the budget. -/
theorem generate_budget (entropy : Entropy σ) (c : Config) :
    (∀ t m, generate entropy c = .ok t → t.length ≤ m → m ≤ c.maxLength →
      generate entropy { c with maxLength := m } = generate entropy c) ∧
    (∀ m m' k, m ≤ m' →
      (generateTraced entropy { c with maxLength := m }).answeredFrom? = some k →
      ∃ k' ≤ k, (generateTraced entropy { c with maxLength := m' }).answeredFrom? = some k') ∧
    ∀ k, (generateTraced entropy c).answeredFrom? = some k →
      ∃ t, generate entropy c = .ok t ∧ t.length ≤ c.maxLength ∧
        attemptAt (sampleProgram entropy c.comments c.rarities) c.tier c.seed k = some (.ok t) := by
  refine ⟨fun t m h ht hm => ?_, fun m m' k hm h => answeredFrom_mono hm h,
    fun k h => outcome_of_answeredFrom rfl h⟩
  rw [h]
  exact searchFit_stable hm ht h

/-- A program of two characters, from the second attempt: a budget of two gives it again, and one of
fifty is answered from no later attempt. -/
theorem generate_budget_second :
    let entropy : Entropy Tape := ⟨fun s => Tape.constant (if s = 1 then 0 - 1 else 0), 0⟩
    let c : Config := ⟨5, .simple, 0, true, true⟩
    (∃ t, generate entropy c = .ok t ∧ t.length ≤ 2 ∧
      generate entropy { c with maxLength := 2 } = generate entropy c) ∧
    (generateTraced entropy { c with maxLength := 5 }).answeredFrom? = some 1 ∧
    (∃ k' ≤ 1, (generateTraced entropy { c with maxLength := 50 }).answeredFrom? = some k') ∧
    ∃ t, generate entropy c = .ok t ∧ t.length ≤ 5 ∧
      attemptAt (sampleProgram entropy true true) .simple 0 1 = some (.ok t) := by
  intro entropy c
  obtain ⟨hstable, hmono, hanswer⟩ := generate_budget entropy c
  obtain ⟨t, ht, hlength⟩ : ∃ t, generate entropy c = .ok t ∧ decide (t.length ≤ 2) = true :=
    exists_ok_of_any (by decide +kernel)
  have hfrom : (generateTraced entropy c).answeredFrom? = some 1 := by decide +kernel
  rw [decide_eq_true_eq] at hlength
  exact ⟨⟨t, ht, hlength, hstable t 2 ht hlength (by decide)⟩, hfrom,
    hmono 5 50 1 (by decide) hfrom, hanswer 1 hfrom⟩

end SmlSynth
