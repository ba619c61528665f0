import Mathlib.Data.Nat.Find
import Mathlib.Logic.Relation
import SmlSynth.Program.Budget

/-!
# The first program that fits

A search goes down the tiers. Its attempts are numbered from zero, and the tier and the seed of
each follow from its number.

* `Tier.down`: the tier of an attempt; `down_isSome`: there is one down to the lowest tier.
* `attemptAt`, `Overlong`: what an attempt samples, and when the search goes on after it.
* `Search.Step`, `Search.Reaches`: a step from one attempt to the next, and the states that a
  search reaches; `Search.left_pos`: none of them is out of attempts.
* `generate_first_fit`: a search answers with the first attempt that is not too long.
-/

namespace SmlSynth

/-! ## The tiers of a search -/

namespace Tier

/-- The tier `k` steps down, if there are as many. -/
def down (t : Tier) : Nat → Option Tier
  | 0 => some t
  | k + 1 => (down t k).bind lower

theorem rank_lower {t u : Tier} (h : t.lower = some u) : u.rank + 1 = t.rank := by
  cases t <;> cases u <;> simp_all [lower, rank]

theorem lower_eq_none {t : Tier} : t.lower = none ↔ t = minimal := by
  cases t <;> simp [lower]

theorem rank_lt (t : Tier) : t.rank < 5 := by cases t <;> decide

theorem rank_eq_zero {t : Tier} : t.rank = 0 ↔ t = minimal := by
  cases t <;> simp [rank]

/-- Each step down takes one from the rank. -/
theorem rank_down {t u : Tier} {k : Nat} (h : t.down k = some u) : u.rank + k = t.rank := by
  induction k generalizing u with
  | zero => rw [Option.some.inj h, Nat.add_zero]
  | succ k ih =>
    obtain ⟨v, hv, hu⟩ := Option.bind_eq_some_iff.1 h
    have h1 := ih hv
    have h2 := rank_lower hu
    omega

/-- **There are as many attempts as there are tiers below**, and the last is at the lowest one. -/
theorem down_isSome {t : Tier} {k : Nat} : (t.down k).isSome ↔ k ≤ t.rank := by
  constructor
  · intro h
    obtain ⟨u, hu⟩ := Option.isSome_iff_exists.1 h
    have := rank_down hu
    omega
  · intro h
    induction k with
    | zero => rfl
    | succ k ih =>
      obtain ⟨u, hu⟩ := Option.isSome_iff_exists.1 (ih (by omega))
      have hrank := rank_down hu
      unfold down
      rw [hu, Option.bind_some]
      cases hl : u.lower with
      | some v => rfl
      | none =>
        have hzero := rank_eq_zero.2 (lower_eq_none.1 hl)
        omega

end Tier

/-! ## Attempts -/

/-- **What an attempt samples**, as long as there is a tier for it. -/
def attemptAt (once : Tier → Int64 → Except Fault Text) (tier : Tier) (seed : Int64) (k : Nat) :
    Option (Except Fault Text) :=
  (tier.down k).map fun t => once t (seed + Int64.ofNat k)

/-- Whether a text was sampled that is too long. -/
def Overlong (maxLength : Nat) (outcome : Except Fault Text) : Prop :=
  ∃ t, outcome = .ok t ∧ maxLength < t.length

/-- **The state of a search**: the attempts that are left, the number of the next one and its
tier. -/
structure Search where
  left : Nat
  number : Nat
  tier : Tier

namespace Search

variable {once : Tier → Int64 → Except Fault Text} {maxLength : Nat} {seed : Int64} {s s' : Search}

/-- The outcome of a search from a state on. -/
def outcome (once : Tier → Int64 → Except Fault Text) (maxLength : Nat) (seed : Int64)
    (s : Search) : Except Fault Text :=
  (searchFit once maxLength seed s.left s.number s.tier).outcome

/-- **A step of a search**: a text was too long, and there is a lower tier. -/
inductive Step (once : Tier → Int64 → Except Fault Text) (maxLength : Nat) (seed : Int64) :
    Search → Search → Prop where
  | degrade {left number : Nat} {tier target : Tier}
      (long : Overlong maxLength (once tier (seed + Int64.ofNat number)))
      (lower : tier.lower = some target) :
      Step once maxLength seed ⟨left + 1, number, tier⟩ ⟨left, number + 1, target⟩

/-- The states that a search from a tier reaches. -/
def Reaches (once : Tier → Int64 → Except Fault Text) (maxLength : Nat) (seed : Int64)
    (tier : Tier) : Search → Prop :=
  Relation.ReflTransGen (Step once maxLength seed) ⟨maxAttempts, 0, tier⟩

/-! ## What a search does at a state -/

theorem outcome_of_step (h : Step once maxLength seed s s') :
    outcome once maxLength seed s = outcome once maxLength seed s' := by
  cases h with
  | degrade long lower =>
    obtain ⟨t, ht, hlong⟩ := long
    simp only [outcome, searchFit, Traced.andThen, Traced.of, ht, Traced.after, lower]
    rw [if_neg (by omega)]

theorem outcome_of_reaches {tier : Tier} (h : Reaches once maxLength seed tier s) :
    (firstFit once maxLength tier seed).outcome = outcome once maxLength seed s := by
  induction h with
  | refl => rfl
  | tail _ hstep ih => rw [ih, outcome_of_step hstep]

/-- **An attempt that is not too long is the answer.** -/
theorem outcome_of_not_overlong (hleft : 0 < s.left)
    (h : ¬ Overlong maxLength (once s.tier (seed + Int64.ofNat s.number))) :
    outcome once maxLength seed s = once s.tier (seed + Int64.ofNat s.number) := by
  obtain ⟨left, number, tier⟩ := s
  obtain ⟨left, rfl⟩ : ∃ n, left = n + 1 := ⟨left - 1, by simp only at hleft; omega⟩
  simp only [outcome, searchFit, Traced.andThen, Traced.of, Traced.after]
  cases hr : once tier (seed + Int64.ofNat number) with
  | error e => rfl
  | ok t =>
    have hfits : t.length ≤ maxLength := Nat.le_of_not_lt fun hlong => h ⟨t, hr, hlong⟩
    simp only
    rw [if_pos hfits]

/-- **After the lowest tier the fallback is the answer.** -/
theorem outcome_of_minimal (hleft : 0 < s.left) (htier : s.tier = .minimal)
    (h : Overlong maxLength (once s.tier (seed + Int64.ofNat s.number))) :
    outcome once maxLength seed s = once .minimal seed := by
  obtain ⟨left, number, tier⟩ := s
  obtain ⟨left, rfl⟩ : ∃ n, left = n + 1 := ⟨left - 1, by simp only at hleft; omega⟩
  obtain ⟨t, ht, hlong⟩ := h
  obtain rfl : tier = .minimal := htier
  simp only [outcome, searchFit, Traced.andThen, Traced.of, Traced.after, ht]
  rw [if_neg (by omega)]
  rfl

/-! ## The states of a search -/

/-- What all states of a search have in common: the numbers of attempts made and left stay in step
with the tier, and the attempts made were too long. -/
structure Invariant (once : Tier → Int64 → Except Fault Text) (maxLength : Nat) (seed : Int64)
    (tier : Tier) (s : Search) : Prop where
  budget : s.left + s.number = maxAttempts
  down : tier.down s.number = some s.tier
  long : ∀ j < s.number, ∀ r, attemptAt once tier seed j = some r → Overlong maxLength r

theorem invariant_step {tier : Tier} (h : Invariant once maxLength seed tier s)
    (hstep : Step once maxLength seed s s') : Invariant once maxLength seed tier s' := by
  cases hstep with
  | @degrade left number from' target long lower =>
    obtain ⟨hbudget, hdown, hlong⟩ := h
    simp only at hbudget hdown hlong
    refine ⟨by simp only; omega, ?_, fun j hj r hr => ?_⟩
    · unfold Tier.down; rw [hdown]; exact lower
    -- the attempt of this step is the last one made
    · rcases Nat.lt_succ_iff_lt_or_eq.1 hj with hj | rfl
      · exact hlong j hj r hr
      · rw [attemptAt, hdown] at hr
        rw [← Option.some.inj hr]; exact long

theorem invariant_reaches {tier : Tier} (h : Reaches once maxLength seed tier s) :
    Invariant once maxLength seed tier s := by
  induction h with
  | refl => exact ⟨rfl, rfl, fun j hj => by cases hj⟩
  | tail _ hstep ih => exact invariant_step ih hstep

/-- **No search runs out of attempts**: each state has one left, and it is among the first five. -/
theorem left_pos {tier : Tier} (h : Reaches once maxLength seed tier s) :
    0 < s.left ∧ s.number < 5 := by
  obtain ⟨hbudget, hdown, -⟩ := invariant_reaches h
  have hrank := Tier.rank_down hdown
  have hlt := tier.rank_lt
  unfold maxAttempts at hbudget
  omega

/-- **A search goes on to an attempt** if all attempts before it were too long. -/
theorem reaches_of_overlong {tier t : Tier} {k : Nat} (hk : tier.down k = some t)
    (h : ∀ j < k, ∀ r, attemptAt once tier seed j = some r → Overlong maxLength r) :
    Reaches once maxLength seed tier ⟨maxAttempts - k, k, t⟩ := by
  induction k generalizing t with
  | zero => rw [← Option.some.inj hk]; exact .refl
  | succ k ih =>
    obtain ⟨u, hu, ht⟩ := Option.bind_eq_some_iff.1 hk
    have hreach := ih hu fun j hj => h j (Nat.lt_succ_of_lt hj)
    have hleft := (left_pos hreach).1
    -- the attempt before was too long, and it has a lower tier
    have hlong : Overlong maxLength (once u (seed + Int64.ofNat k)) :=
      h k (Nat.lt_succ_self k) _ (by rw [attemptAt, hu]; rfl)
    obtain ⟨n, hn⟩ : ∃ n, maxAttempts - k = n + 1 := ⟨maxAttempts - k - 1, by simp only at hleft; omega⟩
    have hn' : maxAttempts - (k + 1) = n := by omega
    rw [hn] at hreach
    rw [hn']
    exact hreach.tail (.degrade hlong ht)

/-- More attempts than tiers make no difference. -/
theorem searchFit_left (left left' number : Nat) (tier : Tier) (h : tier.rank < left)
    (h' : tier.rank < left') :
    searchFit once maxLength seed left number tier
      = searchFit once maxLength seed left' number tier := by
  induction left generalizing left' number tier with
  | zero => omega
  | succ left ih =>
    obtain ⟨left', rfl⟩ : ∃ n, left' = n + 1 := ⟨left' - 1, by omega⟩
    unfold searchFit
    cases hl : tier.lower with
    | none => rfl
    | some target =>
      have hrank := Tier.rank_lower hl
      simp only
      rw [ih left' (number + 1) target (by omega) (by omega)]

end Search

/-! ## The answer -/

section Answer

variable {once : Tier → Int64 → Except Fault Text} {maxLength : Nat} {seed : Int64} {tier : Tier}

open Search

/-- **The first attempt that is not too long** is the answer. -/
theorem firstFit_of_first {k : Nat} {r : Except Fault Text} (hk : attemptAt once tier seed k = some r)
    (hbefore : ∀ j < k, ∀ r', attemptAt once tier seed j = some r' → Overlong maxLength r')
    (hr : ¬ Overlong maxLength r) : (firstFit once maxLength tier seed).outcome = r := by
  obtain ⟨t, ht, rfl⟩ := Option.map_eq_some_iff.1 hk
  have hreach := reaches_of_overlong ht hbefore
  rw [outcome_of_reaches hreach]
  exact outcome_of_not_overlong (left_pos hreach).1 hr

/-- If all attempts are too long, the answer is the fallback. -/
theorem firstFit_of_none
    (h : ∀ k r, attemptAt once tier seed k = some r → Overlong maxLength r) :
    (firstFit once maxLength tier seed).outcome = once .minimal seed := by
  obtain ⟨t, ht⟩ := Option.isSome_iff_exists.1 (Tier.down_isSome.2 (Nat.le_refl tier.rank))
  have hrank := Tier.rank_down ht
  have hminimal : t = .minimal := Tier.rank_eq_zero.1 (by omega)
  -- the search gets down to the lowest tier
  have hreach := reaches_of_overlong ht fun j _ => h j
  rw [outcome_of_reaches hreach]
  exact outcome_of_minimal (left_pos hreach).1 hminimal (h tier.rank _ (by rw [attemptAt, ht]; rfl))

/-- A search from the lowest tier answers with its program, whatever its length. -/
theorem firstFit_minimal : (firstFit once maxLength .minimal seed).outcome = once .minimal seed := by
  have hseed : seed + Int64.ofNat 0 = seed := Int64.add_zero seed
  have hfirst : attemptAt once .minimal seed 0 = some (once .minimal seed) := by
    rw [← congrArg (once .minimal) hseed]; rfl
  by_cases h : Overlong maxLength (once .minimal seed)
  · refine firstFit_of_none fun k r hk => ?_
    cases k with
    | zero => rw [hfirst] at hk; rw [← Option.some.inj hk]; exact h
    | succ k =>
      obtain ⟨t, ht, -⟩ := Option.map_eq_some_iff.1 hk
      have hrank := Tier.rank_down ht
      have hzero := Tier.rank_eq_zero.2 (rfl : Tier.minimal = .minimal)
      omega
  · exact firstFit_of_first hfirst (fun j hj => by cases hj) h

open Classical in
/-- **A search ends in one of two ways**: with its first attempt that is not too long, or with the
fallback. -/
theorem firstFit_cases (once : Tier → Int64 → Except Fault Text) (maxLength : Nat) (tier : Tier)
    (seed : Int64) :
    (∃ k r, attemptAt once tier seed k = some r ∧ ¬ Overlong maxLength r ∧
      (firstFit once maxLength tier seed).outcome = r) ∨
    ((∀ k r, attemptAt once tier seed k = some r → Overlong maxLength r) ∧
      (firstFit once maxLength tier seed).outcome = once .minimal seed) := by
  by_cases h : ∃ k, ∃ r, attemptAt once tier seed k = some r ∧ ¬ Overlong maxLength r
  · obtain ⟨r, hk, hr⟩ := Nat.find_spec h
    -- the least number of an attempt that is not too long
    refine .inl ⟨Nat.find h, r, hk, hr, firstFit_of_first hk (fun j hj r' hr' => ?_) hr⟩
    by_contra hlong
    exact Nat.find_min h hj ⟨r', hr', hlong⟩
  · have hall : ∀ k r, attemptAt once tier seed k = some r → Overlong maxLength r := by
      intro k r hk
      by_contra hlong
      exact h ⟨k, r, hk, hlong⟩
    exact .inr ⟨hall, firstFit_of_none hall⟩

end Answer

variable {σ : Type} [Source σ]

/-- **A text that is generated was sampled** at some tier for some seed. -/
theorem sampled_of_generate {entropy : Entropy σ} {c : Config} {t : Text}
    (h : generate entropy c = .ok t) :
    ∃ tier seed, sampleProgram entropy c.comments c.rarities tier seed = .ok t := by
  rcases firstFit_cases (sampleProgram entropy c.comments c.rarities) c.maxLength c.tier c.seed
    with ⟨k, r, hk, -, hr⟩ | ⟨-, hr⟩
  · obtain ⟨tier, -, rfl⟩ := Option.map_eq_some_iff.1 hk
    exact ⟨tier, _, hr.symm.trans h⟩
  · exact ⟨.minimal, c.seed, hr.symm.trans h⟩

theorem exists_ok_of_any {x : Except Fault Text} {p : Text → Bool}
    (h : x.toOption.any p = true) : ∃ t, x = .ok t ∧ p t = true := by
  cases x with
  | error e => cases h
  | ok t => exact ⟨t, rfl, h⟩

/-- **First fit.** What is generated is the first attempt that is not too long; if all are, it is
the lowest tier's program for the seed that was asked for. The search always has an attempt left
and ends among the first five, so that any greater number of attempts gives the same run. A text
is within the budget unless it is what the lowest tier alone would give. -/
theorem generate_first_fit (entropy : Entropy σ) (c : Config) :
    let once := sampleProgram entropy c.comments c.rarities
    (∀ k r, attemptAt once c.tier c.seed k = some r →
      (∀ j < k, ∀ r', attemptAt once c.tier c.seed j = some r' → Overlong c.maxLength r') →
      ¬ Overlong c.maxLength r → generate entropy c = r) ∧
    ((∀ k r, attemptAt once c.tier c.seed k = some r → Overlong c.maxLength r) →
      generate entropy c = once .minimal c.seed) ∧
    (∀ s, Search.Reaches once c.maxLength c.seed c.tier s → 0 < s.left ∧ s.number < 5) ∧
    (∀ left, 5 ≤ left → searchFit once c.maxLength c.seed left 0 c.tier = generateTraced entropy c) ∧
    ∀ t, generate entropy c = .ok t →
      t.length ≤ c.maxLength ∨ generate entropy c = generate entropy { c with tier := .minimal } := by
  intro once
  refine ⟨fun k r hk hbefore hr => firstFit_of_first hk hbefore hr, firstFit_of_none,
    fun s hs => Search.left_pos hs, fun left hleft => ?_, fun t ht => ?_⟩
  · have hrank := c.tier.rank_lt
    exact Search.searchFit_left left maxAttempts 0 c.tier (by omega) (by unfold maxAttempts; omega)
  · have hlowest : generate entropy { c with tier := .minimal } = once .minimal c.seed :=
      firstFit_minimal
    rcases firstFit_cases once c.maxLength c.tier c.seed with ⟨k, r, -, hr, hout⟩ | ⟨-, hout⟩
    -- an attempt that is not too long and yields a text is within the budget
    · refine .inl (Nat.le_of_not_lt fun hlong => hr ⟨t, ?_, hlong⟩)
      exact hout.symm.trans ht
    · exact .inr (hout.trans hlowest.symm)

/-- A search that starts too high: the program of the simple tier is too long for the budget, and
the one of the lowest tier, for the next seed, fits. -/
theorem generate_first_fit_second :
    let entropy : Entropy Tape := ⟨fun s => Tape.constant (if s = 1 then 0 - 1 else 0), 0⟩
    let once := sampleProgram entropy true true
    ∃ t, once .minimal 1 = .ok t ∧ t.length ≤ 5 ∧
      generate entropy ⟨5, .simple, 0, true, true⟩ = .ok t := by
  intro entropy once
  obtain ⟨long, hlong, hlength⟩ : ∃ t, once .simple 0 = .ok t ∧ decide (5 < t.length) = true :=
    exists_ok_of_any (by decide +kernel)
  obtain ⟨t, ht, hfits⟩ : ∃ t, once .minimal 1 = .ok t ∧ decide (t.length ≤ 5) = true :=
    exists_ok_of_any (by decide +kernel)
  rw [decide_eq_true_eq] at hlength hfits
  refine ⟨t, ht, hfits, ?_⟩
  refine (generate_first_fit entropy ⟨5, .simple, 0, true, true⟩).1 1 (.ok t) ?_ ?_ ?_
  · exact congrArg some ht
  · intro j hj r hr
    obtain rfl : j = 0 := by omega
    obtain rfl : once .simple 0 = r := Option.some.inj hr
    exact ⟨long, hlong, hlength⟩
  · rintro ⟨u, hu, hlong'⟩
    rw [← Except.ok.inj hu] at hlong'
    exact absurd hfits (Nat.not_le.2 hlong')

end SmlSynth
