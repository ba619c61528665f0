import SmlSynth.Proofs.Frame

/-!
# Fuel for circles of rules

Every circle of rules goes through the recursive production of a gate, which takes a level. Within
a level rules are entered in order of their rank, so a run never needs more fuel than it is given.

* `Rule.body_split`: every rule is a gate between its two productions.
* `Rule.rank`, `rank_terminal`: the terminal production of a rule refers to lower ranks only.
* `Agree`: two samplers do the same on contexts with few levels left, and have fuel enough.
* `agree_call`: so do a symbol's samplers for any two sufficient amounts of fuel.
* `sample_fuel`: more fuel than `fuelFor` makes no difference, and a phrase never runs out.
-/

namespace SmlSynth

/-! ## The order of rules -/

namespace Rule

/-- **The rank of a rule**: how many rules may be entered one inside the other below it, on one
level. Only declarations refer to other rules at the depth limit. -/
def rank : Rule → Nat
  | .dec => 1
  | _ => 0

/-- The terminal production of a rule. -/
def terminal : Rule → Phrase
  | .ty | .atTy => Phrase.simpleType
  | .pat | .atPat => Phrase.simplePat
  | .exp | .atExp | .boundExp => Phrase.simpleExp
  | .dec => Phrase.simpleDec

/-- The recursive production of a rule. -/
def recursive (r : Rule) : Phrase :=
  match r.body with
  | .depthChoice _ recursive => recursive
  | other => other

/-- **Every rule is a gate between its two productions.** -/
theorem body_split (r : Rule) : r.body = .depthChoice r.terminal r.recursive := by cases r <;> rfl

theorem rank_le_one (r : Rule) : r.rank ≤ 1 := by cases r <;> decide

/-- **A terminal production refers to rules of lower rank only.** -/
theorem rank_terminal {r r' : Rule} (h : .rule r' ∈ r.terminal.symbols) : r'.rank < r.rank := by
  have hall : ∀ x ∈ r.terminal.symbols,
      (match x with | .rule r' => decide (r'.rank < r.rank) | .terminal _ => true) = true := by
    cases r <;> decide +kernel
  exact of_decide_eq_true (hall _ h)

end Rule

namespace Sampler

variable {σ α β : Type} {d e : Nat} {s s' : Sampler σ α}

/-! ## Samplers that agree -/

/-- **Two samplers that agree** on contexts with at most `d` levels left: they do the same, and do
not run out of fuel. -/
structure Agree (d : Nat) (s s' : Sampler σ α) : Prop where
  steady : Steady s
  same : ∀ c, c.levels ≤ d → s' c = s c
  fueled : ∀ c, c.levels ≤ d → (s c).1 ≠ .error .outOfFuel

theorem Agree.mono (h : Agree d s s') (he : e ≤ d) : Agree e s s' :=
  ⟨h.steady, fun c hc => h.same c (by omega), fun c hc => h.fueled c (by omega)⟩

/-- A sampler that cannot run out of fuel agrees with itself. -/
theorem agree_self (hs : Steady s) (h : ∀ c, (s c).1 ≠ .error .outOfFuel) : Agree d s s :=
  ⟨hs, fun _ _ => rfl, fun c _ => h c⟩

theorem agree_fail (e : GenError) : Agree d (fail e : Sampler σ α) (fail e) :=
  agree_self (fun c => .refl c) fun _ h => by cases h

theorem agree_bind {f f' : α → Sampler σ β} (h : Agree d s s') (hf : ∀ a, Agree d (f a) (f' a)) :
    Agree d (s >>= f) (s' >>= f') := by
  have hstep : ∀ c, c.levels ≤ d →
      (s' >>= f') c = (s >>= f) c ∧ ((s >>= f) c).1 ≠ .error .outOfFuel := by
    intro c hc
    have hsame := h.same c hc
    -- the second step starts with as many levels left
    have hlevels : (s c).2.levels ≤ d := by rw [(h.steady c).levels]; exact hc
    cases hr : (s c).1 with
    | error e =>
      rw [bind_of_error hr, bind_of_error (hsame ▸ hr), hsame]
      refine ⟨rfl, fun he => h.fueled c hc ?_⟩
      obtain rfl : e = .outOfFuel := Except.error.inj he
      exact hr
    | ok a =>
      rw [bind_of_ok hr, bind_of_ok (hsame ▸ hr), hsame]
      exact ⟨(hf a).same _ hlevels, (hf a).fueled _ hlevels⟩
  exact ⟨steady_bind h.steady fun a => (hf a).steady, fun c hc => (hstep c hc).1,
    fun c hc => (hstep c hc).2⟩

theorem redraw_fueled {draw : Sampler σ α} (h : ∀ c, (draw c).1 ≠ .error .outOfFuel)
    (accept : α → Bool) (tries : Nat) (c : Context σ) :
    (redraw draw accept tries c).1 ≠ .error .outOfFuel := by
  induction tries generalizing c with
  | zero => intro he; cases he
  | succ tries ih =>
    unfold redraw
    cases hr : (draw c).1 with
    | error e =>
      rw [bind_of_error hr]
      intro he
      exact h c (hr.trans he)
    | ok a =>
      rw [bind_of_ok hr]
      split
      · intro he; cases he
      · exact ih _

theorem agree_redrawing {draw : Sampler σ α} (h : ∀ d, Agree d draw draw) (accept : α → Bool) :
    Agree d (redrawing draw accept) (redrawing draw accept) :=
  agree_self (steady_redrawing (h 0).steady accept) fun c =>
    redraw_fueled (fun c => (h c.levels).fueled c (Nat.le_refl _)) accept (c.patience + 1) c

variable [Source σ]

open Context

/-- **The gate**: the recursive productions need to agree on fewer levels only. -/
theorem agree_gated {t t' : Sampler σ α} (h : Agree d s s') (ht : Steady t)
    (h' : ∀ e < d, Agree e t t') : Agree d (gated s t) (gated s' t') := by
  have hstep : ∀ c, c.levels ≤ d →
      gated s' t' c = gated s t c ∧ (gated s t c).1 ≠ .error .outOfFuel := by
    intro c hc
    by_cases hlim : c.atLimit = true
    · rw [gated_of_atLimit hlim, gated_of_atLimit hlim]
      exact ⟨h.same c hc, h.fueled c hc⟩
    rw [gated_of_not_atLimit hlim, gated_of_not_atLimit hlim]
    have hu : c.Kept (unit c).2 := steady_unit c
    split
    · -- the descent takes a level
      have hlevels : (unit c).2.descend.levels < d := by
        have hbelow : ¬ (unit c).2.atLimit = true := by rw [hu.atLimit]; exact hlim
        have hdescend := levels_descend hbelow
        rw [hu.levels] at hdescend
        omega
      have hsame := (h' _ hlevels).same _ (Nat.le_refl _)
      refine ⟨?_, (h' _ hlevels).fueled _ (Nat.le_refl _)⟩
      unfold deeper
      rw [hsame]
    · have hlevels : (unit c).2.levels ≤ d := by rw [hu.levels]; exact hc
      exact ⟨h.same _ hlevels, h.fueled _ hlevels⟩
  exact ⟨steady_gated ceiling_limit h.steady ht, fun c hc => (hstep c hc).1, fun c hc => (hstep c hc).2⟩

theorem agree_drawClosed (d : Nat) : DrawClosed (σ := σ) (Agree d) where
  pure _ := agree_self (fun c => .refl c) fun _ h => by cases h
  bind := agree_bind
  word := agree_self steady_word fun _ h => by cases h
  below n hn := by
    have hword : ∀ d, Agree d (word (σ := σ)) word :=
      fun _ => agree_self steady_word fun _ h => by cases h
    exact agree_bind (agree_redrawing hword _) fun _ =>
      agree_self (fun c => .refl c) fun _ h => by cases h

/-- **Agreement is closed.** -/
theorem agree_closed (d : Nat) : Closed (σ := σ) (Agree d) where
  toDrawClosed := agree_drawClosed d
  repeatCount least := by
    refine agree_self (steady_closed.repeatCount least) fun c => ?_
    have h := (agree_drawClosed (σ := σ) c.levels).upTo least c.bounds.maxRepeat
    exact h.fueled c (Nat.le_refl _)
  gated h h' := agree_gated h h'.steady fun _ he => h'.mono (Nat.le_of_lt he)
  name := agree_bind (agree_redrawing (fun d => (agree_drawClosed d).sampleShort) _) fun _ =>
    agree_self (fun c => .refl c) fun _ h => by cases h
  symbolic := agree_redrawing (fun d => (agree_drawClosed d).symbolicCandidate) _

/-! ## Enough fuel -/

/-- **The fuel that a symbol needs** with `d` levels left: two rules for each level below, and the
rules that are entered on this one. -/
def need (d : Nat) : Symbol Lexeme Rule → Nat
  | .terminal _ => 0
  | .rule r => 2 * d + r.rank + 1

theorem need_le (d : Nat) (x : Symbol Lexeme Rule) : need d x ≤ 2 * d + 2 := by
  cases x with
  | terminal l => exact Nat.zero_le _
  | rule r =>
    have hrank := r.rank_le_one
    show 2 * d + r.rank + 1 ≤ _
    omega

/-- **Sufficient amounts of fuel agree.** The induction is on the need: what a terminal production
refers to needs less, since its rank is lower, and everything needs less with a level less. -/
theorem agree_call (d : Nat) (x : Symbol Lexeme Rule) {fuel fuel' : Nat} (h : need d x ≤ fuel)
    (h' : need d x ≤ fuel') :
    Agree d ((sml (σ := σ)).call fuel x) ((sml (σ := σ)).call fuel' x) := by
  induction hn : need d x using Nat.strongRecOn generalizing d x fuel fuel' with
  | _ n ih =>
    cases x with
    | terminal l =>
      have hl := (agree_closed (σ := σ) d).lexeme l
      cases fuel <;> cases fuel' <;> exact hl
    | rule r =>
      have hneed : need d (.rule r) = 2 * d + r.rank + 1 := rfl
      -- the rule itself takes one
      obtain ⟨fuel, rfl⟩ : ∃ m, fuel = m + 1 := ⟨fuel - 1, by omega⟩
      obtain ⟨fuel', rfl⟩ : ∃ m, fuel' = m + 1 := ⟨fuel' - 1, by omega⟩
      have hterminal : Agree d (r.terminal.run ((sml (σ := σ)).call fuel))
          (r.terminal.run ((sml (σ := σ)).call fuel')) := by
        refine (agree_closed d).run_symbols agree_fail r.terminal fun x hx => ?_
        -- on the same level the rank falls
        have hless : need d x < need d (.rule r) := by
          cases x with
          | terminal l => rw [hneed]; exact Nat.succ_pos _
          | rule r' =>
            have hrank := Rule.rank_terminal hx
            show 2 * d + r'.rank + 1 < 2 * d + r.rank + 1
            omega
        exact ih _ (hn ▸ hless) d x (by omega) (by omega) rfl
      have hrecursive : ∀ e < d, Agree e (r.recursive.run ((sml (σ := σ)).call fuel))
          (r.recursive.run ((sml (σ := σ)).call fuel')) := by
        intro e he
        refine (agree_closed e).run_symbols agree_fail r.recursive fun x _ => ?_
        -- a level less is worth two rules, more than any rank
        have hle := need_le e x
        exact ih _ (by omega) e x (by omega) (by omega) rfl
      show Agree d ((Gen.delayed r.body).run ((sml (σ := σ)).call fuel))
        ((Gen.delayed r.body).run ((sml (σ := σ)).call fuel'))
      rw [r.body_split]
      simp only [Gen.run]
      split
      · exact agree_gated hterminal (steady_run (steady_call fuel) r.recursive) hrecursive
      · exact agree_fail _

/-- **More fuel makes no difference**, and no phrase runs out of it. -/
theorem sample_fuel (p : Phrase) (c : Context σ) {fuel : Nat} (h : fuelFor c ≤ fuel) :
    p.run (sml.call fuel) c = p.sample c ∧ (p.sample c).1 ≠ .error .outOfFuel := by
  have hneed : ∀ x, need c.levels x ≤ fuelFor c := fun x => need_le c.levels x
  have hagree : Agree c.levels (p.run ((sml (σ := σ)).call (fuelFor c)))
      (p.run ((sml (σ := σ)).call fuel)) :=
    (agree_closed c.levels).run_symbols agree_fail p fun x _ =>
      agree_call c.levels x (hneed x) (Nat.le_trans (hneed x) h)
  exact ⟨hagree.same c (Nat.le_refl _), hagree.fueled c (Nat.le_refl _)⟩

end Sampler

end SmlSynth
