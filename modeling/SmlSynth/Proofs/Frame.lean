import SmlSynth.Proofs.Sampler

/-!
# What a run leaves of its context

* `Context.KeptWithin`: the bounds, the patience and the depth are as before, and the greatest depth
  has not grown beyond a ceiling. `Context.Kept` is the case of the depth limit.
* `SteadyWithin`, `Steady`: a sampler that leaves every context so, whether it succeeds or fails.
* `Ceiling`: the ceilings that the depth gate respects.
* `steady_run`, `steady_call`: generators over steady symbols are steady, and so are the symbols of
  the grammar.
-/

namespace SmlSynth

variable {σ α β : Type}

/-- **The frame of a run** below a ceiling, which may depend on the bounds and the depth at the
start: what a context has in common with the one after a run. -/
structure Context.KeptWithin (top : Bounds → Nat → Nat) (c c' : Context σ) : Prop where
  bounds : c'.bounds = c.bounds
  patience : c'.patience = c.patience
  depth : c'.depth = c.depth
  peak : c'.peak ≤ max c.peak (top c.bounds c.depth)

/-- **The frame of a run** that stays within the depth limit. -/
abbrev Context.Kept (c c' : Context σ) : Prop := KeptWithin (fun b _ => b.maxDepth) c c'

/-- **A ceiling that the gate respects**: a step below the limit stays under it, and so does what is
under it from there. -/
structure Ceiling (top : Bounds → Nat → Nat) : Prop where
  step : ∀ {b d}, d < b.maxDepth → d + 1 ≤ top b d
  beyond : ∀ {b d}, d < b.maxDepth → top b (d + 1) ≤ top b d

theorem ceiling_limit : Ceiling fun b _ => b.maxDepth := ⟨id, fun _ => Nat.le_refl _⟩

/-- The levels that are left below the limit. -/
def Context.levels (c : Context σ) : Nat := c.bounds.maxDepth - c.depth

namespace Context

variable {top : Bounds → Nat → Nat}

theorem KeptWithin.refl (c : Context σ) : KeptWithin top c c :=
  ⟨rfl, rfl, rfl, Nat.le_max_left _ _⟩

theorem KeptWithin.trans {c₁ c₂ c₃ : Context σ} (h : KeptWithin top c₁ c₂)
    (h' : KeptWithin top c₂ c₃) : KeptWithin top c₁ c₃ := by
  refine ⟨h'.bounds.trans h.bounds, h'.patience.trans h.patience, h'.depth.trans h.depth, ?_⟩
  have h1 := h.peak
  have h2 := h'.peak
  -- the second run has the ceiling of the first
  rw [h.bounds, h.depth] at h2
  omega

theorem KeptWithin.levels {c c' : Context σ} (h : KeptWithin top c c') : c'.levels = c.levels := by
  unfold Context.levels; rw [h.bounds, h.depth]

theorem atLimit_iff {c : Context σ} : c.atLimit = true ↔ c.levels = 0 := by
  unfold Context.atLimit Context.levels
  rw [decide_eq_true_eq]; omega

theorem KeptWithin.atLimit {c c' : Context σ} (h : KeptWithin top c c') :
    c'.atLimit = c.atLimit := by
  unfold Context.atLimit; rw [h.bounds, h.depth]

/-- Below the limit a descent takes one of the levels that are left. -/
theorem levels_descend {c : Context σ} (h : ¬ c.atLimit = true) :
    c.levels = c.descend.levels + 1 := by
  rw [atLimit_iff] at h
  unfold Context.levels at h
  simp only [Context.levels, Context.descend]
  omega

end Context

namespace Sampler

/-- **A sampler that is steady below a ceiling** keeps the frame of every context. -/
def SteadyWithin (top : Bounds → Nat → Nat) (s : Sampler σ α) : Prop :=
  ∀ c, Context.KeptWithin top c (s c).2

/-- **A steady sampler** keeps the frame of every context within the depth limit. -/
abbrev Steady (s : Sampler σ α) : Prop := SteadyWithin (fun b _ => b.maxDepth) s

variable {top : Bounds → Nat → Nat}

theorem steadyWithin_mono {top top' : Bounds → Nat → Nat} (h : ∀ b d, top b d ≤ top' b d)
    {s : Sampler σ α} (hs : SteadyWithin top s) : SteadyWithin top' s := by
  intro c
  refine ⟨(hs c).bounds, (hs c).patience, (hs c).depth, ?_⟩
  have hpeak := (hs c).peak
  have htop := h c.bounds c.depth
  omega

theorem steady_bind {s : Sampler σ α} {f : α → Sampler σ β} (hs : SteadyWithin top s)
    (hf : ∀ a, SteadyWithin top (f a)) : SteadyWithin top (s >>= f) := by
  intro c
  cases h : (s c).1 with
  | ok a => rw [bind_of_ok h]; exact (hs c).trans (hf a _)
  | error e => rw [bind_of_error h]; exact hs c

/-- **The depth goes back after a deeper run**, so the frame is kept, below a ceiling that has room
for a level more. -/
theorem kept_deeper {top' : Bounds → Nat → Nat} {s : Sampler σ α} (hs : SteadyWithin top s)
    {c : Context σ} (hstep : c.depth + 1 ≤ top' c.bounds c.depth)
    (hbeyond : top c.bounds (c.depth + 1) ≤ top' c.bounds c.depth) :
    Context.KeptWithin top' c (deeper s c).2 := by
  have h := hs c.descend
  have hpeak : (s c.descend).2.peak
      ≤ max (max c.peak (c.depth + 1)) (top c.bounds (c.depth + 1)) := h.peak
  refine ⟨h.bounds, h.patience, ?_, ?_⟩
  · show (s c.descend).2.depth - 1 = c.depth
    rw [h.depth]; rfl
  · show (s c.descend).2.peak ≤ max c.peak (top' c.bounds c.depth)
    omega

theorem steady_redraw {draw : Sampler σ α} (h : SteadyWithin top draw) (accept : α → Bool) :
    ∀ tries, SteadyWithin top (redraw draw accept tries)
  | 0 => fun c => .refl c
  | tries + 1 => by
    refine steady_bind h fun a => ?_
    split
    · exact fun c => .refl c
    · exact steady_redraw h accept tries

theorem steady_redrawing {draw : Sampler σ α} (h : SteadyWithin top draw) (accept : α → Bool) :
    SteadyWithin top (redrawing draw accept) :=
  fun c => steady_redraw h accept (c.patience + 1) c

variable [Source σ]

theorem steady_word : SteadyWithin top (word (σ := σ)) :=
  fun _ => ⟨rfl, rfl, rfl, Nat.le_max_left _ _⟩

theorem steady_unit : SteadyWithin top (unit (σ := σ)) :=
  steady_bind steady_word fun _ c => .refl c

theorem steady_gated (htop : Ceiling top) {terminal recursive : Sampler σ α}
    (ht : SteadyWithin top terminal) (hr : SteadyWithin top recursive) :
    SteadyWithin top (gated terminal recursive) := by
  intro c
  by_cases hc : c.atLimit = true
  · rw [gated_of_atLimit hc]; exact ht c
  -- the level that is taken is within the limit
  have hlt : c.depth < c.bounds.maxDepth := by
    unfold Context.atLimit at hc; rw [decide_eq_true_eq] at hc; omega
  rw [gated_of_not_atLimit hc]
  have hu : Context.KeptWithin top c (unit c).2 := steady_unit c
  split
  · exact hu.trans (kept_deeper hr (htop.step hlt) (htop.beyond hlt))
  · exact hu.trans (ht _)

theorem steady_drawClosed : DrawClosed (σ := σ) fun s _ => SteadyWithin top s where
  pure _ c := .refl c
  bind := steady_bind
  word := steady_word
  below _ _ := steady_bind (steady_redrawing steady_word _) fun _ c => .refl c

/-- **Steadiness passes through generators**, below a ceiling that the gate respects. -/
theorem steady_genClosed (htop : Ceiling top) :
    GenClosed (σ := σ) fun s _ => SteadyWithin top s where
  toDrawClosed := steady_drawClosed
  repeatCount least c := steady_drawClosed.upTo least c.bounds.maxRepeat c
  gated := steady_gated htop

/-- **Steadiness is closed**, so it is shared by all that generators are made of. -/
theorem steady_closed : Closed (σ := σ) fun s _ => Steady s where
  toGenClosed := steady_genClosed ceiling_limit
  name := steady_bind (steady_redrawing steady_drawClosed.sampleShort _) fun _ c => .refl c
  symbolic := steady_redrawing steady_drawClosed.symbolicCandidate _

/-! ## Generators -/

section Generators

variable {ρ : Type} {call : ρ → Sampler σ Text}

theorem steady_run (h : ∀ x, Steady (call x)) (g : Gen ρ) : Steady (g.run call) :=
  steady_closed.run_self (fun _ _ _ _ c => .refl c) fun x _ => h x

theorem steady_runAll (h : ∀ x, Steady (call x)) (gs : List (Gen ρ)) :
    ∀ s ∈ Gen.runAll call gs, Steady s := by
  induction gs with
  | nil => intro s hs; cases hs
  | cons g gs ih =>
    intro s hs
    rcases List.mem_cons.1 hs with rfl | hs
    · exact steady_run h g
    · exact ih s hs

end Generators

/-- The symbols of the grammar keep the frame, whatever the fuel. -/
theorem steady_call (fuel : Nat) (x : Symbol Lexeme Rule) : Steady ((sml (σ := σ)).call fuel x) :=
  steady_closed.call (fun _ _ _ _ _ c => .refl c) (fun c => .refl c) fuel x

end Sampler

end SmlSynth
