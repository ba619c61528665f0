import SmlSynth.Proofs.Termination
import SmlSynth.Word

/-!
# Scopes

A program over a context opens scopes, in which it runs one level deeper, runs generators, and goes
on after faults. Scopes stand in one another, around generators and in their leaves, and a generator
opens scopes of its own at its gates. Each leaves the depth as it was, whether it succeeds or
fails, so the rest of the program is at the depth that it started from.

* `Scoped n m`: a program with at most `n` scopes in one another around generators, and at most `m`
  in the leaves of generators.
* `bound`: how deep such a program goes.
* `scoped_closed`: everything that samplers are made of is scoped.
* `scoped_steady`: a scoped program keeps the frame of every context.
* `depth_restored`: so do any number of them in turn, and no level on the way overflows.
-/

namespace SmlSynth

variable {σ τ ν ρ α β : Type}

namespace Sampler

/-! ## Programs of scopes and generators -/

/-- **A program of scopes and generators**, with at most `n` scopes in one another around
generators and at most `m` in the leaves of generators. -/
inductive Scoped [Source σ] : Nat → Nat → {α : Type} → Sampler σ α → Prop where
  /-- A value or a fault, which may depend on the context. -/
  | still {n m : Nat} {α : Type} (f : Context σ → Except Fault α) : Scoped n m fun c => (f c, c)
  /-- A word of the source. -/
  | word {n m : Nat} : Scoped n m word
  /-- What goes on with a value may go on after a fault too. -/
  | andThen {n m : Nat} {α β : Type} {s : Sampler σ α} {f : Except Fault α → Sampler σ β} :
    Scoped n m s → (∀ r, Scoped n m (f r)) → Scoped n m fun c => f (s c).1 (s c).2
  /-- A scope. -/
  | deeper {n m : Nat} {α : Type} {s : Sampler σ α} : Scoped n m s → Scoped (n + 1) m (deeper s)
  /-- A generator. The scopes around generators in its leaves are in its leaves too. -/
  | gen {n m k l : Nat} {ρ : Type} {call : ρ → Sampler σ Text} (g : Gen ρ)
    (leaves : ∀ x, Scoped k l (call x)) (hm : k + l ≤ m) : Scoped n m (g.run call)

/-- **How deep a program of scopes and generators goes**: its generators go up to the limit, from
the scopes around them, and the scopes in their leaves go beyond it. -/
def bound (n m : Nat) (b : Bounds) (d : Nat) : Nat := max b.maxDepth (d + n) + m

/-- The gate respects the bound, where no scopes are left around generators. -/
theorem ceiling_bound (m : Nat) : Ceiling (bound 0 m) where
  step h := by unfold bound; omega
  beyond h := by unfold bound; omega

variable [Source σ]

theorem scoped_steady {n m : Nat} {s : Sampler σ α} (h : Scoped n m s) :
    SteadyWithin (bound n m) s := by
  induction h with
  | still f => exact fun c => .refl c
  | word => exact steady_word
  | andThen _ _ ihs ihf => exact fun c => (ihs c).trans (ihf _ _)
  | deeper _ ih =>
    -- the scope has the level that the body lacks
    refine fun c => kept_deeper ih ?_ ?_ <;> unfold bound <;> omega
  | @gen n m k l ρ call g _ hm ih =>
    have hleaf : ∀ x, SteadyWithin (bound 0 (k + l)) (call x) := fun x =>
      steadyWithin_mono (fun b d => by unfold bound; omega) (ih x)
    have hrun : SteadyWithin (bound 0 (k + l)) (g.run call) :=
      (steady_genClosed (ceiling_bound _)).run_self (fun _ _ _ _ c => .refl c) fun x _ => hleaf x
    exact steadyWithin_mono (fun b d => by unfold bound; omega) hrun

/-! ## What is scoped -/

/-- What is bound goes on after values only. -/
def onward (f : α → Sampler σ β) : Except Fault α → Sampler σ β
  | .ok a => f a
  | .error e => throw e

omit [Source σ] in
theorem bind_eq_onward (s : Sampler σ α) (f : α → Sampler σ β) :
    (s >>= f) = fun c => onward f (s c).1 (s c).2 := by
  funext c
  cases h : (s c).1 with
  | ok a => exact bind_of_ok h
  | error e => exact bind_of_error h

theorem scoped_bind {n m : Nat} {s : Sampler σ α} {f : α → Sampler σ β} (hs : Scoped n m s)
    (hf : ∀ a, Scoped n m (f a)) : Scoped n m (s >>= f) := by
  rw [bind_eq_onward]
  refine .andThen hs fun r => ?_
  cases r with
  | ok a => exact hf a
  | error e => exact .still fun _ => .error e

theorem scoped_redraw {n m : Nat} {draw : Sampler σ α} (h : Scoped n m draw) (accept : α → Bool) :
    ∀ tries, Scoped n m (redraw draw accept tries)
  | 0 => .still fun _ => .error .outOfPatience
  | tries + 1 => by
    refine scoped_bind h fun a => ?_
    split
    · exact .still fun _ => .ok a
    · exact scoped_redraw h accept tries

theorem scoped_redrawing {n m : Nat} {draw : Sampler σ α} (h : Scoped n m draw)
    (accept : α → Bool) : Scoped n m (redrawing draw accept) :=
  scoped_bind (.still fun c => .ok c) fun c => scoped_redraw h accept (c.patience + 1)

theorem scoped_drawClosed (n m : Nat) : DrawClosed (σ := σ) fun s _ => Scoped n m s where
  pure a := .still fun _ => .ok a
  bind := scoped_bind
  word := .word
  below _ _ := scoped_bind (scoped_redrawing .word _) fun _ => .still fun _ => .ok _

/-- **Everything that samplers are made of is scoped.** -/
theorem scoped_closed (m : Nat) : Closed (σ := σ) fun s _ => Scoped 0 m s where
  toDrawClosed := scoped_drawClosed 0 m
  repeatCount least := scoped_bind (.still fun c => .ok c) fun c =>
    (scoped_drawClosed 0 m).upTo least c.bounds.maxRepeat
  gated {s _ t _} hs ht := by
    -- the gate is a generator whose leaves are the two productions
    have hleaves : ∀ recursive : Bool, Scoped 0 m (if recursive then t else s) := by
      intro recursive
      cases recursive
      · exact hs
      · exact ht
    have hgate : Scoped 0 m ((Gen.depthChoice (.ref false) (.ref true)).run
        fun recursive : Bool => if recursive then t else s) :=
      .gen _ hleaves (Nat.le_of_eq (Nat.zero_add m))
    exact hgate
  name := scoped_bind (scoped_redrawing (scoped_drawClosed 0 m).sampleShort _) fun _ =>
    .still fun _ => .ok _
  symbolic := scoped_redrawing (scoped_drawClosed 0 m).symbolicCandidate _

/-- The symbols of a grammar are scoped if its terminals are: the scopes around generators in a
terminal are in a leaf. -/
theorem scoped_call {G : Grammar σ τ ν} {k l : Nat} (hG : ∀ t, Scoped k l (G.sample t)) :
    ∀ (fuel : Nat) (x : Symbol τ ν), Scoped 0 (k + l) (G.call fuel x) := by
  intro fuel
  induction fuel with
  | zero =>
    intro x
    cases x with
    | terminal t => exact .gen (.ref t) hG (Nat.le_refl _)
    | rule r => exact .still fun _ => .error .outOfFuel
  | succ fuel ih =>
    intro x
    cases x with
    | terminal t => exact .gen (.ref t) hG (Nat.le_refl _)
    | rule r => exact .gen (.delayed (G.body r)) ih (Nat.le_of_eq (Nat.zero_add _))

/-! ## Programs in turn -/

/-- **The context after programs in turn**: each starts from what the one before it left, also when
that one failed. -/
def inTurn (runs : List (Sampler σ α)) (c : Context σ) : Context σ :=
  runs.foldl (fun c s => (s c).2) c

omit [Source σ] in
theorem kept_inTurn {top : Bounds → Nat → Nat} {runs : List (Sampler σ α)}
    (h : ∀ s ∈ runs, SteadyWithin top s) (c : Context σ) : c.KeptWithin top (inTurn runs c) := by
  induction runs generalizing c with
  | nil => exact .refl c
  | cons s rest ih =>
    have hs := h s (List.mem_cons_self ..)
    have hrest : ∀ t ∈ rest, SteadyWithin top t := fun t ht => h t (List.mem_cons_of_mem _ ht)
    exact (hs c).trans (ih hrest (s c).2)

/-- **Depth is restored on every way out.** Every tree over a grammar is scoped. After any scoped
programs in turn, however they ended, the depth and the bounds are as at the start, and so is what
the gate reads of them. If the start leaves room for the scopes, no level on the way overflows. -/
theorem depth_restored (G : Grammar σ τ ν) {k l : Nat} (hG : ∀ t, Scoped k l (G.sample t)) :
    (∀ (fuel n : Nat) (g : Gen (Symbol τ ν)), Scoped n (k + l) (g.run (G.call fuel))) ∧
    ∀ (n m : Nat) (runs : List (Sampler σ α)), (∀ s ∈ runs, Scoped n m s) → ∀ c : Context σ,
      (inTurn runs c).depth = c.depth ∧ (inTurn runs c).bounds = c.bounds ∧
      (inTurn runs c).atLimit = c.atLimit ∧
      (inTurn runs c).recursiveProbability = c.recursiveProbability ∧
      (bound n m c.bounds c.depth < wordCount → c.peak < wordCount →
        (inTurn runs c).peak < wordCount) := by
  refine ⟨fun fuel n g => .gen g (scoped_call hG fuel) (Nat.le_of_eq (Nat.zero_add _)), ?_⟩
  intro n m runs hruns c
  have hkept : c.KeptWithin (bound n m) (inTurn runs c) :=
    kept_inTurn (fun s hs => scoped_steady (hruns s hs)) c
  refine ⟨hkept.depth, hkept.bounds, hkept.atLimit, ?_, fun hroom hpeak => ?_⟩
  · unfold Context.recursiveProbability
    rw [hkept.atLimit, hkept.depth, hkept.bounds]
  · have := hkept.peak
    omega

/-- A start on the tape of zeros, three levels down. -/
def zeroStartDown : Context Tape := { zeroStart with depth := 3 }

/-- A row in two scopes that fails in the recursive production of a gate. -/
def failingRow : Sampler Tape Text :=
  deeper (deeper (Gen.run (sml.call 1)
    (.seq [.lit "x", .depthChoice (.lit "y") (.many1 (.count 0 (.lit "z")))])))

/-- A choice in a scope. -/
def choiceBelow : Sampler Tape Text :=
  deeper (Gen.run (sml.call 1) (.oneOf [['a'], ['b']]))

/-- The row fails three levels deeper, and the choice that follows succeeds. -/
theorem depth_restored_zero :
    (∀ t, Scoped 0 0 ((sml (σ := Tape)).sample t)) ∧
    (failingRow zeroStartDown).1 = .error (.illFormed (.nonPositiveCount 0)) ∧
    (failingRow zeroStartDown).2.peak = 6 ∧
    (choiceBelow (failingRow zeroStartDown).2).1 = .ok ['a'] ∧
    (inTurn [failingRow, choiceBelow] zeroStartDown).depth = 3 ∧
    (inTurn [failingRow, choiceBelow] zeroStartDown).peak < wordCount := by
  have hterminal : ∀ t, Scoped 0 0 ((sml (σ := Tape)).sample t) := (scoped_closed 0).lexeme
  obtain ⟨htree, hruns⟩ := depth_restored (α := Text) sml hterminal
  have hscoped : ∀ s ∈ [failingRow, choiceBelow], Scoped 2 0 s := by
    intro s hs
    simp only [List.mem_cons, List.not_mem_nil, or_false] at hs
    rcases hs with rfl | rfl
    · exact .deeper (.deeper (htree 1 0 _))
    · exact .deeper (htree 1 1 _)
  obtain ⟨hdepth, -, -, -, hpeak⟩ := hruns 2 0 _ hscoped zeroStartDown
  have hfails : (failingRow zeroStartDown).1 = .error (.illFormed (.nonPositiveCount 0)) := by rfl
  have hdeep : (failingRow zeroStartDown).2.peak = 6 := by decide +kernel
  have hgoes : (choiceBelow (failingRow zeroStartDown).2).1 = .ok ['a'] := by rfl
  exact ⟨hterminal, hfails, hdeep, hgoes, hdepth, hpeak (by decide) (by decide)⟩

end Sampler

end SmlSynth
