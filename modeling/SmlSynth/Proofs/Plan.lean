import SmlSynth.Proofs.Forms

/-!
# How a node runs its parts

The draws of a node decide which of its parts run. Those then run one after another, from the
context that the draws leave, and the node's text is made of theirs.

* `Sampler.gate`: the decision of the depth gate.
* `Gen.children`: what stands directly in a node.
* `Gen.plan`, `Gen.finish`: the parts that a node runs, and the text it makes of theirs.
* `outcome_run`: a node yields what its plan does.
* `concat_fails_iff`: a row of samplers fails where the first of them does.
-/

namespace SmlSynth

variable {σ ρ α β : Type}

namespace Sampler

/-! ## Rows -/

/-- What fails in two steps fails in the first, or in the second after the first succeeds. -/
theorem bind_fails_iff {s : Sampler σ α} {f : α → Sampler σ β} {c : Context σ} {e : Fault} :
    ((s >>= f) c).1 = .error e ↔
      (s c).1 = .error e ∨ ∃ a, (s c).1 = .ok a ∧ (f a (s c).2).1 = .error e := by
  cases h : (s c).1 with
  | error e' => rw [bind_of_error h]; simp
  | ok a => rw [bind_of_ok h]; simp

theorem ite_bind {p : Prop} [Decidable p] (s t : Sampler σ α) (f : α → Sampler σ β) :
    ((if p then s else t) >>= f) = if p then s >>= f else t >>= f := by
  split <;> rfl

theorem draws_fail {P : α → Prop} {e : GenError} : Draws (fail e : Sampler σ α) P := by
  intro c a h; cases h

theorem concat_single (s : Sampler σ Text) : concat [s] = s := by simp [concat]

theorem concat_cons_of_ok {s : Sampler σ Text} {rest : List (Sampler σ Text)} {c : Context σ}
    {t u : Text} (h : (s c).1 = .ok t) (hrest : (concat rest (s c).2).1 = .ok u) :
    concat (s :: rest) c = (.ok (t ++ u), (concat rest (s c).2).2) := by
  show (s >>= fun t => concat rest >>= fun u => pure (t ++ u)) c = _
  rw [bind_of_ok h, bind_of_ok hrest]
  rfl

/-- **A row fails exactly where one of it does**, after those before it succeed. -/
theorem concat_fails_iff {parts : List (Sampler σ Text)} {c : Context σ} {e : Fault} :
    (concat parts c).1 = .error e ↔
      ∃ before s after t, parts = before ++ s :: after ∧ (concat before c).1 = .ok t ∧
        (s (concat before c).2).1 = .error e := by
  induction parts generalizing c with
  | nil =>
    constructor
    · intro h; cases h
    · rintro ⟨before, s, after, t, hparts, -⟩
      exact absurd hparts.symm (List.append_ne_nil_of_right_ne_nil _ (List.cons_ne_nil _ _))
  | cons first rest ih =>
    constructor
    · intro h
      unfold concat at h
      rcases bind_fails_iff.1 h with h | ⟨t, ht, h⟩
      · exact ⟨[], first, rest, [], rfl, rfl, h⟩
      -- putting the texts together does not fail, so the rest does
      rcases bind_fails_iff.1 h with h | ⟨u, -, h⟩
      · obtain ⟨before, s, after, u, hrest, hu, hs⟩ := ih.1 h
        have hbefore := concat_cons_of_ok ht hu
        refine ⟨first :: before, s, after, t ++ u, by rw [hrest]; rfl, ?_, ?_⟩
        · rw [hbefore]
        · rw [hbefore]; exact hs
      · cases h
    · rintro ⟨before, s, after, t, hparts, ht, hs⟩
      unfold concat
      cases before with
      | nil =>
        obtain ⟨rfl, -⟩ := List.cons.inj hparts
        exact bind_fails_iff.2 (.inl hs)
      | cons b before =>
        obtain ⟨rfl, hrest⟩ := List.cons.inj hparts
        unfold concat at ht
        obtain ⟨u, hu, ht'⟩ := of_bind_ok ht
        obtain ⟨v, hv, -⟩ := of_bind_ok ht'
        rw [concat_cons_of_ok hu hv] at hs
        exact bind_fails_iff.2 (.inr ⟨u, hu, bind_fails_iff.2 (.inl (ih.2
          ⟨before, s, after, v, hrest, hv, hs⟩))⟩)

/-- A repetition is a row of copies. -/
theorem repeated_eq_concat (s : Sampler σ Text) (n : Nat) :
    repeated n s = concat (List.replicate n s) := by
  induction n with
  | zero => rfl
  | succ n ih => unfold repeated; rw [ih]; rfl

end Sampler

/-- `n` items, with a separator between two of them. -/
def alternating (item sep : α) : Nat → List α
  | 0 => []
  | n + 1 => item :: (List.replicate n [sep, item]).flatten

theorem map_alternating (f : α → β) (item sep : α) (n : Nat) :
    (alternating item sep n).map f = alternating (f item) (f sep) n := by
  cases n with
  | zero => rfl
  | succ n => simp [alternating, List.map_flatten]

theorem mem_alternating {item sep x : α} {n : Nat} (h : x ∈ alternating item sep n) :
    x = item ∨ x = sep := by
  cases n with
  | zero => cases h
  | succ n =>
    rcases List.mem_cons.1 h with rfl | h
    · exact .inl rfl
    obtain ⟨pair, hpair, hx⟩ := List.mem_flatten.1 h
    rw [(List.mem_replicate.1 hpair).2] at hx
    simpa [or_comm] using hx

namespace Sampler

/-- A repetition of pairs is a row in which their first and second samplers take turns. -/
theorem repeated_pair_eq_concat (s sep : Sampler σ Text) (n : Nat) :
    repeated n (do let v ← sep; let t ← s; return v ++ t)
      = concat (List.replicate n [sep, s]).flatten := by
  induction n with
  | zero => rfl
  | succ n ih =>
    unfold repeated
    rw [ih]
    simp only [List.replicate_succ, List.flatten_cons, List.cons_append, List.nil_append, concat,
      bind_assoc, pure_bind, List.append_assoc]

/-- A repetition with separators is a row in which they alternate with its texts. -/
theorem separated_eq_concat (s sep : Sampler σ Text) (n : Nat) :
    separated n s sep = concat (alternating s sep n) := by
  cases n with
  | zero => rfl
  | succ n =>
    show (s >>= fun t => repeated n _ >>= fun u => pure (t ++ u)) = _
    rw [repeated_pair_eq_concat]
    rfl

variable [Source σ]

/-! ## Choices -/

/-- A uniform choice among samplers is one among what they are made from. -/
theorem anyOf_map (f : α → Sampler σ β) (items : List α) (e : GenError) :
    anyOf (items.map f) e = (anyOf (items.map pure) e >>= f) := by
  by_cases h : 0 < items.length
  · have hf : 0 < (items.map f).length := by simpa
    have hpure : 0 < (items.map (pure : α → Sampler σ α)).length := by simpa
    rw [anyOf_of_pos hf, anyOf_of_pos hpure, below_bind (by simp) h hf,
      below_bind (by simp) h hpure]
    simp
  · obtain rfl : items = [] := List.length_eq_zero_iff.1 (by omega)
    rfl

/-- The same for a choice by weight. -/
theorem byWeight_map (f : α → Sampler σ β) (items : List (Float × α)) :
    byWeight (items.map fun o => (o.1, f o.2))
      = (byWeight (items.map fun o => (o.1, pure o.2)) >>= f) := by
  have hw : ∀ {γ : Type} (h : α → γ), (items.map fun o => (o.1, h o.2)).map (·.1)
      = items.map (·.1) := fun h => by simp [Function.comp_def]
  by_cases hpos : 0 < items.length
  · by_cases htotal : 0 < Weights.total (items.map (·.1))
    · rw [byWeight_of_pos (by simpa) (by rwa [hw]), byWeight_of_pos (by simpa) (by rwa [hw])]
      simp [Function.comp_def]
    · unfold byWeight
      simp only [List.length_map, hpos, hw, htotal, ↓reduceDIte, ↓reduceIte]
      rfl
  · obtain rfl : items = [] := List.length_eq_zero_iff.1 (by omega)
    rfl

/-! ## The gate -/

/-- **The decision of the depth gate**: whether the recursive production runs. If so it runs a level
deeper. -/
def gate : Sampler σ Bool := fun c =>
  if c.atLimit then (.ok false, c)
  else if unitOfWord (Source.next c.source).1 < c.recursiveProbability then
    (.ok true, (unit c).2.descend)
  else (.ok false, (unit c).2)

theorem outcome_gated (terminal recursive : Sampler σ α) (c : Context σ) :
    (gated terminal recursive c).1
      = ((gate >>= fun deep => if deep then recursive else terminal) c).1 := by
  by_cases hc : c.atLimit = true
  · have hgate : gate c = (.ok false, c) := if_pos hc
    rw [gated_of_atLimit hc, bind_of_ok (congrArg Prod.fst hgate), hgate]
    rfl
  rw [gated_of_not_atLimit hc]
  by_cases hroll : unitOfWord (Source.next c.source).1 < c.recursiveProbability
  · have hgate : gate c = (.ok true, (unit c).2.descend) := by
      unfold gate; rw [if_neg hc, if_pos hroll]
    rw [if_pos hroll, bind_of_ok (congrArg Prod.fst hgate), hgate]
    rfl
  · have hgate : gate c = (.ok false, (unit c).2) := by
      unfold gate; rw [if_neg hc, if_neg hroll]
    rw [if_neg hroll, bind_of_ok (congrArg Prod.fst hgate), hgate]
    rfl

end Sampler

namespace Gen

open Sampler

/-! ## Plans -/

/-- **What stands directly in a node**, with the texts of `oneOf` as literals. -/
def children : Gen ρ → List (Gen ρ)
  | .literal _ | .ref _ => []
  | .oneOf items => items.map .literal
  | .seq parts => parts
  | .choice options => options
  | .weighted options => options.map (·.2)
  | .depthChoice terminal recursive => [terminal, recursive]
  | .depthChoiceAmong terminals recursives => terminals ++ recursives
  | .many inner | .many1 inner | .count _ inner | .optional inner => [inner]
  | .sepBy inner sep | .sepBy1 inner sep => [inner, sep]
  | .either left right => [left, right]
  | .between inner before after => [before, inner, after]
  | .map _ inner | .delayed inner => [inner]

/-- The text that a node makes of the texts of its parts. -/
def finish : Gen ρ → Text → Text
  | .literal text, _ => text
  | .map change _, t => change.apply t
  | _, t => t

variable [Source σ]

/-- One of several generators, all equally likely. -/
def pickOne (options : List (Gen ρ)) (whenEmpty : GenError) : Sampler σ (List (Gen ρ)) :=
  anyOf (options.map fun g => pure [g]) whenEmpty

/-- **The plan of a node**: its draws, which yield the parts that then run, in order. -/
def plan : Gen ρ → Sampler σ (List (Gen ρ))
  | .literal _ | .ref _ => return []
  | .oneOf items => pickOne (items.map .literal) .emptyChoice
  | .seq parts => return parts
  | .choice options => pickOne options .emptyChoice
  | .weighted options => byWeight (options.map fun o => (o.1, pure [o.2]))
  | .depthChoice terminal recursive => do if ← gate then return [recursive] else return [terminal]
  | .depthChoiceAmong terminals recursives => do
    if ← gate then pickOne recursives .noRecursives else pickOne terminals .noTerminals
  | .many inner => do return List.replicate (← repeatCount 0) inner
  | .many1 inner => do return List.replicate (← repeatCount 1) inner
  | .count n inner => if n = 0 then fail (.nonPositiveCount n) else return List.replicate n inner
  | .optional inner => do if ← coin then return [inner] else return []
  | .sepBy inner sep => do return alternating inner sep (← repeatCount 0)
  | .sepBy1 inner sep => do return alternating inner sep (← repeatCount 1)
  | .either left right => do
    let i ← below 2 Nat.two_pos
    if i = ⟨0, Nat.two_pos⟩ then return [left] else return [right]
  | .between inner before after => return [before, inner, after]
  | .map _ inner => return [inner]
  | .delayed inner =>
    match check inner with
    | .ok () => return [inner]
    | .error e => fail e

section Run

variable {call : ρ → Sampler σ Text}

theorem runAll_eq_map : ∀ gs : List (Gen ρ), runAll call gs = gs.map (run call)
  | [] => rfl
  | g :: gs => congrArg (run call g :: ·) (runAll_eq_map gs)

theorem runOptions_eq_map : ∀ gs : List (Float × Gen ρ),
    runOptions call gs = gs.map fun o => (o.1, run call o.2)
  | [] => rfl
  | (w, g) :: gs => congrArg ((w, run call g) :: ·) (runOptions_eq_map gs)

/-- The parts of a plan one after another. -/
def carryOut (call : ρ → Sampler σ Text) (ps : List (Gen ρ)) : Sampler σ Text :=
  concat (ps.map (run call))

theorem carryOut_single (g : Gen ρ) : carryOut call [g] = run call g := concat_single _

theorem anyOf_eq_pickOne (options : List (Gen ρ)) (e : GenError) :
    anyOf (options.map (run call)) e = (pickOne options e >>= carryOut call) := by
  unfold pickOne
  rw [anyOf_map (run call), anyOf_map (fun g => pure [g]), bind_assoc]
  simp only [pure_bind, carryOut_single]

/-- **A node yields what its plan does**: the parts that its draws lead to run one after another,
and it makes its text of theirs. -/
theorem outcome_run {g : Gen ρ} (hg : g.symbol? = none) (c : Context σ) :
    (g.run call c).1 = ((do return g.finish (← carryOut call (← g.plan))) c).1 := by
  cases g with
  | literal text => rfl
  | oneOf items =>
    have hitems : (items.map pure : List (Sampler σ Text))
        = (items.map .literal).map (run call) := by simp [run]
    simp only [run, hitems, anyOf_eq_pickOne, plan, finish, bind_pure]
  | seq parts => simp only [run, runAll_eq_map, plan, finish, pure_bind, bind_pure, carryOut]
  | choice options =>
    simp only [run, runAll_eq_map, anyOf_eq_pickOne, plan, finish, bind_pure]
  | weighted options =>
    simp only [run, runOptions_eq_map, plan, finish, bind_pure]
    rw [byWeight_map (run call), byWeight_map (fun g => pure [g]), bind_assoc]
    simp only [pure_bind, carryOut_single]
  | depthChoice terminal recursive =>
    simp only [run, plan, finish, bind_pure, bind_assoc, ite_bind, pure_bind, carryOut_single]
    exact outcome_gated _ _ c
  | depthChoiceAmong terminals recursives =>
    simp only [run, plan, finish, bind_pure, bind_assoc, ite_bind, runAll_eq_map, anyOf_eq_pickOne]
    exact outcome_gated _ _ c
  | many inner =>
    simp only [run, plan, finish, bind_pure, bind_assoc, pure_bind, carryOut, List.map_replicate,
      repeated_eq_concat]
  | many1 inner =>
    simp only [run, plan, finish, bind_pure, bind_assoc, pure_bind, carryOut, List.map_replicate,
      repeated_eq_concat]
  | count n inner =>
    simp only [run, plan, finish, bind_pure, ite_bind, pure_bind, carryOut, List.map_replicate,
      repeated_eq_concat]
    rfl
  | optional inner =>
    simp only [run, plan, finish, bind_pure, bind_assoc, ite_bind, pure_bind, carryOut_single]
    rfl
  | sepBy inner sep =>
    simp only [run, plan, finish, bind_pure, bind_assoc, pure_bind, carryOut, map_alternating,
      separated_eq_concat]
  | sepBy1 inner sep =>
    simp only [run, plan, finish, bind_pure, bind_assoc, pure_bind, carryOut, map_alternating,
      separated_eq_concat]
  | either left right =>
    simp only [run, plan, finish, bind_pure, bind_assoc, ite_bind, pure_bind, carryOut_single]
    rfl
  | between inner before after => simp only [run, plan, finish, pure_bind, bind_pure]; rfl
  | map change inner => simp only [run, plan, finish, pure_bind, carryOut_single]
  | delayed inner =>
    simp only [run, plan, finish, bind_pure]
    cases inner.check with
    | ok => simp only [pure_bind, carryOut_single]
    | error e => rfl
  | ref x => cases hg

end Run

/-! ## What is planned -/

theorem draws_pickOne {options : List (Gen ρ)} {e : GenError} :
    Draws (pickOne (σ := σ) options e) fun ps => ∀ p ∈ ps, p ∈ options := by
  intro c ps hps
  obtain ⟨s, hs, c', -, hs'⟩ := anyOf_ok hps
  obtain ⟨g, hg, rfl⟩ := List.mem_map.1 hs
  obtain rfl : [g] = ps := Except.ok.inj hs'
  intro p hp
  rw [List.mem_singleton.1 hp]
  exact hg

/-- **Only what stands in a node is planned.** -/
theorem draws_plan (g : Gen ρ) : Draws (g.plan (σ := σ)) fun ps => ∀ p ∈ ps, p ∈ g.children := by
  have hcopies : ∀ (inner : Gen ρ) n, ∀ p ∈ List.replicate n inner, p ∈ [inner] :=
    fun inner n p hp => List.mem_singleton.2 (List.mem_replicate.1 hp).2
  have hrow : ∀ (inner sep : Gen ρ) n, ∀ p ∈ alternating inner sep n, p ∈ [inner, sep] := by
    intro inner sep n p hp
    simpa using mem_alternating hp
  cases g with
  | literal text => exact draws_pure fun p hp => hp
  | oneOf items => exact draws_pickOne
  | seq parts => exact draws_pure fun p hp => hp
  | choice options => exact draws_pickOne
  | weighted options =>
    intro c ps hps
    obtain ⟨o, ho, c', -, ho'⟩ := byWeight_ok hps
    obtain ⟨o', ho'', rfl⟩ := List.mem_map.1 ho
    obtain rfl : [o'.2] = ps := Except.ok.inj ho'
    intro p hp
    rw [List.mem_singleton.1 hp]
    exact List.mem_map_of_mem ho''
  | depthChoice terminal recursive =>
    refine draws_after fun deep => draws_ite (draws_pure ?_) (draws_pure ?_)
    · simp [children]
    · simp [children]
  | depthChoiceAmong terminals recursives =>
    refine draws_after fun deep => draws_ite ?_ ?_
    · exact draws_pickOne.mono fun ps h p hp => List.mem_append_right _ (h p hp)
    · exact draws_pickOne.mono fun ps h p hp => List.mem_append_left _ (h p hp)
  | many inner => exact draws_after fun n => draws_pure (hcopies inner n)
  | many1 inner => exact draws_after fun n => draws_pure (hcopies inner n)
  | count n inner => exact draws_ite draws_fail (draws_pure (hcopies inner n))
  | optional inner =>
    refine draws_after fun b => draws_ite (draws_pure fun p hp => hp) (draws_pure fun p hp => ?_)
    cases hp
  | sepBy inner sep => exact draws_after fun n => draws_pure (hrow inner sep n)
  | sepBy1 inner sep => exact draws_after fun n => draws_pure (hrow inner sep n)
  | either left right =>
    refine draws_after fun i => draws_ite (draws_pure ?_) (draws_pure ?_)
    · simp [children]
    · simp [children]
  | between inner before after =>
    refine draws_pure ?_
    simp [children]
  | map change inner => exact draws_pure fun p hp => hp
  | delayed inner =>
    simp only [plan]
    cases inner.check with
    | ok => exact draws_pure fun p hp => hp
    | error e => exact draws_fail
  | ref x => exact draws_pure fun p hp => hp

end Gen

end SmlSynth
