import SmlSynth.Proofs.Plan

/-!
# The segments of a run

A run writes a part of its text itself and takes the rest from the symbols of its generator. The
segments of the run keep these apart: its text is theirs, one after another.

* `Segment`, `Segment.join`: the segments, and the text that they make.
* `Gen.segments`: the sampler of a generator's segments, which takes the draws of its run.
* `Gen.run_eq_join`: a run yields the text of its segments.
* `Phrase.layout`: the segments of a phrase.
-/

namespace SmlSynth

variable {σ ρ α β : Type}

/-- **A segment of a run**, with its text. -/
inductive Segment (ρ : Type) where
  /-- It stands in the generator. -/
  | fixed (text : Text)
  /-- A symbol yielded it. -/
  | drawn (symbol : ρ) (text : Text)
  /-- A change that may do anything made it. -/
  | changed (text : Text)
deriving Repr, DecidableEq

namespace Segment

def text : Segment ρ → Text
  | fixed t | drawn _ t | changed t => t

/-- The text of segments one after another. -/
def join (ss : List (Segment ρ)) : Text := ss.flatMap text

@[simp] theorem join_nil : join ([] : List (Segment ρ)) = [] := rfl

@[simp] theorem join_cons (s : Segment ρ) (ss : List (Segment ρ)) :
    join (s :: ss) = s.text ++ join ss := rfl

@[simp] theorem join_append (ss ss' : List (Segment ρ)) :
    join (ss ++ ss') = join ss ++ join ss' := List.flatMap_append

/-- A text of the generator: one segment, or none if it is empty. -/
def ofText (t : Text) : List (Segment ρ) := if t.isEmpty then [] else [fixed t]

@[simp] theorem join_ofText (t : Text) : join (ofText t : List (Segment ρ)) = t := by
  cases t with
  | nil => rfl
  | cons c t => exact List.append_nil _

end Segment

open Segment

/-- The segments after a change. What the change adds itself is fixed. -/
def Change.segments : Change → List (Segment ρ) → List (Segment ρ)
  | enclose before after, ss => ofText before ++ ss ++ ofText after
  | padAfter c, ss => if (join ss).getLast? = some c then ss ++ [.fixed [' ']] else ss
  | other f, ss => [.changed (f (join ss))]

theorem Change.join_segments (f : Change) (ss : List (Segment ρ)) :
    join (f.segments ss) = f.apply (join ss) := by
  cases f with
  | enclose before after => simp [segments, apply]
  | padAfter c =>
    simp only [segments, apply]
    split
    · simp [Segment.text]
    · rfl
  | other f => exact List.append_nil _

namespace Sampler

/-- Lists one after another. -/
def chain : List (Sampler σ (List α)) → Sampler σ (List α)
  | [] => return []
  | s :: rest => do
    let xs ← s
    let ys ← chain rest
    return xs ++ ys

theorem chain_cons_of_ok {s : Sampler σ (List α)} {rest : List (Sampler σ (List α))}
    {c c' c'' : Context σ} {xs ys : List α} (hs : s c = (.ok xs, c'))
    (hrest : chain rest c' = (.ok ys, c'')) : chain (s :: rest) c = (.ok (xs ++ ys), c'') := by
  unfold chain
  rw [bind_of_ok (congrArg Prod.fst hs), hs, bind_of_ok (congrArg Prod.fst hrest), hrest]
  rfl

/-! ## Changed results

A change of what a combination yields is one of what its parts yield. -/

theorem map_chain_join (parts : List (Sampler σ (List (Segment ρ)))) :
    join <$> chain parts = concat (parts.map (join <$> ·)) := by
  induction parts with
  | nil => rfl
  | cons s rest ih =>
    unfold chain
    rw [List.map_cons, concat, ← ih]
    simp only [map_eq_pure_bind, bind_assoc, pure_bind, join_append]

theorem map_ite (f : α → β) (p : Prop) [Decidable p] (s t : Sampler σ α) :
    f <$> (if p then s else t) = if p then f <$> s else f <$> t := by
  split <;> rfl

theorem ok_of_toOption {x : Except Fault α} {a : α} (h : x.toOption = some a) : x = .ok a := by
  cases x with
  | ok b => exact congrArg Except.ok (Option.some.inj h)
  | error e => cases h

/-- The outcome of a changed result, and the context after it. -/
theorem map_run (f : α → β) (s : Sampler σ α) (c : Context σ) :
    (f <$> s) c = ((s c).1.map f, (s c).2) := by
  rw [map_eq_pure_bind]
  cases h : (s c).1 with
  | ok a => rw [bind_of_ok h]; rfl
  | error e => rw [bind_of_error h]; rfl

variable [Source σ]

theorem map_anyOf (f : α → β) (options : List (Sampler σ α)) (e : GenError) :
    f <$> anyOf options e = anyOf (options.map (f <$> ·)) e := by
  have hself := anyOf_map id options e
  rw [List.map_id] at hself
  rw [hself, anyOf_map (f <$> ·), map_bind]
  rfl

theorem map_byWeight (f : α → β) (options : List (Float × Sampler σ α)) :
    f <$> byWeight options = byWeight (options.map fun o => (o.1, f <$> o.2)) := by
  have hself := byWeight_map id options
  have hid : (options.map fun o => (o.1, id o.2)) = options := List.map_id options
  rw [hid] at hself
  rw [hself, byWeight_map (f <$> ·), map_bind]
  rfl

theorem map_gated (f : α → β) (terminal recursive : Sampler σ α) :
    f <$> gated terminal recursive = gated (f <$> terminal) (f <$> recursive) := by
  funext c
  by_cases hc : c.atLimit = true
  · rw [map_run, gated_of_atLimit hc, gated_of_atLimit hc, map_run]
  · rw [map_run, gated_of_not_atLimit hc, gated_of_not_atLimit hc]
    split
    · exact congrArg (fun r => (r.1, r.2.ascend)) (map_run f recursive _).symm
    · rw [map_run]

end Sampler

namespace Gen

open Sampler

variable [Source σ]

mutual

/-- **The sampler of a generator's segments**, given a sampler for each symbol. -/
def segments (call : ρ → Sampler σ Text) : Gen ρ → Sampler σ (List (Segment ρ))
  | .literal text => return ofText text
  | .oneOf items => anyOf (items.map fun t => pure (ofText t)) .emptyChoice
  | .seq parts => chain (segmentsAll call parts)
  | .choice options => anyOf (segmentsAll call options) .emptyChoice
  | .weighted options => byWeight (segmentsOptions call options)
  | .depthChoice terminal recursive => gated (segments call terminal) (segments call recursive)
  | .depthChoiceAmong terminals recursives =>
    gated (anyOf (segmentsAll call terminals) .noTerminals)
      (anyOf (segmentsAll call recursives) .noRecursives)
  | .many inner => do chain (List.replicate (← repeatCount 0) (segments call inner))
  | .many1 inner => do chain (List.replicate (← repeatCount 1) (segments call inner))
  | .count n inner =>
    if n = 0 then fail (.nonPositiveCount n) else chain (List.replicate n (segments call inner))
  | .optional inner => do if ← coin then segments call inner else return []
  | .sepBy inner sep => do
    chain (alternating (segments call inner) (segments call sep) (← repeatCount 0))
  | .sepBy1 inner sep => do
    chain (alternating (segments call inner) (segments call sep) (← repeatCount 1))
  | .either left right => do
    let i ← below 2 Nat.two_pos
    if i = ⟨0, Nat.two_pos⟩ then segments call left else segments call right
  | .between inner before after =>
    chain [segments call before, segments call inner, segments call after]
  | .map change inner => do return change.segments (← segments call inner)
  | .delayed inner =>
    match check inner with
    | .ok () => segments call inner
    | .error e => fail e
  | .ref symbol => do return [.drawn symbol (← call symbol)]

/-- The samplers of generators' segments. -/
def segmentsAll (call : ρ → Sampler σ Text) : List (Gen ρ) → List (Sampler σ (List (Segment ρ)))
  | [] => []
  | g :: gs => segments call g :: segmentsAll call gs

/-- The samplers of weighted options' segments. -/
def segmentsOptions (call : ρ → Sampler σ Text) :
    List (Float × Gen ρ) → List (Float × Sampler σ (List (Segment ρ)))
  | [] => []
  | (w, g) :: gs => (w, segments call g) :: segmentsOptions call gs

end

variable {call : ρ → Sampler σ Text}

mutual

/-- **A run yields the text of its segments**, and leaves the context that they do. -/
theorem run_eq_join : ∀ g : Gen ρ, g.run call = join <$> g.segments call
  | .literal text => by simp only [run, segments, map_pure, join_ofText]
  | .oneOf items => by
    simp only [run, segments, map_anyOf, List.map_map, Function.comp_def, map_pure, join_ofText]
  | .seq parts => by rw [run, segments, map_chain_join, runAll_eq_join parts]
  | .choice options => by rw [run, segments, map_anyOf, runAll_eq_join options]
  | .weighted options => by rw [run, segments, map_byWeight, runOptions_eq_join options]
  | .depthChoice terminal recursive => by
    rw [run, segments, map_gated, run_eq_join terminal, run_eq_join recursive]
  | .depthChoiceAmong terminals recursives => by
    rw [run, segments, map_gated, map_anyOf, map_anyOf, runAll_eq_join terminals,
      runAll_eq_join recursives]
  | .many inner => by
    simp only [run, segments, map_bind, map_chain_join, List.map_replicate, repeated_eq_concat,
      run_eq_join inner]
  | .many1 inner => by
    simp only [run, segments, map_bind, map_chain_join, List.map_replicate, repeated_eq_concat,
      run_eq_join inner]
  | .count n inner => by
    simp only [run, segments, map_ite, map_chain_join, List.map_replicate, repeated_eq_concat,
      run_eq_join inner]
    rfl
  | .optional inner => by
    simp only [run, segments, map_bind, map_ite, map_pure, join_nil, run_eq_join inner]
  | .sepBy inner sep => by
    simp only [run, segments, map_bind, map_chain_join, map_alternating, separated_eq_concat,
      run_eq_join inner, run_eq_join sep]
  | .sepBy1 inner sep => by
    simp only [run, segments, map_bind, map_chain_join, map_alternating, separated_eq_concat,
      run_eq_join inner, run_eq_join sep]
  | .either left right => by
    simp only [run, segments, map_bind, map_ite, run_eq_join left, run_eq_join right]
    rfl
  | .between inner before after => by
    rw [run, segments, map_chain_join, run_eq_join inner, run_eq_join before, run_eq_join after]
    rfl
  | .map change inner => by
    simp only [run, segments, map_eq_pure_bind, bind_assoc, pure_bind, Change.join_segments,
      run_eq_join inner]
  | .delayed inner => by
    rw [run, segments]
    cases inner.check with
    | ok => exact run_eq_join inner
    | error e => rfl
  | .ref symbol => by
    simp only [run, segments, map_eq_pure_bind, bind_assoc, pure_bind, join_cons, join_nil,
      Segment.text, List.append_nil, bind_pure]

theorem runAll_eq_join :
    ∀ gs : List (Gen ρ), runAll call gs = (segmentsAll call gs).map (join <$> ·)
  | [] => rfl
  | g :: gs => by rw [runAll, segmentsAll, List.map_cons, run_eq_join g, runAll_eq_join gs]

theorem runOptions_eq_join : ∀ gs : List (Float × Gen ρ),
    runOptions call gs = (segmentsOptions call gs).map fun o => (o.1, join <$> o.2)
  | [] => rfl
  | (w, g) :: gs => by
    rw [runOptions, segmentsOptions, List.map_cons, run_eq_join g, runOptions_eq_join gs]

end

theorem steady_segments (h : ∀ x, Steady (call x)) (g : Gen ρ) : Steady (g.segments call) := by
  intro c
  have hcontext : (g.run call c).2 = (g.segments call c).2 := by rw [run_eq_join, map_run]
  rw [← hcontext]
  exact steady_run h g c

/-- What runs to a text has segments that make it. -/
theorem exists_segments {g : Gen ρ} {c : Context σ} {t : Text} (h : (g.run call c).1 = .ok t) :
    ∃ ss, (g.segments call c).1 = .ok ss ∧ join ss = t := by
  rw [run_eq_join, map_run] at h
  cases hss : (g.segments call c).1 with
  | error e => rw [hss] at h; cases h
  | ok ss =>
    rw [hss] at h
    exact ⟨ss, rfl, Except.ok.inj h⟩

end Gen

namespace Phrase

variable [Source σ]

/-- **The segments of a phrase**: the texts that the phrase holds itself, and those of the lexemes
and rules that it refers to. -/
def layout (p : Phrase) : Sampler σ (List (Segment (Symbol Lexeme Rule))) := fun c =>
  p.segments (sml.call (fuelFor c)) c

/-- **A phrase yields the text of its segments.** -/
theorem exists_layout {p : Phrase} {c : Context σ} {t : Text} (h : (p.sample c).1 = .ok t) :
    ∃ ss, (p.layout c).1 = .ok ss ∧ join ss = t := Gen.exists_segments h

theorem sample_of_layout {p : Phrase} {c : Context σ} {ss : List (Segment (Symbol Lexeme Rule))}
    (h : (p.layout c).1 = .ok ss) : (p.sample c).1 = .ok (join ss) := by
  have hsegments : (p.segments (sml.call (fuelFor c)) c).1 = .ok ss := h
  unfold sample
  rw [Gen.run_eq_join, Sampler.map_run, hsegments]
  rfl

end Phrase

end SmlSynth
