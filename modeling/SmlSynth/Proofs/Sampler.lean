import Mathlib.Data.List.Forall2
import SmlSynth.Grammar.Sml

/-!
# What all samplers have in common

Samplers are made of few things: values, faults, words of the source, the redraw loops, the
bound on repetitions and the depth gate, one after another. A relation that these have to
themselves, and that passes to what is made of related samplers, relates two runs of a generator
whenever it relates what they take for its symbols. A property is the case of a relation that
does not look at the second sampler.

* `bind_of_ok`, `bind_of_error`, `of_bind_ok`: what one sampler after another does.
* `DrawClosed`: relations for values, words and draws below a number.
* `GenClosed`: relations for the bound on repetitions and the gate too.
* `Closed`: relations for the other redraw loops as well.
* `Gen.parts`, `Gen.ownFaults`: what stands in a generator, and the faults of each node.
* `GenClosed.run`, `Closed.lexeme`, `Closed.call`: such a relation holds of the runs of a generator
  if it holds of its symbols and faults, of every lexeme, and of every symbol of the grammar.
-/

namespace SmlSynth.Sampler

variable {σ α β : Type}

/-! ## One sampler after another -/

theorem bind_of_ok {s : Sampler σ α} {f : α → Sampler σ β} {c : Context σ} {a : α}
    (h : (s c).1 = .ok a) : (s >>= f) c = f a (s c).2 := by
  have hs : s c = (.ok a, (s c).2) := Prod.ext h rfl
  simp only [bind, ExceptT.bind, ExceptT.mk, StateT.bind]
  rw [hs]
  rfl

theorem bind_of_error {s : Sampler σ α} {f : α → Sampler σ β} {c : Context σ} {e : Fault}
    (h : (s c).1 = .error e) : (s >>= f) c = (.error e, (s c).2) := by
  have hs : s c = (.error e, (s c).2) := Prod.ext h rfl
  simp only [bind, ExceptT.bind, ExceptT.mk, StateT.bind]
  rw [hs]
  rfl

/-- What succeeds in two steps succeeds in each. -/
theorem of_bind_ok {s : Sampler σ α} {f : α → Sampler σ β} {c : Context σ} {b : β}
    (h : ((s >>= f) c).1 = .ok b) : ∃ a, (s c).1 = .ok a ∧ (f a (s c).2).1 = .ok b := by
  cases hs : (s c).1 with
  | error e => rw [bind_of_error hs] at h; cases h
  | ok a => rw [bind_of_ok hs] at h; exact ⟨a, rfl, h⟩

theorem get_bind (f : Context σ → Sampler σ α) (c : Context σ) : (get >>= f) c = f c c := rfl

/-- A candidate that is accepted at once leaves the rest of the patience. -/
theorem redrawing_of_accept {draw : Sampler σ α} {accept : α → Bool} {c : Context σ} {a : α}
    (h : (draw c).1 = .ok a) (ha : accept a = true) :
    redrawing draw accept c = (.ok a, (draw c).2) := by
  show redraw draw accept (c.patience + 1) c = _
  unfold redraw
  rw [bind_of_ok h, if_pos ha]
  rfl

variable [Source σ]

/-- A double takes one word, and no such draw fails. -/
theorem unit_bind (f : Float → Sampler σ α) (c : Context σ) :
    (unit >>= f) c = f (unitOfWord (Source.next c.source).1) (unit c).2 := rfl

theorem gated_of_atLimit {c : Context σ} (h : c.atLimit = true) (terminal recursive : Sampler σ α) :
    gated terminal recursive c = terminal c := by
  unfold gated; rw [get_bind, if_pos h]

/-- Below the limit the next word decides which production runs. -/
theorem gated_of_not_atLimit {c : Context σ} (h : ¬ c.atLimit = true)
    (terminal recursive : Sampler σ α) :
    gated terminal recursive c =
      if unitOfWord (Source.next c.source).1 < c.recursiveProbability then
        deeper recursive (unit c).2
      else terminal (unit c).2 := by
  unfold gated
  rw [get_bind, if_neg h, unit_bind]
  split <;> rfl

/-- A uniform choice draws a position and runs what stands there. -/
theorem anyOf_of_pos {options : List (Sampler σ α)} (h : 0 < options.length) (e : GenError) :
    anyOf options e = (below options.length h >>= fun i => options[i]) := by
  simp only [anyOf, dif_pos h, element, bind_assoc, pure_bind]

theorem below_bind {n m : Nat} (h : n = m) (hn : 0 < n) (hm : 0 < m) (f : Fin m → Sampler σ α) :
    (below m hm >>= f) = (below n hn >>= fun i => f (i.cast h)) := by
  subst h; rfl

/-- A weighted choice draws a double and runs what stands at the position it selects. -/
theorem byWeight_of_pos {options : List (Float × Sampler σ α)} (h : 0 < options.length)
    (htotal : 0 < Weights.total (options.map (·.1))) :
    byWeight options = (unit >>= fun roll =>
      (options.get ⟨Weights.select (options.map (·.1)) (roll * Weights.total (options.map (·.1))), by
        have hw : 0 < (options.map (·.1)).length := by simpa
        simpa using Weights.select_lt_length _ hw⟩).2) := by
  unfold byWeight; rw [dif_pos h]; exact if_pos htotal

/-! ## Closed relations -/

/-- **A relation that plain draws have** to themselves and that passes to one sampler after
another. -/
structure DrawClosed (Φ : ∀ {α : Type}, Sampler σ α → Sampler σ α → Prop) : Prop where
  pure : ∀ {α : Type} (a : α), Φ (pure a) (pure a)
  bind : ∀ {α β : Type} {s s' : Sampler σ α} {f f' : α → Sampler σ β}, Φ s s' →
    (∀ a, Φ (f a) (f' a)) → Φ (s >>= f) (s' >>= f')
  word : Φ word word
  below : ∀ (n : Nat) (h : 0 < n), Φ (below n h) (below n h)

/-- **A relation that the nodes of generators pass on** from what stands in them, but for faults. -/
structure GenClosed (Φ : ∀ {α : Type}, Sampler σ α → Sampler σ α → Prop) : Prop
    extends DrawClosed Φ where
  repeatCount : ∀ least : Nat, Φ (repeatCount least) (repeatCount least)
  gated : ∀ {s s' t t' : Sampler σ Text}, Φ s s' → Φ t t' → Φ (gated s t) (gated s' t')

/-- **A relation that everything samplers are made of has** to itself, but for faults, and that
passes to what is made of related samplers. The redraw loops for words are taken as wholes. -/
structure Closed (Φ : ∀ {α : Type}, Sampler σ α → Sampler σ α → Prop) : Prop
    extends GenClosed Φ where
  name : Φ Lexeme.sampleName Lexeme.sampleName
  symbolic : Φ Lexeme.sampleSymbolic Lexeme.sampleSymbolic

/-- **A probability that is a number**, so that a draw with it does not fail. -/
def Proper (p : Float) : Prop :=
  let q := if p < 0.0 then 0.0 else if 1.0 < p then 1.0 else p
  (q == 1.0) = true ∨ q < 1.0

instance (p : Float) : Decidable (Proper p) := inferInstanceAs (Decidable (_ ∨ _))

theorem proper_half : Proper 0.5 := by decide +kernel

variable {Φ : ∀ {α : Type}, Sampler σ α → Sampler σ α → Prop}

namespace DrawClosed

/-! ### Draws -/

theorem unit (hΦ : DrawClosed Φ) : Φ (unit (σ := σ)) unit := hΦ.bind hΦ.word fun _ => hΦ.pure _

theorem upTo (hΦ : DrawClosed Φ) (low high : Nat) : Φ (upTo (σ := σ) low high) (upTo low high) := by
  unfold Sampler.upTo
  split
  · exact hΦ.bind (hΦ.below _ _) fun _ => hΦ.pure _
  · exact hΦ.pure _

theorem chance (hΦ : DrawClosed Φ) {p : Float} (hp : Proper p) :
    Φ (chance (σ := σ) p) (chance p) := by
  unfold Proper at hp
  unfold Sampler.chance
  dsimp only at hp ⊢
  -- whatever the probability is after it is brought into the unit interval
  generalize (if p < 0.0 then 0.0 else if 1.0 < p then 1.0 else p) = q at hp ⊢
  split
  · exact hΦ.pure _
  · rename_i hne
    rw [if_pos (hp.resolve_left hne)]
    exact hΦ.bind hΦ.word fun _ => hΦ.pure _

theorem coin (hΦ : DrawClosed Φ) : Φ (coin (σ := σ)) coin := hΦ.chance proper_half

theorem element (hΦ : DrawClosed Φ) (items : List α) (h : 0 < items.length) :
    Φ (element (σ := σ) items h) (element items h) :=
  hΦ.bind (hΦ.below _ _) fun _ => hΦ.pure _

theorem times (hΦ : DrawClosed Φ) {draw draw' : Sampler σ α} (h : Φ draw draw') :
    ∀ n, Φ (times n draw) (times n draw')
  | 0 => hΦ.pure _
  | n + 1 => hΦ.bind h fun _ => hΦ.bind (times hΦ h n) fun _ => hΦ.pure _

/-! ### Combinations -/

theorem concat (hΦ : DrawClosed Φ) {parts parts' : List (Sampler σ Text)}
    (h : List.Forall₂ Φ parts parts') : Φ (concat parts) (concat parts') := by
  induction h with
  | nil => exact hΦ.pure _
  | cons hs _ ih => exact hΦ.bind hs fun _ => hΦ.bind ih fun _ => hΦ.pure _

theorem anyOf (hΦ : DrawClosed Φ) {options options' : List (Sampler σ α)}
    (h : List.Forall₂ Φ options options') {whenEmpty : GenError}
    (hempty : options = [] → Φ (fail whenEmpty : Sampler σ α) (fail whenEmpty)) :
    Φ (anyOf options whenEmpty) (anyOf options' whenEmpty) := by
  have hlen := h.length_eq
  by_cases hpos : 0 < options.length
  · have hpos' : 0 < options'.length := hlen ▸ hpos
    -- both draw below the same number, and the same position is taken
    rw [anyOf_of_pos hpos, anyOf_of_pos hpos', below_bind hlen hpos hpos']
    exact hΦ.bind (hΦ.below _ _) fun i => h.get i.isLt (hlen ▸ i.isLt)
  · have hpos' : ¬ 0 < options'.length := hlen ▸ hpos
    unfold Sampler.anyOf
    rw [dif_neg hpos, dif_neg hpos']
    exact hempty (List.length_eq_zero_iff.1 (by omega))

theorem byWeight (hΦ : DrawClosed Φ) {options options' : List (Float × Sampler σ α)}
    (hw : options.map (·.1) = options'.map (·.1))
    (h : List.Forall₂ (fun o o' => Φ o.2 o'.2) options options')
    (hempty : options = [] → Φ (fail .emptyOptions : Sampler σ α) (fail .emptyOptions))
    (hweight : ∀ total, total = Weights.total (options.map (·.1)) → options ≠ [] → ¬ 0 < total →
      Φ (fail (.nonPositiveWeight total) : Sampler σ α) (fail (.nonPositiveWeight total))) :
    Φ (byWeight options) (byWeight options') := by
  have hlen := h.length_eq
  by_cases hpos : 0 < options.length
  · have hpos' : 0 < options'.length := hlen ▸ hpos
    by_cases htotal : 0 < Weights.total (options.map (·.1))
    · have htotal' : 0 < Weights.total (options'.map (·.1)) := hw ▸ htotal
      -- the same weights send the same roll to the same position
      rw [byWeight_of_pos hpos htotal, byWeight_of_pos hpos' htotal']
      refine hΦ.bind hΦ.unit fun roll => ?_
      simp only [← hw]
      exact h.get _ _
    · have htotal' : ¬ 0 < Weights.total (options'.map (·.1)) := hw ▸ htotal
      unfold Sampler.byWeight
      rw [dif_pos hpos, dif_pos hpos']
      dsimp only
      rw [if_neg htotal, if_neg htotal', ← hw]
      exact hweight _ rfl (List.length_pos_iff.1 hpos) htotal
  · have hpos' : ¬ 0 < options'.length := hlen ▸ hpos
    unfold Sampler.byWeight
    rw [dif_neg hpos, dif_neg hpos']
    exact hempty (List.length_eq_zero_iff.1 (by omega))

theorem repeated (hΦ : DrawClosed Φ) {s s' : Sampler σ Text} (h : Φ s s') :
    ∀ n, Φ (repeated n s) (repeated n s')
  | 0 => hΦ.pure _
  | n + 1 => hΦ.bind h fun _ => hΦ.bind (repeated hΦ h n) fun _ => hΦ.pure _

theorem separated (hΦ : DrawClosed Φ) {s s' sep sep' : Sampler σ Text} (h : Φ s s')
    (hsep : Φ sep sep') : ∀ n, Φ (separated n s sep) (separated n s' sep')
  | 0 => hΦ.pure _
  | n + 1 => by
    -- what is repeated is a separator with the text after it
    have hpair : Φ (do let v ← sep; let t ← s; return v ++ t)
        (do let v ← sep'; let t ← s'; return v ++ t) :=
      hΦ.bind hsep fun _ => hΦ.bind h fun _ => hΦ.pure _
    exact hΦ.bind h fun _ => hΦ.bind (hΦ.repeated hpair n) fun _ => hΦ.pure _

/-! ### Parts of lexemes -/

theorem letter (hΦ : DrawClosed Φ) : Φ (letter (σ := σ)) letter := by
  refine hΦ.bind hΦ.coin fun b => ?_
  split
  · exact hΦ.element _ _
  · exact hΦ.element _ _

theorem identifierChar (hΦ : DrawClosed Φ) : Φ (identifierChar (σ := σ)) identifierChar := by
  refine hΦ.bind hΦ.unit fun roll => ?_
  split
  · exact hΦ.letter
  · split
    · exact hΦ.element _ _
    · split
      · exact hΦ.pure _
      · exact hΦ.pure _

theorem naturalDigits (hΦ : DrawClosed Φ) (n : Nat) :
    Φ (naturalDigits (σ := σ) n) (naturalDigits n) := by
  unfold Sampler.naturalDigits
  split
  · exact hΦ.bind (hΦ.element _ _) fun _ => hΦ.pure _
  · refine hΦ.bind (hΦ.element _ _) fun _ => ?_
    exact hΦ.bind (hΦ.times (hΦ.element _ _) _) fun _ => hΦ.pure _

theorem sampleIdentifier (hΦ : DrawClosed Φ) {first : Sampler σ Char} (hfirst : Φ first first)
    (rest : Nat) (h : 0 < rest) :
    Φ (Lexeme.sampleIdentifier first rest h) (Lexeme.sampleIdentifier first rest h) := by
  refine hΦ.bind hfirst fun c => hΦ.bind (hΦ.below _ _) fun n => ?_
  exact hΦ.bind (hΦ.times hΦ.identifierChar _) fun _ => hΦ.pure _

theorem sampleShort (hΦ : DrawClosed Φ) : Φ (Lexeme.sampleShort (σ := σ)) Lexeme.sampleShort :=
  hΦ.sampleIdentifier (hΦ.element lowerLetters (by decide)) 3 (by decide)

/-- The candidates of the redraw loop for symbolic identifiers. -/
theorem symbolicCandidate (hΦ : DrawClosed Φ) :
    Φ (do Sampler.times (← Sampler.upTo 1 3) (symbolicChar (σ := σ)))
      (do Sampler.times (← Sampler.upTo 1 3) symbolicChar) :=
  hΦ.bind (hΦ.upTo 1 3) fun n => hΦ.times (hΦ.element _ _) n

theorem sampleNegative (hΦ : DrawClosed Φ) :
    Φ (Lexeme.sampleNegative (σ := σ)) Lexeme.sampleNegative :=
  hΦ.bind (hΦ.below _ _) fun _ => hΦ.pure _

theorem sampleFraction (hΦ : DrawClosed Φ) :
    Φ (Lexeme.sampleFraction (σ := σ)) Lexeme.sampleFraction :=
  hΦ.bind (hΦ.upTo _ _) fun _ => hΦ.bind (hΦ.times (hΦ.element _ _) _) fun _ => hΦ.pure _

theorem sampleExponent (hΦ : DrawClosed Φ) :
    Φ (Lexeme.sampleExponent (σ := σ)) Lexeme.sampleExponent :=
  hΦ.bind hΦ.coin fun _ => hΦ.bind hΦ.coin fun _ => hΦ.bind (hΦ.upTo _ _) fun _ =>
    hΦ.bind (hΦ.times (hΦ.element _ _) _) fun _ => hΦ.pure _

theorem samplePart (hΦ : DrawClosed Φ) (wanted : Bool) {part : Sampler σ Text} (h : Φ part part) :
    Φ (Lexeme.samplePart wanted part) (Lexeme.samplePart wanted part) := by
  unfold Lexeme.samplePart
  split
  · exact h
  · exact hΦ.pure _

theorem sampleReal (hΦ : DrawClosed Φ) : Φ (Lexeme.sampleReal (σ := σ)) Lexeme.sampleReal :=
  hΦ.bind hΦ.sampleNegative fun _ => hΦ.bind (hΦ.upTo _ _) fun _ =>
    hΦ.bind (hΦ.naturalDigits _) fun _ => hΦ.bind hΦ.coin fun _ =>
      hΦ.bind hΦ.coin fun _ => hΦ.bind (hΦ.samplePart _ hΦ.sampleFraction) fun _ =>
        hΦ.bind (hΦ.samplePart _ hΦ.sampleExponent) fun _ => hΦ.pure _

theorem sampleEscape (hΦ : DrawClosed Φ) :
    Φ (Literal.Element.sampleEscape (σ := σ)) Literal.Element.sampleEscape := by
  refine hΦ.bind hΦ.unit fun roll => ?_
  split
  · exact hΦ.pure _
  · refine hΦ.bind (hΦ.chance (by decide +kernel)) fun b => ?_
    split
    · exact hΦ.bind (hΦ.below _ _) fun _ => hΦ.pure _
    · exact hΦ.bind (hΦ.times (hΦ.element _ _) _) fun _ => hΦ.pure _

theorem sampleElement (hΦ : DrawClosed Φ) :
    Φ (Literal.Element.sample (σ := σ)) Literal.Element.sample := by
  refine hΦ.bind (hΦ.chance (by decide +kernel)) fun b => ?_
  split
  · exact hΦ.bind (hΦ.element _ _) fun _ => hΦ.pure _
  · exact hΦ.sampleEscape

end DrawClosed

end SmlSynth.Sampler

namespace SmlSynth

/-! ## The parts of a generator -/

namespace Gen

variable {ρ : Type}

mutual

/-- **The parts of a generator**: itself, and all that stand in it, delayed or not. -/
def parts : Gen ρ → List (Gen ρ)
  | .literal text => [.literal text]
  | .oneOf items => [.oneOf items]
  | .seq gs => .seq gs :: partsAll gs
  | .choice gs => .choice gs :: partsAll gs
  | .weighted gs => .weighted gs :: partsOptions gs
  | .depthChoice terminal recursive =>
    .depthChoice terminal recursive :: (parts terminal ++ parts recursive)
  | .depthChoiceAmong terminals recursives =>
    .depthChoiceAmong terminals recursives :: (partsAll terminals ++ partsAll recursives)
  | .many inner => .many inner :: parts inner
  | .many1 inner => .many1 inner :: parts inner
  | .count n inner => .count n inner :: parts inner
  | .optional inner => .optional inner :: parts inner
  | .sepBy inner sep => .sepBy inner sep :: (parts inner ++ parts sep)
  | .sepBy1 inner sep => .sepBy1 inner sep :: (parts inner ++ parts sep)
  | .either left right => .either left right :: (parts left ++ parts right)
  | .between inner before after =>
    .between inner before after :: (parts inner ++ (parts before ++ parts after))
  | .map change inner => .map change inner :: parts inner
  | .delayed inner => .delayed inner :: parts inner
  | .ref symbol => [.ref symbol]

/-- The parts of generators. -/
def partsAll : List (Gen ρ) → List (Gen ρ)
  | [] => []
  | g :: gs => parts g ++ partsAll gs

/-- The parts of weighted options. -/
def partsOptions : List (Float × Gen ρ) → List (Gen ρ)
  | [] => []
  | (_, g) :: gs => parts g ++ partsOptions gs

end

/-- The symbol that a node is. -/
def symbol? : Gen ρ → Option ρ
  | .ref symbol => some symbol
  | _ => none

/-- **The symbols of a generator**, in order. -/
def symbols (g : Gen ρ) : List ρ := g.parts.filterMap symbol?

/-- **The faults that a node may end a run with** of its own, whatever its parts do. -/
def ownFaults : Gen ρ → List GenError
  | .depthChoiceAmong terminals recursives =>
    (if terminals.isEmpty then [.noTerminals] else []) ++
      if recursives.isEmpty then [.noRecursives] else []
  | .count n _ => if n = 0 then [.nonPositiveCount n] else []
  | g => g.fault?.toList

/-! ### Faults -/

/-- Weighted options without weight are a fault. -/
theorem fault_weighted {gs : List (Float × Gen ρ)} (hne : gs ≠ [])
    (h : ¬ 0 < Weights.total (gs.map (·.1))) :
    (weighted gs).fault? = some (.nonPositiveWeight (Weights.total (gs.map (·.1)))) := by
  cases gs with
  | nil => exact absurd rfl hne
  | cons => exact if_neg h

theorem mem_ownFaults {g : Gen ρ} {e : GenError} (h : g.fault? = some e) : e ∈ g.ownFaults := by
  cases g with
  | depthChoiceAmong terminals recursives =>
    cases terminals with
    | nil =>
      obtain rfl : .noTerminals = e := Option.some.inj h
      exact List.mem_cons_self ..
    | cons =>
      cases recursives with
      | nil =>
        obtain rfl : .noRecursives = e := Option.some.inj h
        exact List.mem_cons_self ..
      | cons => cases h
  | count n inner => cases h
  | _ => exact Option.mem_toList.2 h

theorem fault_of_checkNode {g : Gen ρ} {e : GenError} (h : checkNode g = .error e) :
    e ∈ g.ownFaults := by
  unfold checkNode at h
  split at h
  · rename_i hfault
    rw [← Except.error.inj h]
    exact mem_ownFaults hfault
  · cases h

section Check

variable {e : GenError}

/-- Of two checks that fail one after the other, one fails. -/
theorem error_of_then {x y : Except GenError Unit} (h : (do x; y) = .error e) :
    x = .error e ∨ y = .error e := by
  cases x with
  | error e' => exact .inl h
  | ok => exact .inr h

theorem mem_flatMap_append {gs gs' : List (Gen ρ)}
    (h : e ∈ gs.flatMap ownFaults ∨ e ∈ gs'.flatMap ownFaults) :
    e ∈ (gs ++ gs').flatMap ownFaults := by
  rw [List.flatMap_append]; exact List.mem_append.2 h

mutual

/-- **A check reports a fault of a part**, of the generator itself or of one that stands in it. -/
theorem fault_of_check : ∀ g : Gen ρ, check g = .error e → e ∈ g.parts.flatMap ownFaults
  | .literal _, h => by cases h
  | .oneOf items, h => List.mem_append_left _ (fault_of_checkNode h)
  | .seq gs, h => List.mem_append_right _ (fault_of_checkAll gs h)
  | .choice gs, h => List.mem_append.2
    ((error_of_then h).symm.imp fault_of_checkNode (fault_of_checkAll gs))
  | .weighted gs, h => List.mem_append.2
    ((error_of_then h).symm.imp fault_of_checkNode (fault_of_checkOptions gs))
  | .depthChoice terminal recursive, h => List.mem_append_right _ <| mem_flatMap_append <|
    (error_of_then h).imp (fault_of_check terminal) (fault_of_check recursive)
  | .depthChoiceAmong terminals recursives, h => by
    rcases error_of_then h with h | h
    · exact List.mem_append_right _ (mem_flatMap_append (.inl (fault_of_checkAll terminals h)))
    · refine List.mem_append.2 ((error_of_then h).symm.imp fault_of_checkNode fun h => ?_)
      exact mem_flatMap_append (.inr (fault_of_checkAll recursives h))
  | .many inner, h => List.mem_append_right _ (fault_of_check inner h)
  | .many1 inner, h => List.mem_append_right _ (fault_of_check inner h)
  | .count _ inner, h => List.mem_append_right _ (fault_of_check inner h)
  | .optional inner, h => List.mem_append_right _ (fault_of_check inner h)
  | .sepBy inner sep, h => List.mem_append_right _ <| mem_flatMap_append <|
    (error_of_then h).imp (fault_of_check inner) (fault_of_check sep)
  | .sepBy1 inner sep, h => List.mem_append_right _ <| mem_flatMap_append <|
    (error_of_then h).imp (fault_of_check inner) (fault_of_check sep)
  | .either left right, h => List.mem_append_right _ <| mem_flatMap_append <|
    (error_of_then h).imp (fault_of_check left) (fault_of_check right)
  | .between inner before after, h => List.mem_append_right _ <| mem_flatMap_append <|
    (error_of_then h).imp (fault_of_check inner) fun h => mem_flatMap_append <|
      (error_of_then h).imp (fault_of_check before) (fault_of_check after)
  | .map _ inner, h => List.mem_append_right _ (fault_of_check inner h)
  | .delayed _, h => by cases h
  | .ref _, h => by cases h

theorem fault_of_checkAll :
    ∀ gs : List (Gen ρ), checkAll gs = .error e → e ∈ (partsAll gs).flatMap ownFaults
  | [], h => by cases h
  | g :: gs, h =>
    mem_flatMap_append ((error_of_then h).imp (fault_of_check g) (fault_of_checkAll gs))

theorem fault_of_checkOptions :
    ∀ gs : List (Float × Gen ρ), checkOptions gs = .error e → e ∈ (partsOptions gs).flatMap ownFaults
  | [], h => by cases h
  | (_, g) :: gs, h =>
    mem_flatMap_append ((error_of_then h).imp (fault_of_check g) (fault_of_checkOptions gs))

end

end Check

end Gen

namespace Sampler

variable {σ : Type} [Source σ] {Φ : ∀ {α : Type}, Sampler σ α → Sampler σ α → Prop}

namespace GenClosed

/-! ## Generators -/

section Generators

variable {ρ : Type} {call call' : ρ → Sampler σ Text}

/-- **What a node takes from outside is related**: the sampler of a symbol, or a fault. -/
structure NodeRelated (Φ : ∀ {α : Type}, Sampler σ α → Sampler σ α → Prop)
    (call call' : ρ → Sampler σ Text) (g : Gen ρ) : Prop where
  symbol : ∀ x, g.symbol? = some x → Φ (call x) (call' x)
  fault : ∀ e ∈ g.ownFaults, Φ (fail e : Sampler σ Text) (fail e)

theorem weights_runOptions : ∀ gs : List (Float × Gen ρ),
    (Gen.runOptions call gs).map (·.1) = gs.map (·.1)
  | [] => rfl
  | (w, _) :: gs => congrArg (w :: ·) (weights_runOptions gs)

theorem runAll_eq_nil {gs : List (Gen ρ)} : Gen.runAll call gs = [] ↔ gs = [] := by
  cases gs <;> simp [Gen.runAll]

theorem runOptions_eq_nil {gs : List (Float × Gen ρ)} : Gen.runOptions call gs = [] ↔ gs = [] := by
  cases gs <;> simp [Gen.runOptions]

mutual

/-- **A closed relation of what its nodes take from outside is one of the runs of a generator.** -/
theorem run (hΦ : GenClosed Φ) :
    ∀ g : Gen ρ, (∀ p ∈ g.parts, NodeRelated Φ call call' p) → Φ (g.run call) (g.run call')
  | .literal text, _ => hΦ.pure _
  | .oneOf items, h => by
    -- the options are fixed texts, the same for both
    refine hΦ.anyOf (List.forall₂_same.2 fun s hs => ?_) fun hempty => ?_
    · obtain ⟨t, -, rfl⟩ := List.mem_map.1 hs
      exact hΦ.pure t
    · obtain rfl : items = [] := List.map_eq_nil_iff.1 hempty
      exact (h _ (List.mem_cons_self ..)).fault _ (List.mem_cons_self ..)
  | .seq parts, h => hΦ.concat (runAll hΦ parts (List.forall_mem_cons.1 h).2)
  | .choice options, h => by
    obtain ⟨hself, hparts⟩ := List.forall_mem_cons.1 h
    refine hΦ.anyOf (runAll hΦ options hparts) fun hempty => ?_
    obtain rfl : options = [] := runAll_eq_nil.1 hempty
    exact hself.fault _ (List.mem_cons_self ..)
  | .weighted options, h => by
    obtain ⟨hself, hparts⟩ := List.forall_mem_cons.1 h
    have hweights : (Gen.runOptions call options).map (·.1) = options.map (·.1) :=
      weights_runOptions options
    refine hΦ.byWeight (hweights.trans (weights_runOptions options).symm)
      (runOptions hΦ options hparts) (fun hempty => ?_) fun total htotal hne hpos => ?_
    · obtain rfl : options = [] := runOptions_eq_nil.1 hempty
      exact hself.fault _ (List.mem_cons_self ..)
    · rw [hweights] at htotal
      have hfault := Gen.fault_weighted (fun hnil => hne (runOptions_eq_nil.2 hnil)) (htotal ▸ hpos)
      rw [htotal]
      exact hself.fault _ (Gen.mem_ownFaults hfault)
  | .depthChoice terminal recursive, h => by
    obtain ⟨hterminal, hrecursive⟩ := List.forall_mem_append.1 (List.forall_mem_cons.1 h).2
    exact hΦ.gated (run hΦ terminal hterminal) (run hΦ recursive hrecursive)
  | .depthChoiceAmong terminals recursives, h => by
    obtain ⟨hself, hparts⟩ := List.forall_mem_cons.1 h
    obtain ⟨hterminals, hrecursives⟩ := List.forall_mem_append.1 hparts
    refine hΦ.gated (hΦ.anyOf (runAll hΦ terminals hterminals) fun hempty => ?_)
      (hΦ.anyOf (runAll hΦ recursives hrecursives) fun hempty => ?_)
    · obtain rfl : terminals = [] := runAll_eq_nil.1 hempty
      exact hself.fault _ (List.mem_cons_self ..)
    · obtain rfl : recursives = [] := runAll_eq_nil.1 hempty
      exact hself.fault _ (List.mem_append_right _ (List.mem_cons_self ..))
  | .many inner, h => hΦ.bind (hΦ.repeatCount 0) fun n =>
    hΦ.repeated (run hΦ inner (List.forall_mem_cons.1 h).2) n
  | .many1 inner, h => hΦ.bind (hΦ.repeatCount 1) fun n =>
    hΦ.repeated (run hΦ inner (List.forall_mem_cons.1 h).2) n
  | .count n inner, h => by
    obtain ⟨hself, hparts⟩ := List.forall_mem_cons.1 h
    unfold Gen.run
    split
    · rename_i hn
      refine hself.fault _ ?_
      show _ ∈ if n = 0 then [GenError.nonPositiveCount n] else []
      rw [if_pos hn]; exact List.mem_cons_self ..
    · exact hΦ.repeated (run hΦ inner hparts) n
  | .optional inner, h => by
    refine hΦ.bind hΦ.coin fun b => ?_
    split
    · exact run hΦ inner (List.forall_mem_cons.1 h).2
    · exact hΦ.pure _
  | .sepBy inner sep, h => by
    obtain ⟨hinner, hsep⟩ := List.forall_mem_append.1 (List.forall_mem_cons.1 h).2
    exact hΦ.bind (hΦ.repeatCount 0) fun n => hΦ.separated (run hΦ inner hinner) (run hΦ sep hsep) n
  | .sepBy1 inner sep, h => by
    obtain ⟨hinner, hsep⟩ := List.forall_mem_append.1 (List.forall_mem_cons.1 h).2
    exact hΦ.bind (hΦ.repeatCount 1) fun n => hΦ.separated (run hΦ inner hinner) (run hΦ sep hsep) n
  | .either left right, h => by
    obtain ⟨hleft, hright⟩ := List.forall_mem_append.1 (List.forall_mem_cons.1 h).2
    refine hΦ.bind (hΦ.below _ _) fun i => ?_
    split
    · exact run hΦ left hleft
    · exact run hΦ right hright
  | .between inner before after, h => by
    obtain ⟨hinner, hrest⟩ := List.forall_mem_append.1 (List.forall_mem_cons.1 h).2
    obtain ⟨hbefore, hafter⟩ := List.forall_mem_append.1 hrest
    exact hΦ.concat (.cons (run hΦ before hbefore)
      (.cons (run hΦ inner hinner) (.cons (run hΦ after hafter) .nil)))
  | .map change inner, h => hΦ.bind (run hΦ inner (List.forall_mem_cons.1 h).2) fun _ => hΦ.pure _
  | .delayed inner, h => by
    obtain ⟨-, hparts⟩ := List.forall_mem_cons.1 h
    unfold Gen.run
    split
    · exact run hΦ inner hparts
    -- a check fails with a fault of one of the parts
    · rename_i hcheck
      obtain ⟨p, hp, he⟩ := List.mem_flatMap.1 (Gen.fault_of_check inner hcheck)
      exact (hparts p hp).fault _ he
  | .ref symbol, h => (h _ (List.mem_cons_self ..)).symbol symbol rfl

theorem runAll (hΦ : GenClosed Φ) : ∀ gs : List (Gen ρ),
    (∀ p ∈ Gen.partsAll gs, NodeRelated Φ call call' p) →
      List.Forall₂ Φ (Gen.runAll call gs) (Gen.runAll call' gs)
  | [], _ => .nil
  | g :: gs, h => .cons (run hΦ g (List.forall_mem_append.1 h).1)
      (runAll hΦ gs (List.forall_mem_append.1 h).2)

theorem runOptions (hΦ : GenClosed Φ) : ∀ gs : List (Float × Gen ρ),
    (∀ p ∈ Gen.partsOptions gs, NodeRelated Φ call call' p) →
      List.Forall₂ (fun o o' => Φ o.2 o'.2) (Gen.runOptions call gs) (Gen.runOptions call' gs)
  | [], _ => .nil
  | (_, g) :: gs, h => .cons (run hΦ g (List.forall_mem_append.1 h).1)
      (runOptions hΦ gs (List.forall_mem_append.1 h).2)

end

/-- **A relation that faults have too** is one of the runs of a generator if it is one of what is
taken for its symbols. -/
theorem run_symbols (hΦ : GenClosed Φ) (hfail : ∀ e, Φ (fail e : Sampler σ Text) (fail e))
    (g : Gen ρ) (h : ∀ x ∈ g.symbols, Φ (call x) (call' x)) : Φ (g.run call) (g.run call') :=
  hΦ.run g fun p hp => ⟨fun x hx => h x (List.mem_filterMap.2 ⟨p, hp, hx⟩), fun e _ => hfail e⟩

/-- **A closed property of its symbols' samplers is one of a generator's**, if its faults have it. -/
theorem run_self {P : ∀ {α : Type}, Sampler σ α → Prop} (hP : GenClosed fun s _ => P s)
    {g : Gen ρ} (hfail : ∀ p ∈ g.parts, ∀ e ∈ p.ownFaults, P (fail e : Sampler σ Text))
    (h : ∀ x ∈ g.symbols, P (call x)) : P (g.run call) :=
  @run σ _ (fun s _ => P s) ρ call call hP g fun p hp =>
    ⟨fun x hx => h x (List.mem_filterMap.2 ⟨p, hp, hx⟩), hfail p hp⟩

end Generators

end GenClosed

namespace Closed

/-! ## Lexemes and rules -/

/-- **A closed relation is one of every lexeme.** -/
theorem lexeme (hΦ : Closed Φ) (l : Lexeme) : Φ (l.sample : Sampler σ Text) l.sample := by
  cases l with
  | comment =>
    exact hΦ.bind (hΦ.below _ _) fun _ => hΦ.bind (hΦ.times (hΦ.element _ _) _) fun _ => hΦ.pure _
  | identifier => exact hΦ.sampleIdentifier hΦ.letter _ _
  | shortIdentifier => exact hΦ.sampleShort
  | symbolic => exact hΦ.symbolic
  | name => exact hΦ.name
  | capitalName => exact hΦ.sampleIdentifier (hΦ.element _ _) _ _
  | numericLabel => exact hΦ.bind (hΦ.upTo _ _) fun _ => hΦ.pure _
  | precedence => exact hΦ.bind (hΦ.element _ _) fun _ => hΦ.pure _
  | decimalInt =>
    exact hΦ.bind hΦ.sampleNegative fun _ => hΦ.bind (hΦ.upTo _ _) fun _ =>
      hΦ.bind (hΦ.naturalDigits _) fun _ => hΦ.pure _
  | hexInt =>
    exact hΦ.bind hΦ.sampleNegative fun _ => hΦ.bind (hΦ.upTo _ _) fun _ =>
      hΦ.bind (hΦ.times (hΦ.element _ _) _) fun _ => hΦ.pure _
  | word =>
    refine hΦ.bind hΦ.coin fun hex => hΦ.bind (hΦ.upTo _ _) fun n => ?_
    split
    · exact hΦ.bind (hΦ.times (hΦ.element _ _) _) fun _ => hΦ.pure _
    · exact hΦ.bind (hΦ.times (hΦ.element _ _) _) fun _ => hΦ.pure _
  | real => exact hΦ.sampleReal
  | string =>
    exact hΦ.bind (hΦ.below _ _) fun _ => hΦ.bind (hΦ.times hΦ.sampleElement _) fun _ => hΦ.pure _
  | character =>
    refine hΦ.bind (hΦ.below _ _) fun i => ?_
    split
    · exact hΦ.bind hΦ.sampleEscape fun _ => hΦ.pure _
    · exact hΦ.bind (hΦ.element _ _) fun _ => hΦ.pure _

/-- **A closed relation is one of every symbol of the grammar**, whatever the fuel, if it is one
of the faults of the rules and of running out of fuel. -/
theorem call (hΦ : Closed Φ)
    (hfail : ∀ r, ∀ p ∈ (Rule.body r).parts, ∀ e ∈ p.ownFaults,
      Φ (fail e : Sampler σ Text) (fail e))
    (hfuel : Φ (throw .outOfFuel : Sampler σ Text) (throw .outOfFuel)) :
    ∀ fuel x, Φ ((sml (σ := σ)).call fuel x) ((sml (σ := σ)).call fuel x) := by
  intro fuel
  induction fuel with
  | zero =>
    intro x
    cases x with
    | terminal l => exact hΦ.lexeme l
    | rule r => exact hfuel
  | succ fuel ih =>
    intro x
    cases x with
    | terminal l => exact hΦ.lexeme l
    | rule r =>
      refine hΦ.run (.delayed (Rule.body r)) fun p hp => ⟨fun x _ => ih x, fun e he => ?_⟩
      rcases List.mem_cons.1 hp with rfl | hp
      · cases he
      · exact hfail r p hp e he

end Closed

end Sampler

end SmlSynth
