import SmlSynth.Proofs.Plan
import SmlSynth.Proofs.Success

/-!
# What a run reaches

A run goes from a node to the parts of its plan, as far as those before them succeed. A generator
that passed the check fails, but for want of patience or fuel, exactly where a run comes to a node
whose faults are left to the run: a repetition of no texts, or a delayed generator that does not
pass the check.

* `Gen.Enters`: a run of a node comes to one of its parts, in a context of its own.
* `Grammar.Reaches`: what a run comes to, through parts and the bodies of rules.
* `Gen.Culprit`: the nodes whose faults are left to the run.
* `fails_iff_enters`: a node fails where a part that it enters does, or its plan.
* `Grammar.explained`, `Grammar.fails_of_reaches`: a run fails exactly if it reaches a culprit.
* `checks_complete`: what passes the check succeeds, if nothing in it is left to the run.
-/

namespace SmlSynth

open Sampler

variable {σ τ ν ρ : Type}

namespace Gen

/-! ## Culprits -/

/-- **A node whose fault is left to the run**: a repetition of no texts, or a delayed generator that
does not pass the check. -/
inductive Culprit : Gen ρ → GenError → Prop where
  | count (inner : Gen ρ) : Culprit (.count 0 inner) (.nonPositiveCount 0)
  | delayed {inner : Gen ρ} {e : GenError} (h : inner.check = .error e) : Culprit (.delayed inner) e

/-- Whether something about a node is left to the run. -/
def isPostponed : Gen ρ → Bool
  | .count n _ => n == 0
  | .delayed _ | .ref _ => true
  | _ => false

/-- **A generator of which nothing is left to the run**: nothing in it is delayed, and no repetition
is one of no texts. -/
def Immediate (g : Gen ρ) : Prop := ∀ p ∈ g.parts, p.isPostponed = false

/-! ## What the check says of a node -/

theorem then_ok {x y : Except GenError Unit} (h : (do x; y) = .ok ()) :
    x = .ok () ∧ y = .ok () := by
  cases x with
  | error e => cases h
  | ok => exact ⟨rfl, h⟩

theorem fault_of_checkNode_ok {g : Gen ρ} (h : checkNode g = .ok ()) : g.fault? = none := by
  unfold checkNode at h
  split at h
  · cases h
  · assumption

theorem of_checkAll : ∀ {gs : List (Gen ρ)}, checkAll gs = .ok () → ∀ g ∈ gs, g.check = .ok ()
  | [], _, _, h => by cases h
  | g :: gs, h, p, hp => by
    obtain ⟨hg, hgs⟩ := then_ok h
    rcases List.mem_cons.1 hp with rfl | hp
    · exact hg
    · exact of_checkAll hgs p hp

theorem of_checkOptions : ∀ {gs : List (Float × Gen ρ)}, checkOptions gs = .ok () →
    ∀ o ∈ gs, o.2.check = .ok ()
  | [], _, _, h => by cases h
  | (w, g) :: gs, h, o, ho => by
    obtain ⟨hg, hgs⟩ := then_ok h
    rcases List.mem_cons.1 ho with rfl | ho
    · exact hg
    · exact of_checkOptions hgs o ho

/-- **What stands in a node that passed the check has passed it too**, unless it is delayed. -/
theorem check_child {g p : Gen ρ} (hg : g.check = .ok ()) (hdelayed : ∀ inner, g ≠ .delayed inner)
    (hp : p ∈ g.children) : p.check = .ok () := by
  cases g with
  | oneOf items =>
    obtain ⟨t, -, rfl⟩ := List.mem_map.1 hp
    rfl
  | seq parts => exact of_checkAll hg p hp
  | choice options => exact of_checkAll (then_ok hg).1 p hp
  | weighted options =>
    obtain ⟨o, ho, rfl⟩ := List.mem_map.1 hp
    exact of_checkOptions (then_ok hg).1 o ho
  | depthChoice terminal recursive =>
    obtain ⟨hterminal, hrecursive⟩ := then_ok hg
    rcases List.mem_pair.1 hp with rfl | rfl
    · exact hterminal
    · exact hrecursive
  | depthChoiceAmong terminals recursives =>
    obtain ⟨hterminals, hrest⟩ := then_ok hg
    rcases List.mem_append.1 hp with hp | hp
    · exact of_checkAll hterminals p hp
    · exact of_checkAll (then_ok hrest).1 p hp
  | many inner | many1 inner | count n inner | optional inner | map change inner =>
    rw [List.mem_singleton.1 hp]; exact hg
  | sepBy inner sep | sepBy1 inner sep | either inner sep =>
    obtain ⟨hinner, hsep⟩ := then_ok hg
    rcases List.mem_pair.1 hp with rfl | rfl
    · exact hinner
    · exact hsep
  | between inner before after =>
    obtain ⟨hinner, hrest⟩ := then_ok hg
    obtain ⟨hbefore, hafter⟩ := then_ok hrest
    simp only [children, List.mem_cons, List.not_mem_nil, or_false] at hp
    rcases hp with rfl | rfl | rfl
    · exact hbefore
    · exact hinner
    · exact hafter
  | delayed inner => exact absurd rfl (hdelayed inner)
  | literal text => cases hp
  | ref x => cases hp

/-- What stands in a node is smaller. -/
theorem sizeOf_child [SizeOf ρ] {g p : Gen ρ} (hp : p ∈ g.children) : sizeOf p < sizeOf g := by
  cases g with
  | oneOf items =>
    obtain ⟨t, ht, rfl⟩ := List.mem_map.1 hp
    have := List.sizeOf_lt_of_mem ht
    simp only [literal.sizeOf_spec, oneOf.sizeOf_spec]
    omega
  | seq gs =>
    have hlt : sizeOf p < sizeOf gs := List.sizeOf_lt_of_mem hp
    simp only [seq.sizeOf_spec]
    omega
  | choice gs =>
    have hlt : sizeOf p < sizeOf gs := List.sizeOf_lt_of_mem hp
    simp only [choice.sizeOf_spec]
    omega
  | weighted options =>
    obtain ⟨o, ho, rfl⟩ := List.mem_map.1 hp
    have := List.sizeOf_lt_of_mem ho
    obtain ⟨w, g⟩ := o
    simp only [Prod.mk.sizeOf_spec] at this
    simp only [weighted.sizeOf_spec]
    omega
  | depthChoiceAmong terminals recursives =>
    simp only [depthChoiceAmong.sizeOf_spec]
    rcases List.mem_append.1 hp with hp | hp
    · have := List.sizeOf_lt_of_mem hp; omega
    · have := List.sizeOf_lt_of_mem hp; omega
  | literal text | ref x => cases hp
  | many inner | many1 inner | count n inner | optional inner | map change inner | delayed inner =>
    rw [List.mem_singleton.1 hp]
    simp only [many.sizeOf_spec, many1.sizeOf_spec, count.sizeOf_spec, optional.sizeOf_spec,
      map.sizeOf_spec, delayed.sizeOf_spec]
    omega
  | depthChoice g g' | sepBy g g' | sepBy1 g g' | either g g' =>
    simp only [depthChoice.sizeOf_spec, sepBy.sizeOf_spec, sepBy1.sizeOf_spec, either.sizeOf_spec]
    rcases List.mem_pair.1 hp with rfl | rfl <;> omega
  | between inner before after =>
    simp only [children, List.mem_cons, List.not_mem_nil, or_false] at hp
    simp only [between.sizeOf_spec]
    rcases hp with rfl | rfl | rfl <;> omega

theorem mem_partsAll {p q : Gen ρ} : ∀ {gs : List (Gen ρ)}, p ∈ gs → q ∈ p.parts → q ∈ partsAll gs
  | g :: gs, hp, hq => by
    rcases List.mem_cons.1 hp with rfl | hp
    · exact List.mem_append_left _ hq
    · exact List.mem_append_right _ (mem_partsAll hp hq)

theorem mem_partsOptions {p : Float × Gen ρ} {q : Gen ρ} :
    ∀ {gs : List (Float × Gen ρ)}, p ∈ gs → q ∈ p.2.parts → q ∈ partsOptions gs
  | (w, g) :: gs, hp, hq => by
    rcases List.mem_cons.1 hp with rfl | hp
    · exact List.mem_append_left _ hq
    · exact List.mem_append_right _ (mem_partsOptions hp hq)

/-- Nothing in a part is left to the run if nothing in the whole is. -/
theorem Immediate.child {g p : Gen ρ} (hg : g.Immediate) (hp : p ∈ g.children) : p.Immediate := by
  intro q hq
  cases g with
  | oneOf items =>
    obtain ⟨t, -, rfl⟩ := List.mem_map.1 hp
    obtain rfl : q = .literal t := List.mem_singleton.1 hq
    rfl
  | seq gs => exact hg q (List.mem_cons_of_mem _ (mem_partsAll hp hq))
  | choice gs => exact hg q (List.mem_cons_of_mem _ (mem_partsAll hp hq))
  | weighted options =>
    obtain ⟨o, ho, rfl⟩ := List.mem_map.1 hp
    exact hg q (List.mem_cons_of_mem _ (mem_partsOptions ho hq))
  | depthChoiceAmong terminals recursives =>
    refine hg q (List.mem_cons_of_mem _ (List.mem_append.2 ?_))
    exact (List.mem_append.1 hp).imp (mem_partsAll · hq) (mem_partsAll · hq)
  | literal text | ref x => cases hp
  | many inner | many1 inner | count n inner | optional inner | map change inner | delayed inner =>
    obtain rfl := List.mem_singleton.1 hp
    exact hg q (List.mem_cons_of_mem _ hq)
  | depthChoice g g' | sepBy g g' | sepBy1 g g' | either g g' =>
    refine hg q (List.mem_cons_of_mem _ (List.mem_append.2 ?_))
    rcases List.mem_pair.1 hp with rfl | rfl
    · exact .inl hq
    · exact .inr hq
  | between inner before after =>
    refine hg q (List.mem_cons_of_mem _ ?_)
    simp only [children, List.mem_cons, List.not_mem_nil, or_false] at hp
    rcases hp with rfl | rfl | rfl <;> simp [hq]

theorem Immediate.symbol {g : Gen ρ} (hg : g.Immediate) : g.symbol? = none := by
  cases g with
  | ref x => cases hg _ (List.mem_singleton.2 rfl)
  | _ => rfl

variable [Source σ]

/-! ## Plans that fail -/

/-- A culprit has no plan. -/
theorem Culprit.plan_fails {g : Gen ρ} {e : GenError} (h : g.Culprit e) (c : Context σ) :
    (g.plan c).1 = .error (.illFormed e) := by
  cases h with
  | count inner => rfl
  | delayed h => simp only [plan, h]; rfl

theorem failsWith_pickOne {F : Fault → Prop} (hF : F .outOfPatience) {options : List (Gen ρ)}
    (hne : options ≠ []) (e : GenError) : FailsWith F (pickOne (σ := σ) options e) := by
  refine (failsWith_drawClosed hF).anyOf (List.forall₂_same.2 fun s hs => ?_) fun hempty => ?_
  · obtain ⟨g, -, rfl⟩ := List.mem_map.1 hs
    exact failsWith_pure _
  · exact absurd (List.map_eq_nil_iff.1 hempty) hne

theorem failsWith_gate {F : Fault → Prop} : FailsWith F (gate (σ := σ)) := by
  intro c e h
  unfold gate at h
  split at h
  · cases h
  · split at h <;> cases h

/-- **Where a node has passed the check, its plan fails for want of patience, or the node is a
culprit.** -/
theorem failsWith_plan {g : Gen ρ} (hg : g.check = .ok ()) :
    FailsWith (fun f => f = .outOfPatience ∨ ∃ e, f = .illFormed e ∧ g.Culprit e)
      (g.plan (σ := σ)) := by
  have hpure : ∀ ps : List (Gen ρ), FailsWith (fun f => f = .outOfPatience ∨
      ∃ e, f = .illFormed e ∧ g.Culprit e) (pure ps : Sampler σ (List (Gen ρ))) := failsWith_pure
  have hclosed : Closed (σ := σ) fun s _ => FailsWith (fun f => f = .outOfPatience ∨
      ∃ e, f = .illFormed e ∧ g.Culprit e) s := failsWith_closed (.inl rfl)
  cases g with
  | oneOf items =>
    refine failsWith_pickOne (.inl rfl) (fun hempty => ?_) _
    obtain rfl : items = [] := List.map_eq_nil_iff.1 hempty
    cases hg
  | choice options =>
    refine failsWith_pickOne (.inl rfl) (fun hempty => ?_) _
    subst hempty
    cases hg
  | weighted options =>
    have hfault := fault_of_checkNode_ok (then_ok hg).2
    refine hclosed.byWeight rfl (List.forall₂_same.2 fun s hs => ?_) (fun hempty => ?_)
      fun total htotal _ hnot => ?_
    · obtain ⟨o, -, rfl⟩ := List.mem_map.1 hs
      exact hpure _
    · obtain rfl : options = [] := List.map_eq_nil_iff.1 hempty
      cases hfault
    · have hne : options ≠ [] := by rintro rfl; cases hfault
      have hweights : (options.map fun o => (o.1, (pure [o.2] : Sampler σ _))).map (·.1)
          = options.map (·.1) := by simp [Function.comp_def]
      rw [hweights] at htotal
      rw [fault_weighted hne (htotal ▸ hnot)] at hfault
      cases hfault
  | depthChoice terminal recursive =>
    refine failsWith_bind failsWith_gate fun deep => ?_
    split
    · exact hpure _
    · exact hpure _
  | depthChoiceAmong terminals recursives =>
    have hfault := fault_of_checkNode_ok (then_ok (then_ok hg).2).2
    refine failsWith_bind failsWith_gate fun deep => ?_
    split
    · refine failsWith_pickOne (.inl rfl) (fun hempty => ?_) _
      subst hempty
      cases terminals <;> cases hfault
    · refine failsWith_pickOne (.inl rfl) (fun hempty => ?_) _
      subst hempty
      cases hfault
  | many inner => exact failsWith_bind (hclosed.repeatCount 0) fun n => hpure _
  | many1 inner => exact failsWith_bind (hclosed.repeatCount 1) fun n => hpure _
  | sepBy inner sep => exact failsWith_bind (hclosed.repeatCount 0) fun n => hpure _
  | sepBy1 inner sep => exact failsWith_bind (hclosed.repeatCount 1) fun n => hpure _
  | count n inner =>
    simp only [plan]
    split
    · rename_i hn
      subst hn
      exact failsWith_fail (.inr ⟨_, rfl, .count inner⟩)
    · exact hpure _
  | optional inner =>
    refine failsWith_bind hclosed.coin fun b => ?_
    split
    · exact hpure _
    · exact hpure _
  | either left right =>
    refine failsWith_bind (hclosed.below 2 (by decide)) fun i => ?_
    split
    · exact hpure _
    · exact hpure _
  | delayed inner =>
    simp only [plan]
    cases hcheck : inner.check with
    | ok => exact hpure _
    | error e => exact failsWith_fail (.inr ⟨e, rfl, .delayed hcheck⟩)
  | literal text | seq parts | between inner before after | map change inner | ref x =>
    exact hpure _

/-! ## Entering -/

section Enters

variable {call : ρ → Sampler σ Text} {g p : Gen ρ} {c c' : Context σ}

/-- **A run of a node enters a part of its plan**, in the context that the draws of the plan and the
parts before it leave, if these succeed. -/
inductive Enters (call : ρ → Sampler σ Text) (g : Gen ρ) (c : Context σ) :
    Gen ρ → Context σ → Prop where
  | mk {before after : List (Gen ρ)} {p : Gen ρ} {t : Text}
    (hplan : (g.plan c).1 = .ok (before ++ p :: after))
    (hbefore : (carryOut call before (g.plan c).2).1 = .ok t) :
    Enters call g c p (carryOut call before (g.plan c).2).2

/-- **A node fails exactly where its plan does, or a part that it enters.** -/
theorem fails_iff_enters (hg : g.symbol? = none) {f : Fault} :
    (g.run call c).1 = .error f ↔
      (g.plan c).1 = .error f ∨ ∃ p c', Enters call g c p c' ∧ (p.run call c').1 = .error f := by
  rw [outcome_run hg, bind_fails_iff]
  refine or_congr_right ⟨?_, ?_⟩
  · rintro ⟨ps, hplan, hrun⟩
    -- making a text of the others does not fail
    rcases bind_fails_iff.1 hrun with hrun | ⟨t, -, hrun⟩
    · obtain ⟨before, s, after, t, hps, hbefore, hs⟩ := concat_fails_iff.1 hrun
      obtain ⟨gs, gs', rfl, rfl, hgs'⟩ := List.map_eq_append_iff.1 hps
      obtain ⟨p, rest, rfl, rfl, rfl⟩ := List.map_eq_cons_iff.1 hgs'
      exact ⟨p, _, .mk hplan hbefore, hs⟩
    · cases hrun
  · rintro ⟨p, c', henters, hrun⟩
    cases henters with
    | mk hplan hbefore =>
      refine ⟨_, hplan, bind_fails_iff.2 (.inl (concat_fails_iff.2 ?_))⟩
      exact ⟨_, _, _, _, by rw [List.map_append, List.map_cons], hbefore, hrun⟩

theorem Enters.child (h : Enters call g c p c') : p ∈ g.children := by
  cases h with
  | mk hplan _ => exact draws_plan g c _ hplan p (List.mem_append_right _ (List.mem_cons_self ..))

theorem Enters.symbol (h : Enters call g c p c') : g.symbol? = none := by
  cases g with
  | ref x => cases h.child
  | _ => rfl

/-- A delayed generator is entered only if it passes the check. -/
theorem Enters.check (h : Enters call g c p c') (hg : g.check = .ok ()) : p.check = .ok () := by
  by_cases hdelayed : ∃ inner, g = .delayed inner
  · obtain ⟨inner, rfl⟩ := hdelayed
    obtain rfl : p = inner := List.mem_singleton.1 h.child
    cases h with
    | mk hplan _ =>
      simp only [plan] at hplan
      cases hcheck : p.check with
      | ok => rfl
      | error e => rw [hcheck] at hplan; cases hplan
  · exact check_child hg (fun inner h => hdelayed ⟨inner, h⟩) h.child

/-- **Where nothing is left to the run, only patience can be wanting.** -/
theorem fault_of_immediate {f : Fault} (g : Gen ρ) (c : Context σ) (hcheck : g.check = .ok ())
    (hg : g.Immediate) (h : (g.run call c).1 = .error f) : f = .outOfPatience := by
  rcases (fails_iff_enters hg.symbol).1 h with h | ⟨p, c', henters, h⟩
  · rcases failsWith_plan hcheck c f h with hf | ⟨e, -, hculprit⟩
    · exact hf
    · -- a culprit is left to the run
      have hself : g ∈ g.parts := by cases g <;> exact List.mem_cons_self ..
      have := hg g hself
      cases hculprit <;> cases this
  · have := sizeOf_child henters.child
    exact fault_of_immediate p c' (henters.check hcheck) (hg.child henters.child) h
termination_by sizeOf g

/-- **Where nothing is left to the run, enough patience is enough**, on a source on which the loop
for numbers below a bound stops. -/
theorem lasting_of_immediate {g : Gen ρ} (hg : g.Immediate) :
    LastingOn SettlesBelow (g.run call) := by
  refine (lasting_genClosed settling_settlesBelow).run_self (fun _ _ e _ => ?_) fun x hx => ?_
  · exact lasting_still (fun _ => rfl) fun h => by cases h
  · -- a symbol would be left to the run
    obtain ⟨p, hp, hx⟩ := List.mem_filterMap.1 hx
    have hpostponed := hg p hp
    cases p <;> cases hx
    cases hpostponed

end Enters

end Gen

/-! ## Reaching -/

namespace Grammar

variable [Source σ] {G : Grammar σ τ ν}

/-- **What a run with some fuel reaches**: the node itself, what the parts that it enters reach, and
for a rule what its body reaches with a unit less. -/
inductive Reaches (G : Grammar σ τ ν) : Nat → Gen (Symbol τ ν) → Context σ →
    Gen (Symbol τ ν) → Context σ → Prop where
  | self (fuel : Nat) (g : Gen (Symbol τ ν)) (c : Context σ) : Reaches G fuel g c g c
  | part {fuel : Nat} {g p q : Gen (Symbol τ ν)} {c c' c'' : Context σ}
    (henters : g.Enters (G.call fuel) c p c') (h : Reaches G fuel p c' q c'') :
    Reaches G fuel g c q c''
  | rule {fuel : Nat} {r : ν} {q : Gen (Symbol τ ν)} {c c' : Context σ}
    (h : Reaches G fuel (.delayed (G.body r)) c q c') : Reaches G (fuel + 1) (.ref (.rule r)) c q c'

/-- **A run that reaches a culprit fails with its fault.** -/
theorem fails_of_reaches {fuel : Nat} {g p : Gen (Symbol τ ν)} {c c' : Context σ} {e : GenError}
    (h : G.Reaches fuel g c p c') (hp : p.Culprit e) :
    (g.run (G.call fuel) c).1 = .error (.illFormed e) := by
  induction h with
  | self fuel g c =>
    have hsymbol : g.symbol? = none := by cases hp <;> rfl
    exact (Gen.fails_iff_enters hsymbol).2 (.inl (hp.plan_fails c))
  | part henters _ ih => exact (Gen.fails_iff_enters henters.symbol).2 (.inr ⟨_, _, henters, ih hp⟩)
  | rule _ ih => exact ih hp

/-- **A fault that is explained**: patience or fuel is at an end, or the run reached a culprit. -/
def Explained (G : Grammar σ τ ν) (fuel : Nat) (g : Gen (Symbol τ ν)) (c : Context σ)
    (f : Fault) : Prop :=
  (f = .outOfPatience ∨ f = .outOfFuel) ∨
    ∃ e, f = .illFormed e ∧ ∃ p c', G.Reaches fuel g c p c' ∧ p.Culprit e

theorem Explained.part {fuel : Nat} {g p : Gen (Symbol τ ν)} {c c' : Context σ} {f : Fault}
    (h : G.Explained fuel p c' f) (henters : g.Enters (G.call fuel) c p c') :
    G.Explained fuel g c f :=
  h.imp_right fun ⟨e, hf, q, c'', hq, hculprit⟩ => ⟨e, hf, q, c'', .part henters hq, hculprit⟩

theorem Explained.rule {fuel : Nat} {r : ν} {c : Context σ} {f : Fault}
    (h : G.Explained fuel (.delayed (G.body r)) c f) :
    G.Explained (fuel + 1) (.ref (.rule r)) c f :=
  h.imp_right fun ⟨e, hf, q, c', hq, hculprit⟩ => ⟨e, hf, q, c', .rule hq, hculprit⟩

/-- What fails within a node is explained if it is for the symbols. -/
theorem explained_within {fuel : Nat} {f : Fault}
    (hsymbols : ∀ x c, (G.call fuel x c).1 = .error f → G.Explained fuel (.ref x) c f)
    (g : Gen (Symbol τ ν)) (c : Context σ) (hcheck : g.check = .ok ())
    (h : (g.run (G.call fuel) c).1 = .error f) : G.Explained fuel g c f := by
  by_cases hsymbol : g.symbol? = none
  · rcases (Gen.fails_iff_enters hsymbol).1 h with h | ⟨p, c', henters, h⟩
    · rcases Gen.failsWith_plan hcheck c f h with hf | ⟨e, hf, hculprit⟩
      · exact .inl (.inl hf)
      · exact .inr ⟨e, hf, g, c, .self fuel g c, hculprit⟩
    · have := Gen.sizeOf_child henters.child
      exact (explained_within hsymbols p c' (henters.check hcheck) h).part henters
  · cases g with
    | ref x => exact hsymbols x c h
    | _ => exact absurd rfl hsymbol
termination_by sizeOf g

/-- **Every fault of a run of what passed the check is explained**, if terminals are robust. -/
theorem explained (hG : ∀ t, Robust (G.sample t)) (fuel : Nat) {g : Gen (Symbol τ ν)}
    {c : Context σ} {f : Fault} (hcheck : g.check = .ok ())
    (h : (g.run (G.call fuel) c).1 = .error f) : G.Explained fuel g c f := by
  induction fuel generalizing g c with
  | zero =>
    refine explained_within (fun x c h => ?_) g c hcheck h
    cases x with
    | terminal t => exact .inl (hG t c f h)
    | rule r => exact .inl (.inr (Except.error.inj h).symm)
  | succ fuel ih =>
    refine explained_within (fun x c h => ?_) g c hcheck h
    cases x with
    | terminal t => exact .inl (hG t c f h)
    | rule r => exact (ih rfl h).rule

end Grammar

/-- **Static checks are complete.** Let a generator pass the check. If nothing in it is left to the
run, it succeeds from every context: at most patience is wanting, and enough patience is enough on
every source on which the loop for numbers below a bound stops. In any case a run fails only with
a fault that is explained, and with a fault of ill-formed generators exactly if it reaches a culprit
with that fault: a repetition of no texts, or a delayed generator, a rule's body among them, that
does not pass the check. -/
theorem checks_complete [Source σ] {G : Grammar σ τ ν} {g : Gen (Symbol τ ν)}
    (hcheck : g.check = .ok ()) (fuel : Nat) :
    (g.Immediate → ∀ c : Context σ,
      ((∃ t, (g.run (G.call fuel) c).1 = .ok t) ∨
        (g.run (G.call fuel) c).1 = .error .outOfPatience) ∧
      (SettlesBelow c.source →
        Succeeds (fun m => (g.run (G.call fuel) (c.patient m)).1) fun _ => True)) ∧
    ((∀ t, Robust (G.sample t)) → ∀ c : Context σ,
      (∀ f, (g.run (G.call fuel) c).1 = .error f → G.Explained fuel g c f) ∧
      ∀ e, (g.run (G.call fuel) c).1 = .error (.illFormed e) ↔
        ∃ p c', G.Reaches fuel g c p c' ∧ p.Culprit e) := by
  refine ⟨fun hg c => ⟨?_, fun hsource => ?_⟩,
    fun hG c => ⟨fun f h => ?_, fun e => ⟨fun h => ?_, ?_⟩⟩⟩
  · cases h : (g.run (G.call fuel) c).1 with
    | ok t => exact .inl ⟨t, rfl⟩
    | error f => rw [Gen.fault_of_immediate g c hcheck hg h]; exact .inr rfl
  · have hlasting : LastingOn SettlesBelow (g.run (G.call fuel)) := Gen.lasting_of_immediate hg
    obtain ⟨n, hn⟩ := hlasting.ends c hsource
    have hmore : ∀ m ≥ n, (g.run (G.call fuel) (c.patient m)).1
        = (g.run (G.call fuel) (c.patient n)).1 := fun m hm => (hlasting.more _ m hm hn).1
    cases h : (g.run (G.call fuel) (c.patient n)).1 with
    | ok t => exact ⟨n, t, trivial, fun m hm => (hmore m hm).trans h⟩
    | error f => exact absurd (Gen.fault_of_immediate g _ hcheck hg h ▸ h) hn
  · exact G.explained hG fuel hcheck h
  · rcases G.explained hG fuel hcheck h with (hf | hf) | ⟨e', hf, hreaches⟩
    · cases hf
    · cases hf
    · obtain rfl := Fault.illFormed.inj hf
      exact hreaches
  · rintro ⟨p, c', hreaches, hp⟩
    exact G.fails_of_reaches hreaches hp

/-- A grammar whose only rule is a choice of nothing. -/
def choiceOfNothing : Grammar Tape Empty Unit where
  sample t := t.elim
  body _ := .choice []

/-- A row with a gate in it succeeds; a row with a rule that is a choice of nothing passes the check
and fails when it comes to the rule. -/
theorem checks_complete_zero :
    let sound : Gen (Symbol Empty Unit) :=
      .many1 (.depthChoice (.lit "x") (.weighted [(0, .lit "y"), (0.5, .oneOf [['z']])]))
    let lazy : Gen (Symbol Empty Unit) := .seq [.lit "x", .optional (.ref (.rule ())), .lit "y"]
    (sound.check = .ok () ∧ sound.Immediate ∧ SettlesBelow zeroStart.source ∧
      Succeeds (fun m => (sound.run (choiceOfNothing.call 1) (zeroStart.patient m)).1)
        fun _ => True) ∧
    lazy.check = .ok () ∧ (∀ t, Robust (choiceOfNothing.sample t)) ∧
      (lazy.run (choiceOfNothing.call 1) zeroStart).1 = .error (.illFormed .emptyChoice) ∧
      ∃ p c', choiceOfNothing.Reaches 1 lazy zeroStart p c' ∧ p.Culprit .emptyChoice := by
  intro sound lazy
  have hsound : sound.check = .ok () := by rfl
  have himmediate : sound.Immediate := by unfold Gen.Immediate; decide +kernel
  have hlazy : lazy.check = .ok () := rfl
  have hrobust : ∀ t, Robust (choiceOfNothing.sample t) := fun t => t.elim
  have hfails : (lazy.run (choiceOfNothing.call 1) zeroStart).1
      = .error (.illFormed .emptyChoice) := by rfl
  refine ⟨⟨hsound, himmediate, settles_zero.below, ?_⟩, hlazy, hrobust, hfails, ?_⟩
  · exact ((checks_complete hsound 1).1 himmediate zeroStart).2 settles_zero.below
  · exact (((checks_complete hlazy 1).2 hrobust zeroStart).2 _).1 hfails

end SmlSynth
