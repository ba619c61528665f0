import SmlSynth.Proofs.Doubles
import SmlSynth.Proofs.Fuel
import SmlSynth.Proofs.Laws

/-!
# The ends of the depth gate

Between the depths zero and the limit a gate leaves it to the roll which production runs. At both
ends it does not: at the limit it takes the terminal production without a roll, and at depth zero
the probability is one, which no roll reaches.

* `Context.rolled`, `unit_rolled`: a roll takes one word, and is below one.
* `Context.recursiveProbability_zero`: the probability at depth zero is one.
* `gated_of_depth_zero`: a gate at depth zero rolls, and then takes its recursive production.
* `sample_rule`, `sample_body`: a reference to a rule is the gate between its two productions.
* `gate_decided`: the two ends, for every rule and every gate.
-/

namespace SmlSynth

variable {σ : Type} [Source σ]

/-! ## Rolls -/

/-- **The context after a roll**: it has taken one word, and nothing else has changed. -/
def Context.rolled (c : Context σ) : Context σ := { c with source := (Source.next c.source).2 }

/-- **A roll takes one word, and is below one.** -/
theorem Sampler.unit_rolled (c : Context σ) :
    ∃ roll, unit c = (.ok roll, c.rolled) ∧ roll < 1.0 :=
  ⟨_, rfl, Double.unitOfWord_lt_one (Source.next c.source).1⟩

namespace Context

variable {σ : Type} {c : Context σ}

theorem not_atLimit_of_depth_zero (hdepth : c.depth = 0) (hpos : 0 < c.bounds.maxDepth) :
    ¬ c.atLimit = true := by
  intro h
  have hle : c.bounds.maxDepth ≤ c.depth := of_decide_eq_true h
  omega

/-- **At depth zero the probability of a recursive production is one**, whatever the limit: zero over
any count is zero, and no rounding has a part in it. -/
theorem recursiveProbability_zero (hdepth : c.depth = 0) (hpos : 0 < c.bounds.maxDepth)
    (hword : c.bounds.maxDepth < wordCount) : c.recursiveProbability = 1.0 := by
  have hlim := not_atLimit_of_depth_zero hdepth hpos
  have hbelow : ¬ (c.bounds.maxDepth = 0 || c.atLimit) = true := by
    simp [hlim, Nat.ne_of_gt hpos]
  -- the limit is a word above zero
  have hlimit : UInt64.ofNat c.bounds.maxDepth ≠ 0 := by
    intro h
    have hzero : (UInt64.ofNat c.bounds.maxDepth).toNat = 0 := congrArg UInt64.toNat h
    rw [UInt64.toNat_ofNat_of_lt' hword] at hzero
    omega
  have hratio : (UInt64.ofNat c.depth).toFloat / (UInt64.ofNat c.bounds.maxDepth).toFloat = 0.0 := by
    rw [hdepth]
    exact Double.zero_div_toFloat hlimit
  have hone : ((1.0 : Float) - 0.0) * (1.0 - 0.0) = 1.0 := by decide +kernel
  unfold recursiveProbability
  rw [if_neg hbelow, hratio]
  exact hone

end Context

namespace Sampler

variable {c : Context σ} {s s' : Sampler σ Text}

/-! ## Gates -/

/-- **A gate at depth zero rolls once, and takes its recursive production whatever the roll.** -/
theorem gated_of_depth_zero (hdepth : c.depth = 0) (hpos : 0 < c.bounds.maxDepth)
    (hword : c.bounds.maxDepth < wordCount) (terminal recursive : Sampler σ Text) :
    gated terminal recursive c = deeper recursive c.rolled := by
  have hroll : unitOfWord (Source.next c.source).1 < c.recursiveProbability := by
    rw [Context.recursiveProbability_zero hdepth hpos hword]
    exact Double.unitOfWord_lt_one _
  rw [gated_of_not_atLimit (Context.not_atLimit_of_depth_zero hdepth hpos), if_pos hroll]
  rfl

omit [Source σ] in
/-- What runs one level deeper matters only at that level. -/
theorem deeper_congr (h : s c.descend = s' c.descend) : deeper s c = deeper s' c := by
  unfold deeper
  rw [h]

/-- **A reference to a rule is sampled like its body.** -/
theorem sample_rule (r : Rule) (c : Context σ) : (Phrase.rule r).sample c = r.body.sample c := by
  have hfuel := (sample_fuel (Phrase.rule r) c (Nat.le_succ (fuelFor c))).1
  have hbody : (Phrase.rule r).run (sml.call (fuelFor c + 1)) c = r.body.sample c := by
    rw [Phrase.rule, Gen.run_ref_rule]
    exact (Gen.alike_delayed (wellFormed_body r).check).run (sml.call (fuelFor c)) c
  exact hfuel.symm.trans hbody

theorem sample_body (r : Rule) (c : Context σ) :
    r.body.sample c =
      gated (r.terminal.run (sml.call (fuelFor c))) (r.recursive.run (sml.call (fuelFor c))) c := by
  unfold Phrase.sample
  rw [r.body_split]
  rfl

/-- **A rule at the limit is its terminal production.** -/
theorem sample_body_of_atLimit (h : c.atLimit = true) (r : Rule) :
    r.body.sample c = r.terminal.sample c := by
  rw [sample_body, gated_of_atLimit h]
  rfl

/-- **A rule at depth zero is its recursive production**, a roll later and a level deeper. -/
theorem sample_body_of_depth_zero (hdepth : c.depth = 0) (hpos : 0 < c.bounds.maxDepth)
    (hword : c.bounds.maxDepth < wordCount) (r : Rule) :
    r.body.sample c = deeper r.recursive.sample c.rolled := by
  rw [sample_body, gated_of_depth_zero hdepth hpos hword]
  -- a level deeper less fuel would do
  have hfuel : fuelFor c.rolled.descend ≤ fuelFor c := by
    show 2 * (c.bounds.maxDepth - (c.depth + 1) + 1) ≤ 2 * (c.bounds.maxDepth - c.depth + 1)
    omega
  exact deeper_congr (sample_fuel r.recursive c.rolled.descend hfuel).1

end Sampler

open Sampler

/-! ## Both ends -/

/-- **The gate is decided at both ends.** At the limit and beyond, every rule does what its terminal
production does, with the same text and the same context after it, and so does every other gate: no
draw is spent. At depth zero the probability is one and a roll is below it. So every rule and every
other gate takes one word for the roll and runs its recursive production at depth one. A gate between
lists picks among the terminal or among the recursive ones.

The limit is a number that a word holds. -/
theorem gate_decided :
    (∀ c : Context σ, c.bounds.maxDepth ≤ c.depth →
      (∀ r : Rule, (Phrase.rule r).sample c = r.terminal.sample c ∧
        r.body.sample c = r.terminal.sample c) ∧
      ∀ (ρ : Type) (call : ρ → Sampler σ Text),
        (∀ terminal recursive : Gen ρ,
          (Gen.depthChoice terminal recursive).run call c = terminal.run call c) ∧
        ∀ terminals recursives : List (Gen ρ),
          (Gen.depthChoiceAmong terminals recursives).run call c =
            anyOf (terminals.map (Gen.run call)) .noTerminals c) ∧
    ∀ c : Context σ, c.depth = 0 → 0 < c.bounds.maxDepth → c.bounds.maxDepth < wordCount →
      (c.recursiveProbability = 1.0 ∧ (∃ roll, unit c = (.ok roll, c.rolled) ∧ roll < 1.0) ∧
        c.rolled.descend.depth = 1) ∧
      (∀ r : Rule, (Phrase.rule r).sample c = deeper r.recursive.sample c.rolled ∧
        r.body.sample c = deeper r.recursive.sample c.rolled) ∧
      ∀ (ρ : Type) (call : ρ → Sampler σ Text),
        (∀ terminal recursive : Gen ρ,
          (Gen.depthChoice terminal recursive).run call c = deeper (recursive.run call) c.rolled) ∧
        ∀ terminals recursives : List (Gen ρ),
          (Gen.depthChoiceAmong terminals recursives).run call c =
            deeper (anyOf (recursives.map (Gen.run call)) .noRecursives) c.rolled := by
  refine ⟨fun c hc => ?_, fun c hdepth hpos hword => ?_⟩
  · have hlim : c.atLimit = true := decide_eq_true hc
    have hbody := sample_body_of_atLimit hlim
    refine ⟨fun r => ⟨(sample_rule r c).trans (hbody r), hbody r⟩, fun ρ call => ⟨?_, ?_⟩⟩
    · intro terminal recursive
      rw [Gen.run, gated_of_atLimit hlim]
    · intro terminals recursives
      rw [Gen.run, gated_of_atLimit hlim, Gen.runAll_eq_map]
  · have hbody := sample_body_of_depth_zero hdepth hpos hword
    have hstart : c.rolled.descend.depth = 1 := congrArg (· + 1) hdepth
    refine ⟨⟨Context.recursiveProbability_zero hdepth hpos hword, unit_rolled c, hstart⟩,
      fun r => ⟨(sample_rule r c).trans (hbody r), hbody r⟩, fun ρ call => ⟨?_, ?_⟩⟩
    · intro terminal recursive
      rw [Gen.run, gated_of_depth_zero hdepth hpos hword]
    · intro terminals recursives
      rw [Gen.run, gated_of_depth_zero hdepth hpos hword, Gen.runAll_eq_map recursives]

/-- With the greatest roll there is, a gate still takes its recursive production at depth zero. A level
deeper it takes the terminal one, and leaves the context as it is. -/
theorem gate_decided_greatest_roll :
    let start : Context Tape := ⟨Tape.constant (0 - 1), ⟨1, 1⟩, 0, 0, 0⟩
    let limit : Context Tape := ⟨Tape.constant (0 - 1), ⟨1, 1⟩, 0, 1, 1⟩
    let gate : Gen Empty := .depthChoice (.lit "leaf") (.lit "node")
    (limit.bounds.maxDepth ≤ limit.depth ∧
      (Phrase.rule .dec).sample limit = Phrase.simpleDec.sample limit ∧
      gate.run Empty.elim limit = (.ok "leaf".toList, limit)) ∧
    (start.depth = 0 ∧ 0 < start.bounds.maxDepth ∧ start.bounds.maxDepth < wordCount ∧
      (Phrase.rule .dec).sample start = deeper Rule.dec.recursive.sample start.rolled ∧
      (gate.run Empty.elim start).1 = .ok "node".toList ∧
      (gate.run Empty.elim start).2.source = (Source.next start.source).2) := by
  intro start limit gate
  have hlim : limit.bounds.maxDepth ≤ limit.depth := Nat.le_refl _
  have hpos : 0 < start.bounds.maxDepth := Nat.one_pos
  have hword : start.bounds.maxDepth < wordCount := by decide
  obtain ⟨hrule, hgate⟩ := gate_decided.1 limit hlim
  obtain ⟨-, hrule', hgate'⟩ := gate_decided.2 start rfl hpos hword
  have hleaf := (hgate Empty Empty.elim).1 (.lit "leaf") (.lit "node")
  have hnode := (hgate' Empty Empty.elim).1 (.lit "leaf") (.lit "node")
  exact ⟨⟨hlim, (hrule .dec).1, hleaf⟩, rfl, hpos, hword, (hrule' .dec).1,
    congrArg Prod.fst hnode, congrArg (·.2.source) hnode⟩

end SmlSynth
