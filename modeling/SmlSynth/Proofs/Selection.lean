import SmlSynth.Proofs.Plan
import SmlSynth.Proofs.Termination

/-!
# What a weighted choice selects

The walk along the weights takes them from the roll one after another. It stops at the first
positive weight that leaves nothing, so a weight of zero stops no walk. Rounding may keep the
remainder positive to the end, and a total that is infinite does; then the last option is taken,
whatever its weight.

* `Weights.remainder`: what is left of a roll after the first weights.
* `Weights.Covers`: the positions at which the walk may stop.
* `walk_spec`, `select_spec`: the walk stops at the first of these.
* `weighted_positive`: a weighted choice takes an option of positive weight, or the last one.
-/

namespace SmlSynth

namespace Weights

variable {α : Type} [OfNat α 0] [Sub α] [LT α] [LE α] {weights : List α} {roll w : α} {i : Nat}

/-- **What is left of a roll** after the first `n` weights. -/
def remainder (weights : List α) (roll : α) (n : Nat) : α := (weights.take n).foldl (· - ·) roll

/-- **A position that covers a roll**: its weight is positive and leaves nothing. -/
def Covers (weights : List α) (roll : α) (i : Nat) : Prop :=
  (∃ w, weights[i]? = some w ∧ 0 < w) ∧ remainder weights roll (i + 1) ≤ 0

theorem covers_cons_zero : Covers (w :: weights) roll 0 ↔ 0 < w ∧ roll - w ≤ 0 := by
  constructor
  · rintro ⟨⟨v, hv, hpos⟩, hleft⟩
    obtain rfl := Option.some.inj hv
    exact ⟨hpos, hleft⟩
  · rintro ⟨hpos, hleft⟩
    exact ⟨⟨w, rfl, hpos⟩, hleft⟩

theorem covers_cons_succ : Covers (w :: weights) roll (i + 1) ↔ Covers weights (roll - w) i :=
  Iff.rfl

variable [DecidableLT α] [DecidableLE α]

/-- Where the first weight does not cover the roll, the walk goes on with what is left of it. -/
theorem walk_cons_of_not (h : ¬ (0 < w ∧ roll - w ≤ 0)) :
    walk roll (w :: weights) = (walk (roll - w) weights).map (· + 1) := if_neg h

/-- **Where the walk stops**: at the first position that covers the roll, if there is one. -/
theorem walk_spec (weights : List α) (roll : α) :
    (∃ i, walk roll weights = some i ∧ Covers weights roll i ∧
        ∀ k < i, ¬ Covers weights roll k) ∨
      (walk roll weights = none ∧ ∀ k, ¬ Covers weights roll k) := by
  induction weights generalizing roll with
  | nil =>
    refine .inr ⟨rfl, fun k hk => ?_⟩
    obtain ⟨⟨w, hw, -⟩, -⟩ := hk
    cases hw
  | cons w ws ih =>
    by_cases hstop : 0 < w ∧ roll - w ≤ 0
    · exact .inl ⟨0, if_pos hstop, covers_cons_zero.2 hstop,
        fun k hk => absurd hk (Nat.not_lt_zero k)⟩
    -- the other positions are those of the rest, with what the first weight leaves
    have hzero : ¬ Covers (w :: ws) roll 0 := fun h => hstop (covers_cons_zero.1 h)
    rw [walk_cons_of_not hstop]
    rcases ih (roll - w) with ⟨i, hi, hcovers, hfirst⟩ | ⟨hnone, hall⟩
    · refine .inl ⟨i + 1, by rw [hi]; rfl, covers_cons_succ.2 hcovers, fun k hk => ?_⟩
      cases k with
      | zero => exact hzero
      | succ k => rw [covers_cons_succ]; exact hfirst k (by omega)
    · refine .inr ⟨by rw [hnone]; rfl, fun k => ?_⟩
      cases k with
      | zero => exact hzero
      | succ k => rw [covers_cons_succ]; exact hall k

/-- **What is selected**: the first position that covers the roll, or else the last one. -/
theorem select_spec (weights : List α) (roll : α) :
    (Covers weights roll (select weights roll) ∧
        ∀ k < select weights roll, ¬ Covers weights roll k) ∨
      (select weights roll = weights.length - 1 ∧ ∀ k, ¬ Covers weights roll k) := by
  unfold select
  rcases walk_spec weights roll with ⟨i, hi, hcovers, hfirst⟩ | ⟨hnone, hall⟩
  · rw [hi]; exact .inl ⟨hcovers, hfirst⟩
  · rw [hnone]; exact .inr ⟨rfl, hall⟩

end Weights

open Sampler Weights

variable {σ ρ α : Type} [Source σ]

/-- A weighted choice takes one word and runs the option that the word's double selects. -/
theorem byWeight_of_select {options : List (Float × Sampler σ α)} {o : Float × Sampler σ α}
    {c : Context σ} (htotal : 0 < total (options.map (·.1)))
    (ho : options[select (options.map (·.1))
      (unitOfWord (Source.next c.source).1 * total (options.map (·.1)))]? = some o) :
    byWeight options c = o.2 (unit c).2 := by
  obtain ⟨hlt, hget⟩ := List.getElem?_eq_some_iff.1 ho
  rw [byWeight_of_pos (Nat.zero_lt_of_lt hlt) htotal, unit_bind, List.get_eq_getElem, hget]

/-- **A weighted choice takes an option of positive weight, or the last one.** The choice that is
accepted takes one word. It runs the first option of positive weight that leaves nothing of
the roll. Only if none does, it runs the last option, so no other option of weight zero is
taken. -/
theorem weighted_positive {options : List (Float × Gen ρ)} (hne : options ≠ [])
    (htotal : 0 < total (options.map (·.1))) (call : ρ → Sampler σ Text) (c : Context σ) :
    let weights := options.map (·.1)
    let roll := unitOfWord (Source.next c.source).1 * total weights
    let i := select weights roll
    (Gen.weighted options).fault? = none ∧
    ∃ o, options[i]? = some o ∧ (Gen.weighted options).run call c = o.2.run call (unit c).2 ∧
      ((0 < o.1 ∧ Covers weights roll i ∧ ∀ k < i, ¬ Covers weights roll k) ∨
        (i + 1 = options.length ∧ ∀ k, ¬ Covers weights roll k)) := by
  intro weights roll i
  have hlength : weights.length = options.length := List.length_map ..
  have hpos : 0 < options.length := List.length_pos_iff.2 hne
  have hlt : i < options.length := hlength ▸ select_lt_length roll (hlength ▸ hpos)
  obtain ⟨o, ho⟩ : ∃ o, options[i]? = some o := ⟨_, List.getElem?_eq_getElem hlt⟩
  have hrun : (Gen.weighted options).run call c = o.2.run call (unit c).2 := by
    have hmap : (options.map fun o => (o.1, Gen.run call o.2)).map (·.1) = weights := by
      rw [List.map_map]; rfl
    rw [Gen.run, Gen.runOptions_eq_map]
    refine byWeight_of_select (o := (o.1, Gen.run call o.2)) (by rwa [hmap]) ?_
    rw [hmap, List.getElem?_map]
    exact congrArg (Option.map _) ho
  refine ⟨?_, o, ho, hrun, ?_⟩
  · have hempty : options.isEmpty = false := by rw [List.isEmpty_eq_false_iff]; exact hne
    simp only [Gen.fault?, hempty, Bool.false_eq_true, if_false]
    exact if_pos htotal
  rcases select_spec weights roll with ⟨hcovers, hfirst⟩ | ⟨hlast, hnone⟩
  · obtain ⟨w, hw, hwpos⟩ := hcovers.1
    -- the weight at the position is that of the option
    have hweight : weights[i]? = some o.1 := by rw [List.getElem?_map, ho]; rfl
    obtain rfl : o.1 = w := Option.some.inj (hweight.symm.trans hw)
    exact .inl ⟨hwpos, hcovers, hfirst⟩
  · have hlength' : i + 1 = options.length := by
      have hi : i = options.length - 1 := hlength ▸ hlast
      omega
    exact .inr ⟨hlength', hnone⟩

/-- On the tape of zeros the weight of zero in front is passed over. -/
theorem weighted_positive_zero :
    let options : List (Float × Gen Empty) := [(0, .lit "x"), (0.5, .lit "y"), (0.5, .lit "z")]
    options ≠ [] ∧ 0 < total (options.map (·.1)) ∧
    (∃ o, options[1]? = some o ∧
      (Gen.weighted options).run (fun s => s.elim) zeroStart
        = o.2.run (fun s => s.elim) (unit zeroStart).2 ∧ 0 < o.1) ∧
    ((Gen.weighted options).run (fun s => s.elim) zeroStart).1 = .ok ['y'] := by
  intro options
  have hne : options ≠ [] := List.cons_ne_nil _ _
  have htotal : 0 < total (options.map (·.1)) := by decide +kernel
  have hselect : select (options.map (·.1))
      (unitOfWord (Source.next zeroStart.source).1 * total (options.map (·.1))) = 1 := by
    decide +kernel
  obtain ⟨-, o, ho, hrun, -⟩ := weighted_positive hne htotal (fun s => s.elim) zeroStart
  rw [hselect] at ho
  have hoption : options[1]? = some (0.5, .lit "y") := rfl
  obtain rfl : (0.5, .lit "y") = o := Option.some.inj (hoption.symm.trans ho)
  have hweight : (0 : Float) < 0.5 := by decide +kernel
  exact ⟨hne, htotal, ⟨_, ho, hrun, hweight⟩, congrArg Prod.fst hrun⟩

/-- **A weight of zero is taken**, though all weights are finite and none is negative: with a total
that overflows, and with a finite one that rounding makes too large. -/
theorem weight_zero_selected :
    let huge := Float.ofBits 0x7FEFFFFFFFFFFFFF
    let tiny := Float.ofBits 0x3CA0000000000001
    let overflowing : List Float := [huge, huge, 0]
    let rounded : List Float := [1, tiny, tiny, tiny, 0]
    ((∀ w ∈ overflowing, w.isFinite = true ∧ 0 ≤ w) ∧ 0 < total overflowing ∧
      select overflowing (unitOfWord 0 * total overflowing) = 2 ∧ overflowing[2]? = some 0) ∧
    ((∀ w ∈ rounded, w.isFinite = true ∧ 0 ≤ w) ∧ 0 < total rounded ∧
      (total rounded).isFinite = true ∧
      select rounded (unitOfWord 0xFFFFFFFFFFFFFFFF * total rounded) = 4 ∧
      rounded[4]? = some 0) ∧
    ¬ (0 : Float) < 0 := by
  refine ⟨⟨?_, ?_, ?_, rfl⟩, ⟨?_, ?_, ?_, ?_, rfl⟩, ?_⟩ <;> decide +kernel

end SmlSynth
