/-!
# Weighted selection

A roll in the unit interval, scaled to the total weight, walks along the weights and
stops at the first positive one that covers it. The walk is written for any ordered
numbers, so it can be run on doubles and read over exact fractions.

* `Weights.total`: the sum from left to right.
* `Weights.select`: the position at which the walk stops, the last if it never does.
-/

namespace SmlSynth.Weights

variable {α : Type}

/-- **The total weight**, from left to right. The sum starts at minus zero, which leaves
the first weight as it is. -/
def total [OfNat α 0] [Neg α] [Add α] (weights : List α) : α := weights.foldl (· + ·) (-0)

/-- The steps from the front of `weights` to the first positive weight that brings the roll
to zero or below; `none` if the roll outlasts them all. -/
def walk [OfNat α 0] [Sub α] [LT α] [LE α] [DecidableLT α] [DecidableLE α] (roll : α) :
    List α → Option Nat
  | [] => none
  | w :: ws =>
    let left := roll - w
    if 0 < w ∧ left ≤ 0 then some 0 else (walk left ws).map (· + 1)

/-- **The position that a scaled roll selects.** -/
def select [OfNat α 0] [Sub α] [LT α] [LE α] [DecidableLT α] [DecidableLE α]
    (weights : List α) (roll : α) : Nat :=
  (walk roll weights).getD (weights.length - 1)

/-- The walk stops inside the list. -/
theorem lt_length_of_walk [OfNat α 0] [Sub α] [LT α] [LE α] [DecidableLT α] [DecidableLE α]
    {roll : α} {weights : List α} {i : Nat} (h : walk roll weights = some i) :
    i < weights.length := by
  induction weights generalizing roll i with
  | nil => simp [walk] at h
  | cons w ws ih =>
    simp only [walk] at h
    split at h
    · obtain rfl := Option.some.inj h
      simp
    · obtain ⟨j, hj, rfl⟩ := Option.map_eq_some_iff.1 h
      have := ih hj
      simp only [List.length_cons]
      omega

/-- A selection lies inside a list that is not empty. -/
theorem select_lt_length [OfNat α 0] [Sub α] [LT α] [LE α] [DecidableLT α] [DecidableLE α]
    {weights : List α} (roll : α) (h : 0 < weights.length) :
    select weights roll < weights.length := by
  unfold select
  cases hw : walk roll weights with
  | none => simp only [Option.getD_none]; omega
  | some i => exact lt_length_of_walk hw

end SmlSynth.Weights
