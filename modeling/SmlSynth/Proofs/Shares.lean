import Mathlib.Algebra.Order.BigOperators.Group.List
import Mathlib.Algebra.Order.Field.Basic
import Mathlib.Data.Rat.Cast.Order
import Mathlib.Order.Interval.Set.OrdConnected
import Mathlib.Tactic.NormNum
import SmlSynth.Proofs.Selection

/-!
# The share of each option

Doubles round, exact numbers do not. Over these the walk along the weights compares a roll with
their running sums, so it inverts the distribution that the weights describe.

* `Weights.running`, `Weights.Passes`: the running sums, and the step at which they pass a number.
* `covers_iff`: the positions at which the walk may stop, by running sums.
* `exists_covers`: there is one for every roll, so the last option is no fallback.
* `walk_of_passes`: a roll above zero stops the walk where the running sums pass it.
* `select_share`: what is selected for each roll, and the rolls for which an option is.
-/

namespace SmlSynth.Weights

/-! ## Running sums -/

section Sums

variable {K : Type} [Field K] {weights : List K} {w : K} {i n : Nat}

/-- The sum of the first `n` weights. -/
def running (weights : List K) (n : Nat) : K := (weights.take n).sum

theorem total_eq_sum (weights : List K) : total weights = weights.sum := by
  unfold total
  rw [neg_zero, List.sum_eq_foldl]

theorem running_zero (weights : List K) : running weights 0 = 0 := by simp [running]

theorem running_succ (h : weights[i]? = some w) :
    running weights (i + 1) = running weights i + w := by
  unfold running
  rw [List.take_add_one, h, List.sum_append, Option.toList_some, List.sum_singleton]

/-- Past the end the running sums stay at the total. -/
theorem running_of_length_le (h : weights.length ≤ n) : running weights n = total weights := by
  unfold running
  rw [List.take_of_length_le h, total_eq_sum]

/-- A running sum is what has been taken from the roll. -/
theorem remainder_eq (weights : List K) (roll : K) (n : Nat) :
    remainder weights roll n = roll - running weights n := by
  unfold remainder running
  generalize weights.take n = ws
  induction ws generalizing roll with
  | nil => simp
  | cons w ws ih => rw [List.foldl_cons, ih, List.sum_cons, sub_sub]

end Sums

variable {K : Type} [Field K] [LinearOrder K] [IsStrictOrderedRing K] {weights : List K}
variable {roll x u : K} {i k : Nat}

/-- **The step at which the running sums pass a number**: it lies above the one before, and not
above the one after. -/
def Passes (weights : List K) (x : K) (i : Nat) : Prop :=
  running weights i < x ∧ x ≤ running weights (i + 1)

theorem running_mono (hnonneg : ∀ w ∈ weights, 0 ≤ w) (h : i ≤ k) :
    running weights i ≤ running weights k := by
  refine (List.take_sublist_take_left h).sum_le_sum ?_
  intro w hw
  exact hnonneg w (List.mem_of_mem_take hw)

theorem running_nonneg (hnonneg : ∀ w ∈ weights, 0 ≤ w) (i : Nat) : 0 ≤ running weights i := by
  rw [← running_zero weights]
  exact running_mono hnonneg (Nat.zero_le i)

theorem running_le_total (hnonneg : ∀ w ∈ weights, 0 ≤ w) (i : Nat) :
    running weights i ≤ total weights := by
  rw [← running_of_length_le (le_max_right i weights.length)]
  exact running_mono hnonneg (le_max_left i weights.length)

/-- The weight at a step that passes a number is positive. -/
theorem Passes.weight (h : Passes weights x i) : ∃ w, weights[i]? = some w ∧ 0 < w := by
  have hstep : running weights i < running weights (i + 1) := lt_of_lt_of_le h.1 h.2
  cases hw : weights[i]? with
  | none =>
    have hlen : weights.length ≤ i := List.getElem?_eq_none_iff.1 hw
    rw [running_of_length_le hlen, running_of_length_le (by omega)] at hstep
    exact absurd hstep (lt_irrefl _)
  | some w =>
    rw [running_succ hw] at hstep
    exact ⟨w, rfl, lt_add_iff_pos_right _ |>.1 hstep⟩

omit [IsStrictOrderedRing K] in
/-- **Every number above zero and up to the total is passed.** -/
theorem exists_passes (hpos : 0 < x) (hle : x ≤ total weights) : ∃ i, Passes weights x i := by
  classical
  have hex : ∃ n, x ≤ running weights n :=
    ⟨weights.length, by rw [running_of_length_le le_rfl]; exact hle⟩
  -- the first running sum that reaches the number is not the empty one
  have hzero : ¬ x ≤ running weights 0 := by
    rw [running_zero]
    exact not_le.2 hpos
  obtain ⟨i, hi⟩ : ∃ i, Nat.find hex = i + 1 := by
    refine ⟨Nat.find hex - 1, ?_⟩
    have hne : Nat.find hex ≠ 0 := by
      intro h
      exact hzero (h ▸ Nat.find_spec hex)
    omega
  have hreach : x ≤ running weights (i + 1) := hi ▸ Nat.find_spec hex
  have hbefore : ¬ x ≤ running weights i := Nat.find_min hex (by omega)
  exact ⟨i, not_le.1 hbefore, hreach⟩

/-- A number is passed once. -/
theorem Passes.unique (hnonneg : ∀ w ∈ weights, 0 ≤ w) (hi : Passes weights x i)
    (hk : Passes weights x k) : i = k := by
  have hle : ∀ {i k}, Passes weights x i → Passes weights x k → i ≤ k := by
    intro i k hi hk
    by_contra hlt
    have hsum : running weights (k + 1) ≤ running weights i := running_mono hnonneg (by omega)
    exact absurd (lt_of_lt_of_le hi.1 (le_trans hk.2 hsum)) (lt_irrefl _)
  exact le_antisymm (hle hi hk) (hle hk hi)

/-! ## Where the walk stops -/

/-- **A position covers a roll** if its weight is positive and the running sum up to it reaches the
roll. -/
theorem covers_iff : Covers weights roll i ↔
    (∃ w, weights[i]? = some w ∧ 0 < w) ∧ roll ≤ running weights (i + 1) := by
  unfold Covers
  rw [remainder_eq, sub_nonpos]

theorem Passes.covers (h : Passes weights roll i) : Covers weights roll i :=
  covers_iff.2 ⟨h.weight, h.2⟩

/-- **Some position covers the roll**: the one at which the total is passed, if no other. -/
theorem exists_covers (htotal : 0 < total weights) (hroll : roll ≤ total weights) :
    ∃ i, Covers weights roll i := by
  obtain ⟨i, hi⟩ := exists_passes htotal le_rfl
  exact ⟨i, covers_iff.2 ⟨hi.weight, le_trans hroll hi.2⟩⟩

/-- **The walk stops at the least position that covers the roll.** -/
theorem walk_isLeast (htotal : 0 < total weights) (hroll : roll ≤ total weights) :
    ∃ i, walk roll weights = some i ∧ IsLeast {k | Covers weights roll k} i := by
  rcases walk_spec weights roll with ⟨i, hi, hcovers, hfirst⟩ | ⟨-, hnone⟩
  · refine ⟨i, hi, hcovers, ?_⟩
    intro k hk
    by_contra hlt
    exact hfirst k (by omega) hk
  · obtain ⟨i, hi⟩ := exists_covers htotal hroll
    exact absurd hi (hnone i)

/-- **A roll above zero stops the walk where the running sums pass it.** -/
theorem walk_of_passes (hnonneg : ∀ w ∈ weights, 0 ≤ w) (htotal : 0 < total weights)
    (hroll : roll ≤ total weights) (h : Passes weights roll i) : walk roll weights = some i := by
  obtain ⟨k, hk, hcovers, hleast⟩ := walk_isLeast htotal hroll
  have hle : k ≤ i := hleast h.covers
  -- a covering position before would have to be reached by the running sums before it
  have hge : i ≤ k := by
    by_contra hlt
    have hsum : running weights (k + 1) ≤ running weights i := running_mono hnonneg (by omega)
    have hreach : roll ≤ running weights (k + 1) := (covers_iff.1 hcovers).2
    exact absurd (lt_of_lt_of_le h.1 (le_trans hreach hsum)) (lt_irrefl _)
  rw [hk, le_antisymm hle hge]

omit [IsStrictOrderedRing K] in
theorem select_of_walk (h : walk roll weights = some i) : select weights roll = i := by
  unfold select
  rw [h, Option.getD_some]

/-! ## Shares -/

/-- The rolls of the unit interval for which an option is selected. -/
def chosen (weights : List K) (i : Nat) : Set K :=
  {u | 0 ≤ u ∧ u < 1 ∧ select weights (u * total weights) = i}

theorem scaled_lt (htotal : 0 < total weights) (hu : u < 1) :
    u * total weights < total weights := by
  calc u * total weights < 1 * total weights := mul_lt_mul_of_pos_right hu htotal
    _ = total weights := one_mul _

/-- An option is chosen for a roll above zero if the running sums pass the roll there. -/
theorem mem_chosen_iff (hnonneg : ∀ w ∈ weights, 0 ≤ w) (htotal : 0 < total weights)
    (hpos : 0 < u) (hu : u < 1) :
    u ∈ chosen weights i ↔ Passes weights (u * total weights) i := by
  have hlt := scaled_lt htotal hu
  obtain ⟨k, hk⟩ := exists_passes (mul_pos hpos htotal) hlt.le
  have hselect := select_of_walk (walk_of_passes hnonneg htotal hlt.le hk)
  constructor
  · rintro ⟨-, -, rfl⟩
    rw [hselect]
    exact hk
  · intro hi
    rw [hi.unique hnonneg hk]
    exact ⟨hpos.le, hu, hselect⟩

/-- Nothing comes before the option that is chosen for the roll zero. -/
theorem running_of_zero_mem (hnonneg : ∀ w ∈ weights, 0 ≤ w) (htotal : 0 < total weights)
    (h : (0 : K) ∈ chosen weights i) : running weights i = 0 := by
  obtain ⟨-, -, hselect⟩ := h
  rw [zero_mul] at hselect
  obtain ⟨k, hk, -, hleast⟩ := walk_isLeast htotal htotal.le
  obtain rfl : k = i := (select_of_walk hk).symm.trans hselect
  by_contra hne
  -- a positive sum in front of it would be passed earlier
  have hpos : 0 < running weights k := lt_of_le_of_ne (running_nonneg hnonneg k) (Ne.symm hne)
  obtain ⟨j, hj⟩ := exists_passes hpos (running_le_total hnonneg k)
  have hkj : k ≤ j := hleast (covers_iff.2 ⟨hj.weight, le_trans hpos.le hj.2⟩)
  exact absurd (lt_of_le_of_lt (running_mono hnonneg hkj) hj.1) (lt_irrefl _)

/-- **An option is chosen between the running sums before and after it**, as shares of the
total. -/
theorem chosen_subset (hnonneg : ∀ w ∈ weights, 0 ≤ w) (htotal : 0 < total weights) :
    chosen weights i ⊆
      Set.Icc (running weights i / total weights) (running weights (i + 1) / total weights) := by
  intro u hmem
  have hu : 0 ≤ u := hmem.1
  have hu' : u < 1 := hmem.2.1
  rw [Set.mem_Icc, div_le_iff₀ htotal, le_div_iff₀ htotal]
  rcases eq_or_lt_of_le hu with rfl | hpos
  · have hzero := running_of_zero_mem hnonneg htotal hmem
    have hmono : running weights i ≤ running weights (i + 1) := running_mono hnonneg (by omega)
    rw [zero_mul]
    exact ⟨hzero.le, hzero ▸ hmono⟩
  · have hpass := (mem_chosen_iff hnonneg htotal hpos hu').1 hmem
    exact ⟨hpass.1.le, hpass.2⟩

/-- **All rolls strictly between are its own.** -/
theorem subset_chosen (hnonneg : ∀ w ∈ weights, 0 ≤ w) (htotal : 0 < total weights) :
    Set.Ioo (running weights i / total weights) (running weights (i + 1) / total weights) ⊆
      chosen weights i := by
  rintro u ⟨hlow, hhigh⟩
  rw [div_lt_iff₀ htotal] at hlow
  rw [lt_div_iff₀ htotal] at hhigh
  have hpos : 0 < u :=
    (mul_pos_iff_of_pos_right htotal).1 (lt_of_le_of_lt (running_nonneg hnonneg i) hlow)
  have hu : u < 1 := by
    have hlt : u * total weights < 1 * total weights := by
      rw [one_mul]
      exact lt_of_lt_of_le hhigh (running_le_total hnonneg (i + 1))
    exact lt_of_mul_lt_mul_right hlt htotal.le
  exact (mem_chosen_iff hnonneg htotal hpos hu).2 ⟨hlow, hhigh.le⟩

theorem ordConnected_chosen (hnonneg : ∀ w ∈ weights, 0 ≤ w) (htotal : 0 < total weights) :
    (chosen weights i).OrdConnected := by
  refine Set.ordConnected_iff.2 ?_
  rintro u hu v hv - y ⟨huy, hyv⟩
  rcases eq_or_lt_of_le huy with rfl | hlt
  · exact hu
  -- above the roll `u` the one at `y` is passed no earlier, and below `v` no later
  have hpos : 0 < y := lt_of_le_of_lt hu.1 hlt
  have hy : y < 1 := lt_of_le_of_lt hyv hv.2.1
  have hlow := (div_le_iff₀ htotal).1 (chosen_subset hnonneg htotal hu).1
  have hhigh := (le_div_iff₀ htotal).1 (chosen_subset hnonneg htotal hv).2
  refine (mem_chosen_iff hnonneg htotal hpos hy).2 ⟨?_, ?_⟩
  · exact lt_of_le_of_lt hlow (mul_lt_mul_of_pos_right hlt htotal)
  · exact le_trans (mul_le_mul_of_nonneg_right hyv htotal.le) hhigh

/-- **A selection inverts the distribution of the weights.** Over exact numbers, the walk stops for
every roll of the unit interval, at the least position with a positive weight whose running sum
reaches the scaled roll; for a roll above zero it is the one step at which the running sums
pass it. So the rolls for which an option is selected form an interval, from the share of those
before it to the share with it, whose length is the option's share of the total. -/
theorem select_share (hnonneg : ∀ w ∈ weights, 0 ≤ w) (htotal : 0 < total weights) :
    (∀ u, 0 ≤ u → u < 1 →
      walk (u * total weights) weights = some (select weights (u * total weights)) ∧
      IsLeast {i | (∃ w, weights[i]? = some w ∧ 0 < w) ∧
          u * total weights ≤ running weights (i + 1)}
        (select weights (u * total weights)) ∧
      (0 < u → ∀ i, running weights i < u * total weights ∧
          u * total weights ≤ running weights (i + 1) ↔
        i = select weights (u * total weights))) ∧
    ∀ i w, weights[i]? = some w →
      let low := running weights i / total weights
      let high := running weights (i + 1) / total weights
      high - low = w / total weights ∧ (chosen weights i).OrdConnected ∧
        Set.Ioo low high ⊆ chosen weights i ∧ chosen weights i ⊆ Set.Icc low high := by
  refine ⟨fun u hu hu' => ?_, fun i w hw => ?_⟩
  · obtain ⟨i, hwalk, hleast⟩ := walk_isLeast htotal (scaled_lt htotal hu').le
    have hselect := select_of_walk hwalk
    refine ⟨by rw [hwalk, hselect], ?_, fun hpos k => ?_⟩
    · rw [hselect]
      simpa only [covers_iff] using hleast
    · constructor
      · intro hk
        exact ((mem_chosen_iff hnonneg htotal hpos hu').2 hk).2.2.symm
      · rintro rfl
        exact (mem_chosen_iff hnonneg htotal hpos hu').1 ⟨hu, hu', rfl⟩
  · refine ⟨?_, ordConnected_chosen hnonneg htotal, subset_chosen hnonneg htotal,
      chosen_subset hnonneg htotal⟩
    rw [← sub_div, running_succ hw, add_sub_cancel_left]

/-- Of the weights zero, one half, zero and three, a roll on the boundary between the positive ones
selects the one before it, and the roll zero passes over the zero in front. -/
theorem select_share_boundary :
    let weights : List ℚ := [0, 1 / 2, 0, 3]
    (∀ w ∈ weights, 0 ≤ w) ∧ 0 < total weights ∧
    select weights (1 / 7 * total weights) = 1 ∧ select weights (0 * total weights) = 1 ∧
    IsLeast {i | (∃ w, weights[i]? = some w ∧ 0 < w) ∧
        1 / 7 * total weights ≤ running weights (i + 1)} 1 ∧
    running weights 4 / total weights - running weights 3 / total weights = 3 / total weights ∧
    (chosen weights 3).OrdConnected := by
  intro weights
  have hnonneg : ∀ w ∈ weights, 0 ≤ w := by decide +kernel
  have htotal : 0 < total weights := by decide +kernel
  have hboundary : select weights (1 / 7 * total weights) = 1 := by decide +kernel
  have hzero : select weights (0 * total weights) = 1 := by decide +kernel
  obtain ⟨hrolls, hshares⟩ := select_share hnonneg htotal
  obtain ⟨-, hleast, -⟩ := hrolls (1 / 7) (by norm_num) (by norm_num)
  rw [hboundary] at hleast
  obtain ⟨hlength, hinterval, -, -⟩ := hshares 3 3 rfl
  exact ⟨hnonneg, htotal, hboundary, hzero, hleast, hlength, hinterval⟩

end SmlSynth.Weights
