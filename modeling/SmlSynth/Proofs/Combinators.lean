import SmlSynth.Proofs.Frame

/-!
# What a successful combination went through

A combination of samplers that succeeds has run some of its parts, each from a context with the
same frame, and its text is put together from theirs.

* `upTo_ok`, `repeatCount_ok`: the numbers that a range yields.
* `anyOf_ok`, `byWeight_ok`: one of the options ran.
* `gated_ok`: the terminal production ran, or the recursive one a level deeper.
* `repeated_ok`, `separated_ok`: the text is that of as many runs as were asked for.
-/

namespace SmlSynth.Sampler

open Context

variable {σ α : Type} [Source σ] {c : Context σ}

/-! ## Numbers -/

theorem upTo_ok {low high n : Nat} (h : (upTo low high c).1 = .ok n) :
    low ≤ n ∧ n ≤ max low high := by
  unfold upTo at h
  split at h
  · obtain ⟨i, -, hi⟩ := of_bind_ok h
    have hn : low + i.val = n := Except.ok.inj hi
    have := i.isLt
    omega
  · have hn : low = n := Except.ok.inj h
    omega

/-- **A repetition count** lies between the least one and the bound, or is the least one if that
is greater. -/
theorem repeatCount_ok {least n : Nat} (h : (repeatCount least c).1 = .ok n) :
    least ≤ n ∧ n ≤ max least c.bounds.maxRepeat :=
  upTo_ok (c := c) h

/-! ## Choices -/

theorem element_ok {items : List α} {hpos : 0 < items.length} {a : α}
    (h : (element items hpos c).1 = .ok a) : a ∈ items := by
  obtain ⟨i, -, hi⟩ := of_bind_ok h
  have ha : items[i] = a := Except.ok.inj hi
  rw [← ha]; exact List.getElem_mem i.isLt

/-- **The option that a uniform choice ran.** -/
theorem anyOf_ok {options : List (Sampler σ α)} {e : GenError} {a : α}
    (h : (anyOf options e c).1 = .ok a) :
    ∃ s ∈ options, ∃ c', Kept c c' ∧ (s c').1 = .ok a := by
  by_cases hpos : 0 < options.length
  · rw [anyOf_of_pos hpos] at h
    obtain ⟨i, -, hi⟩ := of_bind_ok h
    exact ⟨_, List.getElem_mem i.isLt, _, steady_closed.below _ _ c, hi⟩
  · unfold anyOf at h; rw [dif_neg hpos] at h; cases h

/-- **The option that a weighted choice ran.** -/
theorem byWeight_ok {options : List (Float × Sampler σ α)} {a : α}
    (h : (byWeight options c).1 = .ok a) :
    ∃ o ∈ options, ∃ c', Kept c c' ∧ (o.2 c').1 = .ok a := by
  unfold byWeight at h
  split at h
  · dsimp only at h
    split at h
    · obtain ⟨roll, -, hroll⟩ := of_bind_ok h
      exact ⟨_, List.get_mem _ _, _, steady_unit c, hroll⟩
    · cases h
  · cases h

/-- **The production that the gate let through**: the terminal one, or below the limit the
recursive one with a level less. -/
theorem gated_ok {terminal recursive : Sampler σ α} {a : α}
    (h : (gated terminal recursive c).1 = .ok a) :
    (∃ c', Kept c c' ∧ (terminal c').1 = .ok a) ∨
      ∃ c', c'.bounds = c.bounds ∧ c.levels = c'.levels + 1 ∧ (recursive c').1 = .ok a := by
  by_cases hc : c.atLimit = true
  · rw [gated_of_atLimit hc] at h; exact .inl ⟨c, .refl c, h⟩
  rw [gated_of_not_atLimit hc] at h
  have hu : Kept c (unit c).2 := steady_unit c
  split at h
  · -- the recursive production runs a level deeper than the context after the draw
    have hlevels : (unit c).2.levels = (unit c).2.descend.levels + 1 :=
      levels_descend (hu.atLimit ▸ hc)
    exact .inr ⟨(unit c).2.descend, hu.bounds, hu.levels ▸ hlevels, h⟩
  · exact .inl ⟨_, hu, h⟩

/-! ## Repetitions -/

omit [Source σ] in
/-- **The texts of a repetition.** -/
theorem repeated_ok {inner : Sampler σ Text} (hs : Steady inner) {n : Nat} {t : Text}
    (h : (repeated n inner c).1 = .ok t) :
    ∃ ts : List Text, ts.length = n ∧ t = ts.flatten ∧
      ∀ u ∈ ts, ∃ c', Kept c c' ∧ (inner c').1 = .ok u := by
  induction n generalizing c t with
  | zero =>
    have ht : [] = t := Except.ok.inj h
    exact ⟨[], rfl, ht.symm, fun u hu => by cases hu⟩
  | succ n ih =>
    obtain ⟨u, hu, h⟩ := of_bind_ok h
    obtain ⟨v, hv, h⟩ := of_bind_ok h
    have ht : u ++ v = t := Except.ok.inj h
    obtain ⟨ts, hlen, hflat, hts⟩ := ih hv
    refine ⟨u :: ts, by rw [List.length_cons, hlen], by rw [← ht, hflat]; rfl, fun w hw => ?_⟩
    rcases List.mem_cons.1 hw with rfl | hw
    · exact ⟨c, .refl c, hu⟩
    · obtain ⟨c', hc', hw⟩ := hts w hw
      exact ⟨c', (hs c).trans hc', hw⟩

omit [Source σ] in
/-- **The texts of a repetition with separators**: a first one, and then as many as are left, each
after a separator. -/
theorem separated_ok {inner sep : Sampler σ Text} (hs : Steady inner) (hsep : Steady sep) {n : Nat}
    {t : Text} (h : (separated (n + 1) inner sep c).1 = .ok t) :
    ∃ first : Text, ∃ ts : List Text, ts.length = n ∧ t = first ++ ts.flatten ∧
      (inner c).1 = .ok first ∧
      ∀ u ∈ ts, ∃ s v, u = s ++ v ∧ (∃ c', Kept c c' ∧ (sep c').1 = .ok s) ∧
        ∃ c', Kept c c' ∧ (inner c').1 = .ok v := by
  obtain ⟨first, hfirst, h⟩ := of_bind_ok h
  obtain ⟨u, hu, h⟩ := of_bind_ok h
  have ht : first ++ u = t := Except.ok.inj h
  -- after the first text the rest is a repetition of pairs
  have hpair : Steady (do let s ← sep; let t ← inner; return s ++ t) :=
    steady_bind hsep fun _ => steady_bind hs fun _ c => .refl c
  obtain ⟨ts, hlen, hflat, hts⟩ := repeated_ok hpair hu
  refine ⟨first, ts, hlen, by rw [← ht, hflat], hfirst, fun w hw => ?_⟩
  obtain ⟨c', hc', hw⟩ := hts w hw
  obtain ⟨s, hs', hw⟩ := of_bind_ok hw
  obtain ⟨v, hv, hw⟩ := of_bind_ok hw
  have hc := (hs c).trans hc'
  exact ⟨s, v, (Except.ok.inj hw).symm, ⟨c', hc, hs'⟩, _, hc.trans (hsep c'), hv⟩

end SmlSynth.Sampler
