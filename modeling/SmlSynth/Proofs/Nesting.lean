import SmlSynth.Proofs.Detail

/-!
# The nesting of programs

Brackets stand around phrases of a level less, but for some that hold no phrase at all. So the
nesting of a text is bounded by the levels that were left for it.

* `Nesting`, `Nesting.detail`: bounds on the nesting of texts, and how they are put together.
* `Nesting.sound`: the bounds are sound.
* `Nesting.body_rule`: those of rules follow from their bodies.
* `nesting_bounded`: the nesting of programs and of all recursive phrases.
-/

namespace SmlSynth

open Scan

/-- **A bound on the nesting of texts**: at most `flat` brackets whatever the level, or at most
`lift` more than there are levels left. -/
structure Nesting where
  flat : Nat
  lift : Nat
deriving Repr, DecidableEq

namespace Nesting

/-! ## Bounds -/

/-- The greater of two bounds. -/
def sup (a b : Nesting) : Nesting := ⟨max a.flat b.flat, max a.lift b.lift⟩

/-- **Bounds on nesting, put together.** A pair of brackets adds one, and a gate takes one off what
is recursive. -/
def detail : Detail Nesting where
  exactly ms := ⟨peak ms, 0⟩
  append := sup
  either := sup
  many a := a
  enclose a := ⟨a.flat + 1, a.lift + 1⟩
  gate a b := ⟨a.flat, max a.lift (max (b.flat - 1) (b.lift - 1))⟩

/-- The greatest nesting of a text with `d` levels left. -/
def most (a : Nesting) (d : Nat) : Nat := max a.flat (d + a.lift)

/-- **What a bound says of marks**: none is within more brackets. -/
def Bounds (d : Nat) (a : Nesting) (ms : List Mark) : Prop := ∀ m ∈ ms, m.height ≤ a.most d

theorem peak_le {ms : List Mark} {n : Nat} (h : ∀ m ∈ ms, m.height ≤ n) : peak ms ≤ n := by
  induction ms with
  | nil => exact Nat.zero_le n
  | cons m ms ih =>
    exact Nat.max_le.2 ⟨h m (List.mem_cons_self ..), ih fun k hk => h k (List.mem_cons_of_mem _ hk)⟩

theorem le_peak {ms : List Mark} {m : Mark} (h : m ∈ ms) : m.height ≤ peak ms := by
  induction ms with
  | nil => cases h
  | cons k ms ih =>
    rcases List.mem_cons.1 h with rfl | h
    · exact Nat.le_max_left _ _
    · exact Nat.le_trans (ih h) (Nat.le_max_right _ _)

variable {d : Nat} {a b : Nesting} {ms : List Mark}

theorem Bounds.mono {e : Nat} (h : Bounds d a ms) (hle : a.most d ≤ b.most e) : Bounds e b ms :=
  fun m hm => Nat.le_trans (h m hm) hle

theorem Bounds.left (h : Bounds d a ms) (b : Nesting) : Bounds d (sup a b) ms :=
  h.mono (by simp only [most, sup]; omega)

theorem Bounds.right (h : Bounds d b ms) (a : Nesting) : Bounds d (sup a b) ms :=
  h.mono (by simp only [most, sup]; omega)

/-- A pair of brackets is one more. -/
theorem Bounds.enclose (h : Bounds d a ms) (o e : Char) :
    Bounds d ⟨a.flat + 1, a.lift + 1⟩
      (.bare o :: (ms.map (·.raise 1) ++ [(Mark.bare e).raise 1])) := by
  have hmost : most ⟨a.flat + 1, a.lift + 1⟩ d = a.most d + 1 := by simp only [most]; omega
  intro m hm
  rw [hmost]
  rcases List.mem_cons.1 hm with rfl | hm
  · exact Nat.zero_le _
  rcases List.mem_append.1 hm with hm | hm
  · obtain ⟨k, hk, rfl⟩ := List.mem_map.1 hm
    exact Nat.succ_le_succ (h k hk)
  · rw [List.mem_singleton.1 hm]
    exact Nat.succ_le_succ (Nat.zero_le _)

/-- **What the bounds say is true.** -/
theorem sound : detail.Sound Bounds where
  exactly d ms m hm := Nat.le_trans (le_peak hm) (Nat.le_max_left _ _)
  append {d a b ms ns} h h' m hm := by
    rcases List.mem_append.1 hm with hm | hm
    · exact h.left b m hm
    · exact h'.right a m hm
  left b h := h.left b
  right a h := h.right a
  many h m hm := by
    obtain ⟨ms, hms, hm⟩ := List.mem_flatten.1 hm
    exact h ms hms m hm
  enclose _ h := h.enclose _ _
  terminal b h := h.mono (by simp only [most, detail]; omega)
  recursive a h := h.mono (by simp only [most, detail]; omega)

/-! ## The bounds of symbols -/

/-- No lexeme nests. -/
def lexeme (_ : Lexeme) : Nesting := ⟨0, 0⟩

theorem bounds_lexeme {l : Lexeme} {t : Text} (h : l.Form t) (d : Nat) :
    Bounds d (lexeme l) (marks {} t) := by
  have hzero : ∀ m ∈ marks {} t, m.height = 0 := by
    intro m hm
    cases hl : l.quote? with
    | none =>
      rw [Lexeme.marks_unquoted h hl] at hm
      obtain ⟨c, -, rfl⟩ := List.mem_map.1 hm
      rfl
    | some first =>
      obtain ⟨rest, hmarks⟩ := Lexeme.marks_quoted h hl
      rw [hmarks] at hm
      rcases List.mem_append.1 hm with hm | hm
      · obtain ⟨c, -, rfl⟩ := List.mem_map.1 hm
        rfl
      · obtain ⟨c, -, rfl⟩ := List.mem_map.1 hm
        rfl
  intro m hm
  rw [hzero m hm]
  exact Nat.zero_le _

/-- **Recursive phrases nest one deeper than there are levels left.** The unit may stand where none
is left, but for types. -/
def rule : Rule → Nesting
  | .ty | .atTy => ⟨0, 1⟩
  | _ => ⟨1, 1⟩

/-- **A rule's bound is that of its body**, when the rules in it have theirs. -/
theorem body_rule (r : Rule) :
    r.body.read detail.reading (Detail.symbol lexeme rule) = some (r.outline, rule r) := by
  -- reading a body does not run it, so each is read as it stands
  cases r <;> decide +kernel

/-- The bound of a program: fragments of the catalog may nest twice. -/
def program (tier : Tier) (rarities : Bool) : Nesting :=
  ⟨if rarities && tier == .extreme then 2 else 1, 1⟩

theorem read_program (tier : Tier) (comments rarities : Bool) :
    (Phrase.program tier comments rarities).read detail.reading (Detail.symbol lexeme rule)
      = some (programOutline tier comments rarities, program tier rarities) := by
  -- the parts of a shape are read once for all choices
  revert comments rarities
  cases tier <;> decide +kernel

/-! ## The nesting of phrases -/

variable {σ : Type} [Source σ]

/-- **A phrase nests no deeper than the bound read off it**, at the levels that are left. -/
theorem nesting_sample {p : Phrase} {o : Outline}
    (hp : p.read detail.reading (Detail.symbol lexeme rule) = some (o, a))
    {c : Context σ} {t : Text} (ht : (p.sample c).1 = .ok t) :
    scan t = .ok () ∧ nesting t ≤ a.most c.levels := by
  obtain ⟨⟨cs, hclean⟩, hbounds⟩ := sound.sample bounds_lexeme body_rule p hp ht
  refine ⟨hclean.scan, ?_⟩
  rw [hclean.nesting]
  exact peak_le hbounds

end Nesting

open Nesting

/-- **Nesting is bounded by the depth.** A scan goes through to the end of a program or of a
recursive phrase; there are at most as many brackets open at once as the tier's depth limit and one
more, or as there are levels left below the limit and one more. -/
theorem nesting_bounded {σ : Type} [Source σ] :
    (∀ (entropy : Entropy σ) (comments rarities : Bool) (tier : Tier) (seed : Int64) (t : Text),
      sampleProgram entropy comments rarities tier seed = .ok t →
        scan t = .ok () ∧ nesting t ≤ tier.bounds.maxDepth + 1) ∧
    ∀ (r : Rule) (c : Context σ) (t : Text), ((Phrase.rule r).sample c).1 = .ok t →
      scan t = .ok () ∧ nesting t ≤ c.bounds.maxDepth - c.depth + 1 := by
  refine ⟨fun entropy comments rarities tier seed t ht => ?_, fun r c t ht => ?_⟩
  · -- every tier has two levels at least, as many as a fragment of the catalog nests
    have hmost : (program tier rarities).most tier.bounds.maxDepth = tier.bounds.maxDepth + 1 := by
      cases tier <;> cases rarities <;> rfl
    obtain ⟨hscan, hle⟩ := nesting_sample (read_program tier comments rarities) ht
    exact ⟨hscan, Nat.le_trans hle (Nat.le_of_eq hmost)⟩
  · have hread : (Phrase.rule r).read detail.reading (Detail.symbol lexeme rule)
        = some (r.outline, rule r) := rfl
    have hmost : (rule r).most c.levels = c.levels + 1 := by
      cases r <;> simp only [rule, most] <;> omega
    obtain ⟨hscan, hle⟩ := nesting_sample hread ht
    exact ⟨hscan, Nat.le_trans hle (Nat.le_of_eq hmost)⟩

/-- On the tape of zeros a program of the simple tier is there. An operand with one level left may
be the unit in parentheses, which reaches the bound. -/
theorem nesting_bounded_unit :
    (∃ t, sampleProgram (⟨fun _ => Tape.constant 0, 0⟩ : Entropy Tape) true true .simple 0 = .ok t ∧
      scan t = .ok () ∧ nesting t ≤ 4) ∧
    ∃ t, ((Phrase.rule .atExp).sample
        (⟨Tape.constant 0xE000000000000000, ⟨1, 1⟩, 0, 0, 0⟩ : Context Tape)).1 = .ok t ∧
      nesting t = 2 ∧ scan t = .ok () ∧ nesting t ≤ 2 := by
  refine ⟨?_, ?_⟩
  · obtain ⟨t, ht, -⟩ := exists_ok_of_any (p := fun _ => true)
      (x := sampleProgram (⟨fun _ => Tape.constant 0, 0⟩ : Entropy Tape) true true .simple 0)
      (by decide +kernel)
    exact ⟨t, ht, nesting_bounded.1 _ _ _ _ _ t ht⟩
  · obtain ⟨t, ht, hnesting⟩ := exists_ok_of_any (p := fun t => decide (nesting t = 2))
      (x := ((Phrase.rule .atExp).sample
        (⟨Tape.constant 0xE000000000000000, ⟨1, 1⟩, 0, 0, 0⟩ : Context Tape)).1)
      (by decide +kernel)
    exact ⟨t, ht, of_decide_eq_true hnesting, nesting_bounded.2 .atExp _ t ht⟩

end SmlSynth
