import SmlSynth.Proofs.Batches

/-!
# What the switches reach

Comments occur from the middle tier on and rare fragments at the highest only. A search goes down
the tiers, so a switch that the tier asked for does not look at is not looked at later either; and a
fixture of a batch depends on no more of the profile than its own tier looks at.

* `Config.Alike`, `Profile.AgreesAt`: what two programs asked for, or two profiles, need to have in
  common.
* `program_congr`: the programs of a tier are the same if the switches it looks at are.
* `searchFit_congr`: a search looks at no tier above the one it starts from.
* `generateTraced_congr`, `generateFixture_congr`: so the runs of both are the same.
* `generate_switches`: so are their texts, and the fixtures of batches.
-/

namespace SmlSynth

/-! ## The order of the tiers -/

namespace Tier

variable {t u : Tier}

theorem lower_le (h : t.lower = some u) : u ≤ t := Nat.le_of_succ_le (Nat.le_of_eq (rank_lower h))

theorem minimal_le (t : Tier) : minimal ≤ t := Nat.zero_le _

theorem le_refl (t : Tier) : t ≤ t := Nat.le_refl _

theorem le_trans {v : Tier} (h : t ≤ u) (h' : u ≤ v) : t ≤ v := Nat.le_trans h h'

/-- Nothing is above the highest tier. -/
theorem eq_extreme_of_le (h : extreme ≤ t) : t = extreme := by
  have hrank : 4 ≤ t.rank := h
  cases t with
  | extreme => rfl
  | _ => exact absurd hrank (by decide)

end Tier

/-! ## Programs -/

/-- **Two programs are asked for alike** if they differ in no switch that the tier looks at. -/
structure Config.Alike (c c' : Config) : Prop where
  maxLength : c.maxLength = c'.maxLength
  tier : c.tier = c'.tier
  seed : c.seed = c'.seed
  comments : .medium ≤ c.tier → c.comments = c'.comments
  rarities : c.tier = .extreme → c.rarities = c'.rarities

theorem program_congr {tier : Tier} {comments comments' rarities rarities' : Bool}
    (hcomments : .medium ≤ tier → comments = comments')
    (hrarities : tier = .extreme → rarities = rarities') :
    Phrase.program tier comments rarities = Phrase.program tier comments' rarities' := by
  cases tier with
  | minimal => rfl
  | simple => rfl
  | medium => rw [hcomments (Tier.le_refl _)]; rfl
  | complex =>
    have hle : Tier.medium ≤ .complex := Nat.le_succ 2
    rw [hcomments hle]; rfl
  | extreme =>
    have hle : Tier.medium ≤ .extreme := Nat.le_add_right 2 2
    rw [hcomments hle, hrarities rfl]

/-- **A search looks at no tier above the one it starts from.** -/
theorem searchFit_congr {once once' : Tier → Int64 → Except Fault Text} {maxLength : Nat}
    {seed : Int64} {left number : Nat} {tier : Tier} (h : ∀ u, u ≤ tier → once u = once' u) :
    searchFit once maxLength seed left number tier
      = searchFit once' maxLength seed left number tier := by
  have hminimal := h .minimal (Tier.minimal_le tier)
  induction left generalizing number tier with
  | zero => rw [searchFit, searchFit, hminimal]
  | succ left ih =>
    rw [searchFit, searchFit, hminimal, h tier (Tier.le_refl tier)]
    cases hlower : tier.lower with
    | none => rfl
    | some target =>
      have hle := Tier.lower_le hlower
      simp only
      rw [ih fun u hu => h u (Tier.le_trans hu hle)]

section Programs

variable {σ : Type} [Source σ] {entropy : Entropy σ}

/-- **What is asked for alike runs alike**, down the tiers and with the same events. -/
theorem generateTraced_congr {c c' : Config} (h : c.Alike c') :
    generateTraced entropy c = generateTraced entropy c' := by
  unfold generateTraced firstFit
  rw [← h.maxLength, ← h.tier, ← h.seed]
  refine searchFit_congr fun u hu => funext fun seed => ?_
  -- what a lower tier looks at, the tier asked for looks at too
  have hprogram : Phrase.program u c.comments c.rarities
      = Phrase.program u c'.comments c'.rarities := by
    refine program_congr (fun hmedium => h.comments (Tier.le_trans hmedium hu)) fun hextreme => ?_
    subst hextreme
    exact h.rarities (Tier.eq_extreme_of_le hu)
  unfold sampleProgram
  rw [hprogram]

end Programs

/-! ## Fixtures -/

/-- **Two profiles agree at a tier** as far as its fixtures look at them: on the budget, on comments
from the middle tier on, and on rare fragments at the highest. -/
structure Profile.AgreesAt (p p' : Profile) (tier : Tier) : Prop where
  budget : p.budget tier = p'.budget tier
  comments : .medium ≤ tier → p.includeComments = p'.includeComments
  rarities : tier = .extreme → p.obscureFeatures = p'.obscureFeatures

section Fixtures

variable {σ : Type} [Source σ] {entropy : Entropy σ} {seed : Int64} {selector : Selector}
  {p p' : Profile} {i count : Nat} {fs fs' : List Fixture}

theorem Profile.AgreesAt.alike {tier : Tier} (h : p.AgreesAt p' tier) :
    (p.config tier seed).Alike (p'.config tier seed) where
  maxLength := h.budget
  tier := rfl
  seed := rfl
  comments := h.comments
  rarities hextreme := congrArg (· && tier == .extreme) (h.rarities hextreme)

/-- **A fixture looks at its own tier's part of the profile only.** -/
theorem generateFixture_congr (h : p.AgreesAt p' (selector.tierFor i)) :
    generateFixture entropy seed selector p i = generateFixture entropy seed selector p' i := by
  simp only [generateFixture]
  rw [generateTraced_congr h.alike]

theorem getElem?_generateBatch_congr (h : p.AgreesAt p' (selector.tierFor i))
    (hp : (generateBatch entropy count seed selector p).outcome = .ok fs)
    (hp' : (generateBatch entropy count seed selector p').outcome = .ok fs') :
    fs[i]? = fs'[i]? := by
  obtain ⟨hlength, hall⟩ := generateBatch_ok_iff.1 hp
  obtain ⟨hlength', hall'⟩ := generateBatch_ok_iff.1 hp'
  rcases Nat.lt_or_ge i count with hi | hi
  · have hf := List.getElem?_eq_getElem (l := fs) (i := i) (by omega)
    have hf' := List.getElem?_eq_getElem (l := fs') (i := i) (by omega)
    -- one run yields both
    have hrun := generateFixture_ok_iff.2 (hall i _ hf)
    rw [generateFixture_congr h] at hrun
    have hrun' := generateFixture_ok_iff.2 (hall' i _ hf')
    rw [hf, hf', Except.ok.inj (hrun.symm.trans hrun')]
  · rw [List.getElem?_eq_none (by omega), List.getElem?_eq_none (by omega)]

end Fixtures

variable {σ : Type} [Source σ]

/-- **Switches and budgets reach no tier that does not look at them.** At the two lowest tiers a
program is the same whatever the switches, and at the next two whatever the switch for rare
fragments. Two batches have the same fixture at a place if their profiles agree at its tier, however
they differ elsewhere; on sources on which the redraw loops stop, both batches are there with enough
patience. -/
theorem generate_switches (entropy : Entropy σ) :
    (∀ c c' : Config, c.maxLength = c'.maxLength → c.tier = c'.tier → c.seed = c'.seed →
      (c.tier ≤ .simple → generate entropy c = generate entropy c') ∧
      (c.tier = .medium ∨ c.tier = .complex → c.comments = c'.comments →
        generate entropy c = generate entropy c')) ∧
    (∀ count seed selector p p' i fs fs', Profile.AgreesAt p p' (selector.tierFor i) →
      (generateBatch entropy count seed selector p).outcome = .ok fs →
      (generateBatch entropy count seed selector p').outcome = .ok fs' → fs[i]? = fs'[i]?) ∧
    ((∀ seed, Settles (entropy.seeded seed)) → ∀ count seed selector p p', ∃ n fs fs',
      (∀ m ≥ n,
        (generateBatch { entropy with patience := m } count seed selector p).outcome = .ok fs ∧
        (generateBatch { entropy with patience := m } count seed selector p').outcome = .ok fs') ∧
      ∀ i < count, Profile.AgreesAt p p' (selector.tierFor i) →
        ∃ f, fs[i]? = some f ∧ fs'[i]? = some f) := by
  refine ⟨fun c c' hlength htier hseed => ⟨fun hlow => ?_, fun hmiddle hcomments => ?_⟩,
    fun count seed selector p p' i fs fs' h hp hp' => getElem?_generateBatch_congr h hp hp',
    fun hsource count seed selector p p' => ?_⟩
  · -- neither switch is looked at
    have hrank : c.tier.rank ≤ 1 := hlow
    refine congrArg Traced.outcome (generateTraced_congr ⟨hlength, htier, hseed, ?_, ?_⟩)
    · intro hmedium
      have hrank' : 2 ≤ c.tier.rank := hmedium
      omega
    · intro hextreme
      rw [hextreme] at hrank
      exact absurd hrank (by decide)
  · refine congrArg Traced.outcome
      (generateTraced_congr ⟨hlength, htier, hseed, fun _ => hcomments, fun hextreme => ?_⟩)
    rw [hextreme] at hmiddle
    simp at hmiddle
  · obtain ⟨n, fs, hfs, hn⟩ := generateBatch_succeeds hsource count seed selector p
    obtain ⟨n', fs', -, hn'⟩ := generateBatch_succeeds hsource count seed selector p'
    refine ⟨max n n', fs, fs', fun m hm => ⟨hn m (by omega), hn' m (by omega)⟩,
      fun i hi hagree => ?_⟩
    have hf := List.getElem?_eq_getElem (l := fs) (i := i) (by omega)
    have hsame := getElem?_generateBatch_congr hagree (hn (max n n') (by omega))
      (hn' (max n n') (by omega))
    exact ⟨fs[i], hf, hsame.symm.trans hf⟩

/-- On tapes of zeros: programs of two tiers with and without the switches that those do not look
at, and two batches in turn over the tiers, whose profiles differ in all but a budget of nothing and
of one at the lowest tier. -/
theorem generate_switches_zero :
    let entropy : Nat → Entropy Tape := fun m => ⟨fun _ => Tape.constant 0, m⟩
    let p : Profile := { maxLengths := { minimal := 0 } }
    let p' : Profile := ⟨true, false, ⟨1, 2, 3, 4, 5⟩⟩
    generate (entropy 0) ⟨9, .simple, 3, true, true⟩
      = generate (entropy 0) ⟨9, .simple, 3, false, false⟩ ∧
    generate (entropy 0) ⟨9, .complex, 3, true, true⟩
      = generate (entropy 0) ⟨9, .complex, 3, true, false⟩ ∧
    (∀ seed, Settles ((entropy 0).seeded seed)) ∧ p.AgreesAt p' (Selector.mixed.tierFor 5) ∧
    ∃ n fs fs', (generateBatch (entropy n) 6 0 .mixed p).outcome = .ok fs ∧
      (generateBatch (entropy n) 6 0 .mixed p').outcome = .ok fs' ∧ fs[5]? = fs'[5]? ∧
      ∃ f, fs[5]? = some f ∧ fs'[5]? = some f := by
  intro entropy p p'
  have hsource : ∀ seed, Settles ((entropy 0).seeded seed) := fun _ => settles_zero
  have hagree : p.AgreesAt p' (Selector.mixed.tierFor 5) :=
    ⟨rfl, fun h => absurd (show 2 ≤ 0 from h) (by decide), fun h => absurd h (by decide)⟩
  obtain ⟨hprogram, -, hsettled⟩ := generate_switches (entropy 0)
  obtain ⟨n, fs, fs', hn, hsame⟩ := hsettled hsource 6 0 .mixed p p'
  obtain ⟨hp, hp'⟩ := hn n (Nat.le_refl n)
  obtain ⟨-, hfixture, -⟩ := generate_switches (entropy n)
  have hlow := (hprogram ⟨9, .simple, 3, true, true⟩ ⟨9, .simple, 3, false, false⟩ rfl rfl rfl).1
  have hmiddle :=
    (hprogram ⟨9, .complex, 3, true, true⟩ ⟨9, .complex, 3, true, false⟩ rfl rfl rfl).2
  exact ⟨hlow (Nat.le_refl 1), hmiddle (.inr rfl) rfl, hsource, hagree, n, fs, fs', hp, hp',
    hfixture 6 0 .mixed p p' 5 fs fs' hagree hp hp', hsame 5 (by decide) hagree⟩

end SmlSynth
