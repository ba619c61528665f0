import SmlSynth.Proofs.Success

/-!
# A batch is its fixtures

Each fixture of a batch is a run of its own: its tier, its seed and what is asked of it follow from
its place. So a batch can be cut anywhere, and what is left is a batch again.

* `Traced.inOrder_ok_iff`: runs in order yield what each of them yields;
  `Traced.inOrder_range_take`, `Traced.inOrder_range_drop`: fewer of them, or later ones.
* `IsFixture`: the fixture of a place in a batch; `IsFixture.shift`: the same at an earlier place,
  for a later seed.
* `generateBatch_ok_iff`: a batch is the list of the fixtures of its places.
* `generateBatch_cut`: so are its beginnings, and its ends for later seeds.
-/

namespace SmlSynth

/-! ## Runs in order -/

namespace Traced

variable {α β : Type}

/-- What goes on with a value succeeds if both runs do, and only then. -/
theorem andThen_ok_iff {a : Traced α} {f : α → Traced β} {b : β} :
    (a.andThen f).outcome = .ok b ↔ ∃ x, a.outcome = .ok x ∧ (f x).outcome = .ok b := by
  unfold andThen
  cases a.outcome with
  | error e => constructor <;> simp
  | ok x =>
    constructor
    · intro h; exact ⟨x, rfl, h⟩
    · rintro ⟨y, hy, hf⟩; cases hy; exact hf

/-- **Runs in order yield what each of them yields.** -/
theorem inOrder_ok_iff {run : Nat → Traced α} {is : List Nat} {as : List α} :
    (inOrder run is).outcome = .ok as ↔
      List.Forall₂ (fun i a => (run i).outcome = .ok a) is as := by
  induction is generalizing as with
  | nil =>
    rw [List.forall₂_nil_left_iff]
    exact ⟨fun h => (Except.ok.inj h).symm, fun h => congrArg Except.ok h.symm⟩
  | cons i is ih =>
    rw [inOrder, andThen_ok_iff, List.forall₂_cons_left_iff]
    refine exists_congr fun a => ?_
    constructor
    · rintro ⟨ha, hrest⟩
      obtain ⟨rest, hrest, has⟩ := andThen_ok_iff.1 hrest
      exact ⟨rest, ha, ih.1 hrest, (Except.ok.inj has).symm⟩
    · rintro ⟨rest, ha, hrest, rfl⟩
      exact ⟨ha, andThen_ok_iff.2 ⟨rest, ih.2 hrest, rfl⟩⟩

/-- Runs for the places up to a count yield one value for each place. -/
theorem inOrder_range_ok_iff {run : Nat → Traced α} {count : Nat} {as : List α} :
    (inOrder run (List.range count)).outcome = .ok as ↔
      as.length = count ∧ ∀ i a, as[i]? = some a → (run i).outcome = .ok a := by
  rw [inOrder_ok_iff, List.forall₂_iff_get]
  simp only [List.get_eq_getElem, List.getElem_range, List.length_range]
  constructor
  · rintro ⟨hlength, hall⟩
    refine ⟨hlength.symm, fun i a hi => ?_⟩
    obtain ⟨hlt, rfl⟩ := List.getElem?_eq_some_iff.1 hi
    exact hall i (by rwa [hlength]) hlt
  · rintro ⟨hlength, hall⟩
    exact ⟨hlength.symm, fun i _ hlt => hall i _ (List.getElem?_eq_getElem hlt)⟩

/-- Fewer runs yield the beginning. -/
theorem inOrder_range_take {run : Nat → Traced α} {n count : Nat} {as : List α} (hn : n ≤ count)
    (h : (inOrder run (List.range count)).outcome = .ok as) :
    (inOrder run (List.range n)).outcome = .ok (as.take n) := by
  obtain ⟨hlength, hall⟩ := inOrder_range_ok_iff.1 h
  refine inOrder_range_ok_iff.2 ⟨?_, fun i a hi => ?_⟩
  · rw [List.length_take, hlength, Nat.min_eq_left hn]
  · rw [List.getElem?_take] at hi
    split at hi
    · exact hall i a hi
    · cases hi

/-- Runs that start at a later place yield the end. -/
theorem inOrder_range_drop {run run' : Nat → Traced α} {n s : Nat} {as : List α}
    (hrun : ∀ i, run' i = run (s + i))
    (h : (inOrder run (List.range (n + s))).outcome = .ok as) :
    (inOrder run' (List.range n)).outcome = .ok (as.drop s) := by
  obtain ⟨hlength, hall⟩ := inOrder_range_ok_iff.1 h
  refine inOrder_range_ok_iff.2 ⟨?_, fun i a hi => ?_⟩
  · rw [List.length_drop, hlength, Nat.add_sub_cancel]
  · rw [List.getElem?_drop] at hi
    rw [hrun]
    exact hall (s + i) a hi

end Traced

/-! ## Fixtures -/

/-- The tiers in turn come round after five. -/
theorem Tier.cycled_add {s : Nat} (h : 5 ∣ s) (i : Nat) : cycled (s + i) = cycled i := by
  have hmod : (s + i) % 5 = i % 5 := by omega
  unfold cycled
  rw [hmod]

/-- A selector gives a later place the same tier, if it always gives one tier or if the tiers have
come round. -/
theorem Selector.tierFor_add {selector : Selector} {s : Nat} (h : selector = .mixed → 5 ∣ s)
    (i : Nat) : selector.tierFor (s + i) = selector.tierFor i := by
  cases selector with
  | mixed => exact Tier.cycled_add (h rfl) i
  | single tier => rfl

variable {σ : Type} [Source σ] {entropy : Entropy σ} {seed : Int64} {selector : Selector}
  {profile : Profile} {i s count : Nat} {f : Fixture} {fs : List Fixture}

/-- **The fixture of a place in a batch**: it has the place's tier and the seed that is as far from
the first, and its text is the program for them. The profile gives its budget, says whether comments
occur, and at the extreme tier whether rare fragments do. -/
structure IsFixture (entropy : Entropy σ) (seed : Int64) (selector : Selector) (profile : Profile)
    (i : Nat) (f : Fixture) : Prop where
  index : f.index = i
  tier : f.tier = selector.tierFor i
  seed : f.seed = seed + Int64.ofNat i
  text : generate entropy
    { maxLength := profile.budget f.tier
      tier := f.tier
      seed := f.seed
      comments := profile.includeComments
      rarities := profile.obscureFeatures && f.tier == .extreme } = .ok f.text

theorem generateFixture_ok_iff :
    (generateFixture entropy seed selector profile i).outcome = .ok f ↔
      IsFixture entropy seed selector profile i f := by
  rw [generateFixture, Traced.andThen_ok_iff]
  constructor
  · rintro ⟨text, htext, hf⟩
    rw [← Except.ok.inj hf]
    exact ⟨rfl, rfl, rfl, htext⟩
  · rintro ⟨rfl, htier, hseed, htext⟩
    obtain ⟨i, tier, fixtureSeed, text⟩ := f
    simp only at htier hseed htext
    subst htier hseed
    exact ⟨text, htext, rfl⟩

/-- **A later place is an earlier one for a later seed**, as long as the tiers agree. -/
theorem IsFixture.shift (hs : selector = .mixed → 5 ∣ s)
    (h : IsFixture entropy seed selector profile (s + i) f) :
    IsFixture entropy (seed + Int64.ofNat s) selector profile i
      { f with index := f.index - s } where
  index := by
    show f.index - s = i
    rw [h.index, Nat.add_sub_cancel_left]
  tier := h.tier.trans (Selector.tierFor_add hs i)
  seed := by
    show f.seed = seed + Int64.ofNat s + Int64.ofNat i
    rw [h.seed, Int64.ofNat_add, Int64.add_assoc]
  text := h.text

/-! ## Batches -/

/-- **A batch is the list of the fixtures of its places.** -/
theorem generateBatch_ok_iff :
    (generateBatch entropy count seed selector profile).outcome = .ok fs ↔
      fs.length = count ∧ ∀ i f, fs[i]? = some f → IsFixture entropy seed selector profile i f := by
  rw [generateBatch, Traced.inOrder_range_ok_iff]
  simp only [generateFixture_ok_iff]

/-- The fixtures of a batch are numbered from zero. -/
theorem map_index_generateBatch
    (h : (generateBatch entropy count seed selector profile).outcome = .ok fs) :
    fs.map (·.index) = List.range count := by
  obtain ⟨hlength, hall⟩ := generateBatch_ok_iff.1 h
  refine List.ext_getElem ?_ fun i hi _ => ?_
  · rw [List.length_map, hlength, List.length_range]
  · rw [List.length_map] at hi
    rw [List.getElem_map, List.getElem_range]
    exact (hall i _ (List.getElem?_eq_getElem hi)).index

/-- The beginning of a batch is the batch of so many. -/
theorem generateBatch_take {n : Nat} (hn : n ≤ count)
    (h : (generateBatch entropy count seed selector profile).outcome = .ok fs) :
    (generateBatch entropy n seed selector profile).outcome = .ok (fs.take n) :=
  Traced.inOrder_range_take hn h

/-- **The end of a batch is a batch for a later seed**, with its places counted anew. -/
theorem generateBatch_drop {n : Nat} (hs : selector = .mixed → 5 ∣ s)
    (h : (generateBatch entropy (n + s) seed selector profile).outcome = .ok fs) :
    (generateBatch entropy n (seed + Int64.ofNat s) selector profile).outcome =
      .ok ((fs.drop s).map fun f => { f with index := f.index - s }) := by
  obtain ⟨hlength, hall⟩ := generateBatch_ok_iff.1 h
  refine generateBatch_ok_iff.2 ⟨?_, fun i f hi => ?_⟩
  · rw [List.length_map, List.length_drop, hlength, Nat.add_sub_cancel]
  · rw [List.getElem?_map, List.getElem?_drop] at hi
    obtain ⟨f, hf, rfl⟩ := Option.map_eq_some_iff.1 hi
    exact (hall (s + i) f hf).shift hs

/-- **A batch succeeds** on sources on which the redraw loops stop. -/
theorem generateBatch_succeeds {seeded : UInt64 → σ} (hsource : ∀ seed, Settles (seeded seed))
    (count : Nat) (seed : Int64) (selector : Selector) (profile : Profile) :
    Succeeds (fun m => (generateBatch ⟨seeded, m⟩ count seed selector profile).outcome)
      fun fs => fs.length = count := by
  have hfixture : ∀ i, Succeeds
      (fun m => (generateFixture ⟨seeded, m⟩ seed selector profile i).outcome) fun _ => True :=
    fun i => succeeds_andThen (generateTraced_succeeds hsource _) fun _ _ => succeeds_ok trivial
  obtain ⟨n, fs, ⟨hlength, -⟩, hn⟩ := succeeds_inOrder hfixture (List.range count)
  exact ⟨n, fs, hlength.trans List.length_range, hn⟩

/-- **A batch is its fixtures, however it is cut.** It is the list of the fixtures of its places, as
many as were asked for, and on sources on which the redraw loops stop it is there with enough
patience. A batch of fewer is its beginning. Without its first fixtures it is the batch of those
that are left for the seed that is as much later, also across the greatest seed; where the tiers are
taken in turn, those left out have to be a multiple of five. -/
theorem generateBatch_cut (entropy : Entropy σ) (selector : Selector) (profile : Profile) :
    (∀ count seed fs, (generateBatch entropy count seed selector profile).outcome = .ok fs ↔
      fs.length = count ∧ ∀ i f, fs[i]? = some f → IsFixture entropy seed selector profile i f) ∧
    (∀ n count seed fs, n ≤ count →
      (generateBatch entropy count seed selector profile).outcome = .ok fs →
      (generateBatch entropy n seed selector profile).outcome = .ok (fs.take n)) ∧
    (∀ n s seed fs, (selector = .mixed → 5 ∣ s) →
      (generateBatch entropy (n + s) seed selector profile).outcome = .ok fs →
      (generateBatch entropy n (seed + Int64.ofNat s) selector profile).outcome =
        .ok ((fs.drop s).map fun f => { f with index := f.index - s })) ∧
    ((∀ seed, Settles (entropy.seeded seed)) → ∀ count seed,
      Succeeds (fun m =>
        (generateBatch { entropy with patience := m } count seed selector profile).outcome)
        fun fs => fs.length = count) :=
  ⟨fun _ _ _ => generateBatch_ok_iff, fun _ _ _ _ hn h => generateBatch_take hn h,
    fun _ _ _ _ hs h => generateBatch_drop hs h,
    fun hsource count seed => generateBatch_succeeds hsource count seed selector profile⟩

/-- On tapes of zeros there is a batch of seven from the greatest seed on. Its first two fixtures
are a batch, and so are those after the fifth, from the fifth seed after the least. -/
theorem generateBatch_cut_wrap :
    (∀ seed : UInt64, Settles ((fun _ => Tape.constant 0) seed)) ∧
    ∃ m fs, let entropy : Entropy Tape := ⟨fun _ => Tape.constant 0, m⟩
      fs.length = 7 ∧
      (generateBatch entropy 7 Int64.maxValue .mixed {}).outcome = .ok fs ∧
      (generateBatch entropy 2 Int64.maxValue .mixed {}).outcome = .ok (fs.take 2) ∧
      (generateBatch entropy 2 (Int64.minValue + 4) .mixed {}).outcome =
        .ok ((fs.drop 5).map fun f => { f with index := f.index - 5 }) := by
  have hsource : ∀ seed : UInt64, Settles ((fun _ => Tape.constant 0) seed) := fun _ => settles_zero
  obtain ⟨-, -, -, hsucceeds⟩ := generateBatch_cut ⟨fun _ => Tape.constant 0, 0⟩ .mixed {}
  obtain ⟨m, fs, hlength, hm⟩ := hsucceeds hsource 7 Int64.maxValue
  have hbatch := hm m (Nat.le_refl m)
  obtain ⟨-, htake, hdrop, -⟩ := generateBatch_cut ⟨fun _ => Tape.constant 0, m⟩ .mixed {}
  have hseed : Int64.maxValue + Int64.ofNat 5 = Int64.minValue + 4 := by decide
  have hlast := hdrop 2 5 Int64.maxValue fs (fun _ => by decide) hbatch
  rw [hseed] at hlast
  exact ⟨hsource, m, fs, hlength, hbatch, htake 2 7 _ fs (by decide) hbatch, hlast⟩

end SmlSynth
