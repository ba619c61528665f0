import SmlSynth.Proofs.Batches

/-!
# Suites repeat every thirty places

What is asked of the program at a place of a suite comes in three cycles: five tiers, comments in
two places of three, and rare fragments in every other one. After thirty places all of them have
come round, and only the seed has gone on.

* `IsSuiteText`: the text of a place in a suite, with its tier, seed and switches.
* `suiteConfig_shift`: after thirty places the same is asked for, for a later seed.
* `generateSuite_ok_iff`: a suite is the list of the texts of its places.
* `generateSuite_periodic`: its beginnings are suites, and so are its ends for later seeds.
-/

namespace SmlSynth

/-- The tier of a place is the one that its remainder by five numbers, lowest first. -/
theorem Tier.cycled_eq_iff {tier : Tier} {i : Nat} : cycled i = tier ↔ tier.rank = i % 5 := by
  have hmod : i % 5 = 0 ∨ i % 5 = 1 ∨ i % 5 = 2 ∨ i % 5 = 3 ∨ i % 5 = 4 := by omega
  unfold cycled
  rcases hmod with h | h | h | h | h
  all_goals
    rw [h]
    cases tier <;> simp [rank]

variable {σ : Type} [Source σ] {entropy : Entropy σ} {maxLength count : Nat} {seed : Int64}
  {ts : List Text}

/-- **The text of a place in a suite**: it is generated at the tier of the place, for the seed that
is as far from the first. Comments may occur unless three divides the place, and rare fragments if
two does. -/
def IsSuiteText (entropy : Entropy σ) (maxLength : Nat) (seed : Int64) (i : Nat) (t : Text) :
    Prop :=
  ∃ tier : Tier, tier.rank = i % 5 ∧
    generate entropy
      { maxLength := maxLength
        tier := tier
        seed := seed + Int64.ofNat i
        comments := decide (i % 3 ≠ 0)
        rarities := decide (2 ∣ i) } = .ok t

theorem isSuiteText_iff {i : Nat} {t : Text} :
    IsSuiteText entropy maxLength seed i t ↔
      generate entropy (suiteConfig maxLength seed i) = .ok t := by
  have hcomments : (i % 3 != 0) = decide (i % 3 ≠ 0) := by
    by_cases h : i % 3 = 0 <;> simp [h]
  have hrarities : (i % 2 == 0) = decide (2 ∣ i) := by
    by_cases h : i % 2 = 0 <;> simp [h, Nat.dvd_iff_mod_eq_zero]
  unfold IsSuiteText suiteConfig
  rw [hcomments, hrarities]
  simp [← Tier.cycled_eq_iff]

/-- **After thirty places the same is asked for again**, for a seed that is as much later. -/
theorem suiteConfig_shift (maxLength : Nat) (seed : Int64) (k i : Nat) :
    suiteConfig maxLength (seed + Int64.ofNat (30 * k)) i =
      suiteConfig maxLength seed (30 * k + i) := by
  have htier : Tier.cycled (30 * k + i) = Tier.cycled i := Tier.cycled_add (by omega) i
  have hcomments : (30 * k + i) % 3 = i % 3 := by omega
  have hrarities : (30 * k + i) % 2 = i % 2 := by omega
  unfold suiteConfig
  rw [htier, hcomments, hrarities, Int64.ofNat_add, Int64.add_assoc]

/-- **A suite is the list of the texts of its places.** -/
theorem generateSuite_ok_iff :
    (generateSuite entropy count maxLength seed).outcome = .ok ts ↔
      ts.length = count ∧ ∀ i t, ts[i]? = some t → IsSuiteText entropy maxLength seed i t := by
  rw [generateSuite, Traced.inOrder_range_ok_iff]
  simp only [isSuiteText_iff, generate]

/-- **A suite succeeds** on sources on which the redraw loops stop. -/
theorem generateSuite_succeeds {seeded : UInt64 → σ} (hsource : ∀ seed, Settles (seeded seed))
    (count maxLength : Nat) (seed : Int64) :
    Succeeds (fun m => (generateSuite ⟨seeded, m⟩ count maxLength seed).outcome)
      fun ts => ts.length = count := by
  have htext : ∀ i, Succeeds
      (fun m => (generateTraced ⟨seeded, m⟩ (suiteConfig maxLength seed i)).outcome) (· ≠ []) :=
    fun i => generateTraced_succeeds hsource _
  obtain ⟨n, ts, ⟨hlength, -⟩, hn⟩ := succeeds_inOrder htext (List.range count)
  exact ⟨n, ts, hlength.trans List.length_range, hn⟩

/-- **Suites are periodic.** A suite is the list of the texts of its places, as many as were asked
for, and on sources on which the redraw loops stop it is there with enough patience. A suite of
fewer is its beginning. Without its first thirty texts, or any multiple of thirty, it is the suite
of those that are left for the seed that is as much later, also across the greatest seed. -/
theorem generateSuite_periodic (entropy : Entropy σ) (maxLength : Nat) :
    (∀ count seed ts, (generateSuite entropy count maxLength seed).outcome = .ok ts ↔
      ts.length = count ∧ ∀ i t, ts[i]? = some t → IsSuiteText entropy maxLength seed i t) ∧
    (∀ n count seed ts, n ≤ count →
      (generateSuite entropy count maxLength seed).outcome = .ok ts →
      (generateSuite entropy n maxLength seed).outcome = .ok (ts.take n)) ∧
    (∀ n k seed ts, (generateSuite entropy (n + 30 * k) maxLength seed).outcome = .ok ts →
      (generateSuite entropy n maxLength (seed + Int64.ofNat (30 * k))).outcome =
        .ok (ts.drop (30 * k))) ∧
    ((∀ seed, Settles (entropy.seeded seed)) → ∀ count seed,
      Succeeds (fun m =>
        (generateSuite { entropy with patience := m } count maxLength seed).outcome)
        fun ts => ts.length = count) := by
  refine ⟨fun count seed ts => generateSuite_ok_iff,
    fun n count seed ts hn h => Traced.inOrder_range_take hn h, fun n k seed ts h => ?_,
    fun hsource count seed => generateSuite_succeeds hsource count maxLength seed⟩
  refine Traced.inOrder_range_drop (fun i => ?_) h
  rw [suiteConfig_shift]

/-- On tapes of zeros there is a suite of thirty-two from the greatest seed on. Its first two texts
are a suite, and so are its last two, from the twenty-ninth seed after the least. -/
theorem generateSuite_periodic_wrap :
    (∀ seed : UInt64, Settles ((fun _ => Tape.constant 0) seed)) ∧
    ∃ m ts, let entropy : Entropy Tape := ⟨fun _ => Tape.constant 0, m⟩
      ts.length = 32 ∧
      (generateSuite entropy 32 100 Int64.maxValue).outcome = .ok ts ∧
      (generateSuite entropy 2 100 Int64.maxValue).outcome = .ok (ts.take 2) ∧
      (generateSuite entropy 2 100 (Int64.minValue + 29)).outcome = .ok (ts.drop 30) := by
  have hsource : ∀ seed : UInt64, Settles ((fun _ => Tape.constant 0) seed) := fun _ => settles_zero
  obtain ⟨-, -, -, hsucceeds⟩ := generateSuite_periodic ⟨fun _ => Tape.constant 0, 0⟩ 100
  obtain ⟨m, ts, hlength, hm⟩ := hsucceeds hsource 32 Int64.maxValue
  have hsuite := hm m (Nat.le_refl m)
  obtain ⟨-, htake, hdrop, -⟩ := generateSuite_periodic ⟨fun _ => Tape.constant 0, m⟩ 100
  have hseed : Int64.maxValue + Int64.ofNat (30 * 1) = Int64.minValue + 29 := by decide
  have hlast := hdrop 2 1 Int64.maxValue ts hsuite
  rw [hseed] at hlast
  exact ⟨hsource, m, ts, hlength, hsuite, htake 2 32 _ ts (by decide) hsuite, hlast⟩

end SmlSynth
