import SmlSynth.Program.Batch
import SmlSynth.Proofs.Delimiters
import SmlSynth.Proofs.Termination

/-!
# Generation succeeds

No node of the grammar is ill-formed, whether it is checked at once or only when it runs. So a run
fails for want of patience or fuel only; fuel always suffices, and on a source on which the redraw
loops stop there is patience enough.

* `Gen.WellFormed`, `wellFormed_body`, `wellFormed_program`: generators without faults in any part.
* `FailsWith`: samplers that fail with some faults only.
* `Robust`, `robust_run`: samplers that fail for want of patience or fuel only.
* `Succeeds`: runs that yield one value when they are patient enough.
* `sample_succeeds`, `searchFit_succeeds`: phrases and searches succeed.
* `DrawsByte`, `drawsByte_element`: draws of characters whose bytes stay in range.
* `generation_succeeds`: so do programs, batches and suites, and every text has a character.
-/

namespace SmlSynth

/-! ## Well-formed generators -/

namespace Gen

variable {ρ : Type}

theorem parts_append {p : Gen ρ} {gs gs' : List (Gen ρ)} (h : p ∈ gs → p.parts ⊆ gs)
    (h' : p ∈ gs' → p.parts ⊆ gs') (hp : p ∈ gs ++ gs') : p.parts ⊆ gs ++ gs' := by
  rcases List.mem_append.1 hp with hp | hp
  · exact List.subset_append_of_subset_left gs' (h hp)
  · exact List.subset_append_of_subset_right gs (h' hp)

/-- The parts of a node are itself and those below it. -/
theorem parts_cons {p g : Gen ρ} {gs : List (Gen ρ)} (h : p ∈ gs → p.parts ⊆ gs)
    (hg : g.parts = g :: gs) (hp : p ∈ g.parts) : p.parts ⊆ g.parts := by
  rw [hg] at hp
  rcases List.mem_cons.1 hp with rfl | hp
  · exact List.Subset.refl _
  · rw [hg]; exact List.subset_cons_of_subset g (h hp)

mutual

/-- **What stands in a part stands in the whole.** -/
theorem parts_subset {p : Gen ρ} : ∀ g : Gen ρ, p ∈ g.parts → p.parts ⊆ g.parts
  | .literal text, h => by rw [List.mem_singleton.1 h]; exact List.Subset.refl _
  | .oneOf items, h => by rw [List.mem_singleton.1 h]; exact List.Subset.refl _
  | .seq gs, h => parts_cons (partsAll_subset gs) rfl h
  | .choice gs, h => parts_cons (partsAll_subset gs) rfl h
  | .weighted gs, h => parts_cons (partsOptions_subset gs) rfl h
  | .depthChoice terminal recursive, h =>
    parts_cons (parts_append (parts_subset terminal) (parts_subset recursive)) rfl h
  | .depthChoiceAmong terminals recursives, h =>
    parts_cons (parts_append (partsAll_subset terminals) (partsAll_subset recursives)) rfl h
  | .many inner, h => parts_cons (parts_subset inner) rfl h
  | .many1 inner, h => parts_cons (parts_subset inner) rfl h
  | .count _ inner, h => parts_cons (parts_subset inner) rfl h
  | .optional inner, h => parts_cons (parts_subset inner) rfl h
  | .sepBy inner sep, h => parts_cons (parts_append (parts_subset inner) (parts_subset sep)) rfl h
  | .sepBy1 inner sep, h => parts_cons (parts_append (parts_subset inner) (parts_subset sep)) rfl h
  | .either left right, h => parts_cons (parts_append (parts_subset left) (parts_subset right)) rfl h
  | .between inner before after, h =>
    parts_cons (parts_append (parts_subset inner)
      (parts_append (parts_subset before) (parts_subset after))) rfl h
  | .map _ inner, h => parts_cons (parts_subset inner) rfl h
  | .delayed inner, h => parts_cons (parts_subset inner) rfl h
  | .ref symbol, h => by rw [List.mem_singleton.1 h]; exact List.Subset.refl _

theorem partsAll_subset {p : Gen ρ} :
    ∀ gs : List (Gen ρ), p ∈ partsAll gs → p.parts ⊆ partsAll gs
  | [], h => by cases h
  | g :: gs, h => parts_append (parts_subset g) (partsAll_subset gs) h

theorem partsOptions_subset {p : Gen ρ} :
    ∀ gs : List (Float × Gen ρ), p ∈ partsOptions gs → p.parts ⊆ partsOptions gs
  | [], h => by cases h
  | (_, g) :: gs, h => parts_append (parts_subset g) (partsOptions_subset gs) h

end

/-- **A generator without faults**, in itself or in any part. -/
def WellFormed (g : Gen ρ) : Prop := ∀ p ∈ g.parts, p.ownFaults = []

theorem wellFormed_of_all {g : Gen ρ} (h : g.parts.all (·.ownFaults.isEmpty) = true) :
    g.WellFormed := fun p hp => List.isEmpty_iff.1 (List.all_eq_true.1 h p hp)

theorem WellFormed.part {g p : Gen ρ} (h : g.WellFormed) (hp : p ∈ g.parts) : p.WellFormed :=
  fun q hq => h q (parts_subset g hp hq)

/-- **A generator without faults passes the check.** -/
theorem WellFormed.check {g : Gen ρ} (h : g.WellFormed) : g.check = .ok () := by
  cases hcheck : g.check with
  | ok => rfl
  | error e =>
    obtain ⟨p, hp, he⟩ := List.mem_flatMap.1 (fault_of_check g hcheck)
    rw [h p hp] at he
    cases he

end Gen

/-- **No rule has a fault.** -/
theorem wellFormed_body (r : Rule) : r.body.WellFormed := by
  refine Gen.wellFormed_of_all ?_
  cases r <;> decide +kernel

/-- **No program has a fault.** -/
theorem wellFormed_program (tier : Tier) (comments rarities : Bool) :
    (Phrase.program tier comments rarities).WellFormed := by
  refine Gen.wellFormed_of_all ?_
  -- the parts of a shape are gone through once for all choices
  revert comments rarities
  cases tier <;> decide +kernel

/-! ## Samplers that fail for want of patience or fuel only -/

namespace Sampler

variable {σ α β : Type}

/-- **A sampler that fails with some faults only.** -/
def FailsWith (F : Fault → Prop) (s : Sampler σ α) : Prop := ∀ c e, (s c).1 = .error e → F e

/-- **A robust sampler** fails only when its patience or its fuel is at an end. -/
abbrev Robust (s : Sampler σ α) : Prop :=
  FailsWith (fun e => e = .outOfPatience ∨ e = .outOfFuel) s

variable {F : Fault → Prop}

theorem failsWith_pure (a : α) : FailsWith F (pure a : Sampler σ α) := by intro c e h; cases h

theorem failsWith_fail {e : GenError} (h : F (.illFormed e)) :
    FailsWith F (fail e : Sampler σ α) := by
  intro c f hf
  obtain rfl : Fault.illFormed e = f := Except.error.inj hf
  exact h

theorem failsWith_bind {s : Sampler σ α} {f : α → Sampler σ β} (hs : FailsWith F s)
    (hf : ∀ a, FailsWith F (f a)) : FailsWith F (s >>= f) := by
  intro c e h
  cases hr : (s c).1 with
  | error e' =>
    rw [bind_of_error hr] at h
    obtain rfl : e' = e := Except.error.inj h
    exact hs c e' hr
  | ok a =>
    rw [bind_of_ok hr] at h
    exact hf a _ e h

section Patience

variable (hF : F .outOfPatience)

include hF

theorem failsWith_redraw {draw : Sampler σ α} (h : FailsWith F draw) (accept : α → Bool) :
    ∀ tries, FailsWith F (redraw draw accept tries)
  | 0 => fun _ _ he => Except.error.inj he ▸ hF
  | tries + 1 => by
    refine failsWith_bind h fun a => ?_
    split
    · exact failsWith_pure a
    · exact failsWith_redraw h accept tries

theorem failsWith_redrawing {draw : Sampler σ α} (h : FailsWith F draw) (accept : α → Bool) :
    FailsWith F (redrawing draw accept) :=
  fun c => failsWith_redraw hF h accept (c.patience + 1) c

end Patience

variable [Source σ]

theorem failsWith_word : FailsWith F (word (σ := σ)) := by intro c e h; cases h

theorem failsWith_gated {s t : Sampler σ α} (hs : FailsWith F s) (ht : FailsWith F t) :
    FailsWith F (gated s t) := by
  intro c e h
  by_cases hc : c.atLimit = true
  · rw [gated_of_atLimit hc] at h; exact hs c e h
  rw [gated_of_not_atLimit hc] at h
  split at h
  · exact ht (unit c).2.descend e h
  · exact hs _ e h

theorem failsWith_drawClosed (hF : F .outOfPatience) :
    DrawClosed (σ := σ) fun s _ => FailsWith F s where
  pure := failsWith_pure
  bind := failsWith_bind
  word := failsWith_word
  below _ _ := failsWith_bind (failsWith_redrawing hF failsWith_word _) fun _ => failsWith_pure _

/-- **The faults of the parts are those of the whole**: all that generators are made of fails only
for want of patience or with faults of theirs. -/
theorem failsWith_closed (hF : F .outOfPatience) : Closed (σ := σ) fun s _ => FailsWith F s where
  toDrawClosed := failsWith_drawClosed hF
  repeatCount least c := (failsWith_drawClosed hF).upTo least c.bounds.maxRepeat c
  gated := failsWith_gated
  name := failsWith_bind (failsWith_redrawing hF (failsWith_drawClosed hF).sampleShort _)
    fun _ => failsWith_pure _
  symbolic := failsWith_redrawing hF (failsWith_drawClosed hF).symbolicCandidate _

/-- **What is well-formed is robust**, whatever the fuel. -/
theorem robust_run {p : Phrase} (hp : p.WellFormed) (fuel : Nat) :
    Robust (p.run ((sml (σ := σ)).call fuel)) := by
  have hfail : ∀ {g : Phrase}, g.WellFormed → ∀ q ∈ g.parts, ∀ e ∈ q.ownFaults,
      Robust (fail e : Sampler σ Text) := by
    intro g hg q hq e he
    rw [hg q hq] at he
    cases he
  have hclosed : Closed (σ := σ) fun s _ => Robust s := failsWith_closed (.inl rfl)
  refine hclosed.run_self (hfail hp) fun x _ => ?_
  exact hclosed.call (fun r => hfail (wellFormed_body r))
    (fun _ _ h => .inr (Except.error.inj h).symm) fuel x

end Sampler

open Sampler

/-! ## Success with enough patience -/

/-- **Runs that succeed**: by their patience, all that are patient enough yield the same value, and
it has a property. -/
def Succeeds {α : Type} (run : Nat → Except Fault α) (P : α → Prop) : Prop :=
  ∃ n a, P a ∧ ∀ m ≥ n, run m = .ok a

section Traced

variable {α β : Type} {P : α → Prop} {Q : β → Prop}

theorem succeeds_ok {a : α} (h : P a) : Succeeds (fun _ => .ok a) P := ⟨0, a, h, fun _ _ => rfl⟩

/-- What goes on with a value succeeds if both runs do: enough patience is enough for both. -/
theorem succeeds_andThen {first : Nat → Traced α} {next : Nat → α → Traced β}
    (h : Succeeds (fun m => (first m).outcome) P)
    (hnext : ∀ a, P a → Succeeds (fun m => (next m a).outcome) Q) :
    Succeeds (fun m => ((first m).andThen (next m)).outcome) Q := by
  obtain ⟨n, a, ha, hn⟩ := h
  obtain ⟨n', b, hb, hn'⟩ := hnext a ha
  refine ⟨max n n', b, hb, fun m hm => ?_⟩
  have hfirst : (first m).outcome = .ok a := hn m (by omega)
  show ((first m).andThen (next m)).outcome = .ok b
  unfold Traced.andThen
  rw [hfirst]
  exact hn' m (by omega)

/-- Runs in order succeed if each does. -/
theorem succeeds_inOrder {run : Nat → Nat → Traced α}
    (h : ∀ i, Succeeds (fun m => (run m i).outcome) P) (is : List Nat) :
    Succeeds (fun m => (Traced.inOrder (run m) is).outcome)
      fun as => as.length = is.length ∧ ∀ a ∈ as, P a := by
  induction is with
  | nil => exact succeeds_ok ⟨rfl, fun a ha => by cases ha⟩
  | cons i is ih =>
    refine succeeds_andThen (h i) fun a ha => succeeds_andThen ih fun as has => succeeds_ok ?_
    refine ⟨congrArg (· + 1) has.1, fun b hb => ?_⟩
    rcases List.mem_cons.1 hb with rfl | hb
    · exact ha
    · exact has.2 b hb

end Traced

/-- **A search succeeds if its samples do.** -/
theorem searchFit_succeeds {once : Nat → Tier → Int64 → Except Fault Text} {P : Text → Prop}
    (h : ∀ tier seed, Succeeds (fun m => once m tier seed) P) (maxLength : Nat) (seed : Int64)
    (left number : Nat) (tier : Tier) :
    Succeeds (fun m => (searchFit (once m) maxLength seed left number tier).outcome) P := by
  induction left generalizing number tier with
  | zero => exact h .minimal seed
  | succ left ih =>
    have hfirst : Succeeds
        (fun m => (Traced.of (once m tier (seed + Int64.ofNat number))).outcome) P := h tier _
    refine succeeds_andThen hfirst fun t ht => ?_
    show Succeeds (fun m => Traced.outcome (if t.length ≤ maxLength then _ else _)) P
    by_cases hfits : t.length ≤ maxLength
    · simp only [if_pos hfits]
      exact succeeds_ok ht
    · simp only [if_neg hfits]
      cases hlower : tier.lower with
      | some target => exact ih (number + 1) target
      | none => exact h .minimal seed

/-! ## Phrases and programs -/

section Sample

variable {σ : Type} [Source σ]

/-- **A well-formed phrase succeeds** on a source on which the redraw loops stop. -/
theorem sample_succeeds {p : Phrase} (hp : p.WellFormed) (c : Context σ)
    (hsource : Settles c.source) :
    Succeeds (fun m => (p.sample (c.patient m)).1) fun _ => True := by
  have hlasting : Lasting (p.run ((sml (σ := σ)).call (fuelFor c))) := lasting_run p (fuelFor c)
  obtain ⟨n, hn⟩ := hlasting.ends c hsource
  have hmore : ∀ m ≥ n, (p.sample (c.patient m)).1 = (p.sample (c.patient n)).1 :=
    fun m hm => (hlasting.more (c.patient n) m hm hn).1
  cases hr : (p.sample (c.patient n)).1 with
  | ok t => exact ⟨n, t, trivial, fun m hm => (hmore m hm).trans hr⟩
  | error e =>
    -- it is patient enough, and has fuel enough
    rcases robust_run hp (fuelFor c) (c.patient n) e hr with rfl | rfl
    · exact absurd hr hn
    · exact absurd hr (sample_fuel p (c.patient n) (Nat.le_refl _)).2

/-- No program is empty. -/
theorem program_nonempty {tier : Tier} {comments rarities : Bool} {c : Context σ} {t : Text}
    (h : ((Phrase.program tier comments rarities).sample c).1 = .ok t) : t ≠ [] := by
  obtain ⟨cs, hcs, -⟩ := fits_program h
  intro hempty
  cases hcs.vanishes hempty

variable {seeded : UInt64 → σ}

theorem sampleProgram_succeeds (hsource : ∀ seed, Settles (seeded seed)) (comments rarities : Bool)
    (tier : Tier) (seed : Int64) :
    Succeeds (fun m => sampleProgram ⟨seeded, m⟩ comments rarities tier seed) (· ≠ []) := by
  obtain ⟨n, t, -, hn⟩ := sample_succeeds (wellFormed_program tier comments rarities)
    ((⟨seeded, 0⟩ : Entropy σ).context seed.toUInt64 tier.bounds) (hsource _)
  exact ⟨n, t, program_nonempty (hn n (Nat.le_refl n)), hn⟩

theorem generateTraced_succeeds (hsource : ∀ seed, Settles (seeded seed)) (c : Config) :
    Succeeds (fun m => (generateTraced ⟨seeded, m⟩ c).outcome) (· ≠ []) :=
  searchFit_succeeds (sampleProgram_succeeds hsource c.comments c.rarities) c.maxLength c.seed
    maxAttempts 0 c.tier

end Sample

/-! ## Bytes -/

section Bytes

variable {σ : Type} [Source σ]

/-- **A draw of a byte.** A place below `n` is drawn and made a byte, which is added to the first one;
the character is that of the sum. Neither the place nor the sum is out of a byte's range. -/
structure DrawsByte (s : Sampler σ Char) (first : UInt8) (n : Nat) : Prop where
  draw : ∃ h, s = do return Char.ofUInt8 (first + UInt8.ofNat (← below n h))
  place : ∀ i < n, (UInt8.ofNat i).toNat = i
  sum : ∀ i < n, (first + UInt8.ofNat i).toNat = first.toNat + i

theorem length_charRun (first : Char) (n : Nat) : (charRun first n).length = n := by
  rw [charRun, List.length_map, List.length_range]

/-- **A character of a run is drawn as a byte**, if the run ends within a byte. -/
theorem drawsByte_element {alphabet : List Char} {head : Char} {first : UInt8} {n : Nat}
    (h : 0 < alphabet.length) (hrun : alphabet = charRun head n) (hhead : head = Char.ofUInt8 first)
    (hfits : first.toNat + n ≤ 256) : DrawsByte (σ := σ) (element alphabet h) first n := by
  subst hrun hhead
  have hplace : ∀ i < n, (UInt8.ofNat i).toNat = i := by
    intro i hi
    have hbyte : i < 256 := by omega
    exact UInt8.toNat_ofNat_of_lt' hbyte
  have hsum : ∀ i < n, (first + UInt8.ofNat i).toNat = first.toNat + i := by
    intro i hi
    rw [UInt8.toNat_add, hplace i hi, Nat.mod_eq_of_lt (by omega)]
  -- the sum is the code of the character at the place
  have hchar : ∀ (i : Nat) (hi : i < (charRun (Char.ofUInt8 first) n).length), i < n →
      (charRun (Char.ofUInt8 first) n)[i] = Char.ofUInt8 (first + UInt8.ofNat i) := by
    intro i hi hin
    have hcode : (charRun (Char.ofUInt8 first) n)[i] = Char.ofNat (first.toNat + i) := by
      simp only [charRun, List.getElem_map, List.getElem_range]
      rfl
    rw [hcode, ← hsum i hin]
    exact Char.ofNat_toNat (Char.ofUInt8 (first + UInt8.ofNat i))
  have hlength := length_charRun (Char.ofUInt8 first) n
  have hpos : 0 < n := hlength ▸ h
  refine ⟨⟨hpos, ?_⟩, hplace, hsum⟩
  unfold element
  rw [below_bind hlength.symm hpos h]
  exact congrArg (below n hpos >>= ·) (funext fun i => congrArg pure (hchar i _ i.isLt))

end Bytes

/-! ## The answer -/

/-- **A phrase of the programs**: it stands in a program of some tier or in a rule, delayed or
not. -/
inductive Occurs : Phrase → Prop where
  | program {p : Phrase} (tier : Tier) (comments rarities : Bool)
    (h : p ∈ (Phrase.program tier comments rarities).parts) : Occurs p
  | rule {p : Phrase} (r : Rule) (h : p ∈ r.body.parts) : Occurs p

theorem Occurs.wellFormed {p : Phrase} (h : Occurs p) : p.WellFormed := by
  cases h with
  | program tier comments rarities h => exact (wellFormed_program tier comments rarities).part h
  | rule r h => exact (wellFormed_body r).part h

/-- **Generation never fails and never yields nothing**, on sources on which the redraw loops stop:
with enough patience every program, every fixture of a batch and every text of a suite is there,
and has a character. No phrase of the programs fails when it is checked or when it runs. No
position is out of range, neither of what a roll selects by weight nor of a named escape. Nor is a
byte: the samplers of letters, digits and comment characters draw a place that a byte holds, and add
it to the first character of their alphabet without wrapping. -/
theorem generation_succeeds {σ : Type} [Source σ] {seeded : UInt64 → σ}
    (hsource : ∀ seed, Settles (seeded seed)) :
    (∀ c, Succeeds (fun m => generate ⟨seeded, m⟩ c) (· ≠ [])) ∧
    (∀ count seed selector profile,
      Succeeds (fun m => (generateBatch ⟨seeded, m⟩ count seed selector profile).outcome)
        fun fixtures => fixtures.length = count ∧ ∀ f ∈ fixtures, f.text ≠ []) ∧
    (∀ count maxLength seed,
      Succeeds (fun m => (generateSuite ⟨seeded, m⟩ count maxLength seed).outcome)
        fun ts => ts.length = count ∧ ∀ t ∈ ts, t ≠ []) ∧
    (∀ p, Occurs p → p.check = .ok () ∧ ∀ c : Context σ, Settles c.source →
      Succeeds (fun m => (p.sample (c.patient m)).1) fun _ => True) ∧
    (∀ (weights : List Float) roll, weights ≠ [] → Weights.select weights roll < weights.length) ∧
    (∀ roll i, Weights.walk roll (Literal.namedEscapes.map (·.1)) = some i →
      i < Literal.namedEscapes.length) ∧
    DrawsByte (σ := σ) lowerLetter 'a'.toUInt8 26 ∧ DrawsByte (σ := σ) upperLetter 'A'.toUInt8 26 ∧
    DrawsByte (σ := σ) digit '0'.toUInt8 10 ∧ DrawsByte (σ := σ) nonzeroDigit '1'.toUInt8 9 ∧
    DrawsByte (σ := σ) latinChar 0 256 := by
  refine ⟨generateTraced_succeeds hsource, fun count seed selector profile => ?_,
    fun count maxLength seed => ?_, fun p hp => ⟨hp.wellFormed.check, fun c hc => ?_⟩,
    fun weights roll hne => ?_, fun roll i hi => ?_, ?_⟩
  · have hfixture : ∀ i, Succeeds
        (fun m => (generateFixture ⟨seeded, m⟩ seed selector profile i).outcome)
        fun f => f.text ≠ [] := fun i =>
      succeeds_andThen (generateTraced_succeeds hsource _) fun t ht => succeeds_ok ht
    have hbatch := succeeds_inOrder hfixture (List.range count)
    rw [List.length_range] at hbatch
    exact hbatch
  · have hsuite := succeeds_inOrder
      (fun i => generateTraced_succeeds hsource (suiteConfig maxLength seed i)) (List.range count)
    rw [List.length_range] at hsuite
    exact hsuite
  · exact sample_succeeds hp.wellFormed c hc
  · exact Weights.select_lt_length roll (List.length_pos_iff.2 hne)
  · have hlt := Weights.lt_length_of_walk hi
    rwa [List.length_map] at hlt
  · -- each alphabet is a run from its first character
    exact ⟨drawsByte_element _ rfl rfl (by decide), drawsByte_element _ rfl rfl (by decide),
      drawsByte_element _ rfl rfl (by decide), drawsByte_element _ rfl rfl (by decide),
      drawsByte_element _ rfl rfl (by decide)⟩

/-- On tapes of zeros a program is there even for a budget of nothing. -/
theorem generation_succeeds_zero :
    (∀ seed : UInt64, Settles ((fun _ => Tape.constant 0) seed)) ∧
    Succeeds (fun m => generate (⟨fun _ => Tape.constant 0, m⟩ : Entropy Tape)
      ⟨0, .extreme, 7, true, true⟩) (· ≠ []) ∧
    (Phrase.program .extreme true true).check = .ok () ∧
    Weights.select [0.5, 0.5] 0.75 < 2 := by
  have hsource : ∀ seed : UInt64, Settles ((fun _ => Tape.constant 0) seed) := fun _ => settles_zero
  obtain ⟨hgenerate, -, -, hphrase, hselect, -⟩ := generation_succeeds hsource
  refine ⟨hsource, hgenerate ⟨0, .extreme, 7, true, true⟩, ?_, ?_⟩
  · exact (hphrase _ (.program .extreme true true (List.mem_cons_self ..))).1
  · exact hselect [0.5, 0.5] 0.75 (List.cons_ne_nil _ _)

end SmlSynth
