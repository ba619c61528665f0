import SmlSynth.Proofs.Rows

/-!
# How often a repetition repeats

A repetition draws a number before anything in it runs. Then its parts run one after another, each
from the context that the one before it left, and their texts in order make up its text. Between
two of the repeated parts a list has its separator once.

* `InSuccession`: runs that succeed one after another.
* `concat_ok_iff`: a row succeeds exactly if its parts do so in succession.
* `Rounds`: a number is drawn, and then the parts that it asks for run in succession.
* `exists_word_below`: every number below a bound is drawn from some word.
* `repetitions_exact`: what a repetition that succeeds has done, and the numbers that are drawn.
-/

namespace SmlSynth

variable {σ ρ α : Type}

namespace Sampler

/-! ## Runs in succession -/

/-- **Runs in succession**: each sampler succeeds from the context that the one before it left. The
texts are theirs, in order. -/
inductive InSuccession : List (Sampler σ Text) → Context σ → List Text → Context σ → Prop where
  | nil (c : Context σ) : InSuccession [] c [] c
  | cons {s : Sampler σ Text} {rest : List (Sampler σ Text)} {c c₁ c₂ : Context σ} {t : Text}
    {ts : List Text} (first : s c = (.ok t, c₁)) (others : InSuccession rest c₁ ts c₂) :
    InSuccession (s :: rest) c (t :: ts) c₂

variable {c c' : Context σ} {t : Text}

/-- What succeeds in two steps succeeds in each, and the second starts where the first ended. -/
theorem bind_ok_iff {β : Type} {s : Sampler σ α} {f : α → Sampler σ β} {b : β} :
    (s >>= f) c = (.ok b, c') ↔ ∃ a c₁, s c = (.ok a, c₁) ∧ f a c₁ = (.ok b, c') := by
  constructor
  · intro h
    obtain ⟨a, ha, -⟩ := of_bind_ok (congrArg Prod.fst h)
    rw [bind_of_ok ha] at h
    exact ⟨a, (s c).2, Prod.ext ha rfl, h⟩
  · rintro ⟨a, c₁, ha, hb⟩
    rw [bind_of_ok (congrArg Prod.fst ha), ha]
    exact hb

/-- **A row succeeds exactly if its parts do so in succession**, and its text is theirs put
together. -/
theorem concat_ok_iff {parts : List (Sampler σ Text)} :
    concat parts c = (.ok t, c') ↔ ∃ ts, InSuccession parts c ts c' ∧ t = ts.flatten := by
  induction parts generalizing c t with
  | nil =>
    constructor
    · intro h
      cases h
      exact ⟨[], .nil _, rfl⟩
    · rintro ⟨ts, hts, rfl⟩
      cases hts
      rfl
  | cons s rest ih =>
    unfold concat
    constructor
    · intro h
      obtain ⟨u, c₁, hu, h⟩ := bind_ok_iff.1 h
      obtain ⟨v, c₂, hv, h⟩ := bind_ok_iff.1 h
      cases h
      obtain ⟨ts, hts, rfl⟩ := ih.1 hv
      exact ⟨u :: ts, .cons hu hts, rfl⟩
    · rintro ⟨ts, hts, rfl⟩
      cases hts with
      | cons hfirst hothers =>
        exact bind_ok_iff.2 ⟨_, _, hfirst, bind_ok_iff.2 ⟨_, _, ih.2 ⟨_, hothers, rfl⟩, rfl⟩⟩

/-! ## Rounds -/

variable [Source σ]

/-- **Rounds.** A number is drawn before anything runs; it lies between the least one and the bound,
or is the least one if that is greater. Then the parts that the number asks for run in succession,
and the text is theirs put together. -/
def Rounds (least : Nat) (parts : Nat → List (Sampler σ Text)) (c : Context σ) (t : Text)
    (c' : Context σ) : Prop :=
  ∃ k c₁ ts, repeatCount least c = (.ok k, c₁) ∧ least ≤ k ∧ k ≤ max least c.bounds.maxRepeat ∧
    InSuccession (parts k) c₁ ts c' ∧ t = ts.flatten

/-- What draws a number and then runs the row that it asks for goes through rounds. -/
theorem rounds_iff {least : Nat} {parts : Nat → List (Sampler σ Text)} :
    (repeatCount least >>= fun k => concat (parts k)) c = (.ok t, c') ↔
      Rounds least parts c t c' := by
  rw [bind_ok_iff]
  refine exists_congr fun k => exists_congr fun c₁ => ?_
  rw [concat_ok_iff]
  constructor
  · rintro ⟨hcount, ts, hts, ht⟩
    obtain ⟨hleast, hmost⟩ := repeatCount_ok (congrArg Prod.fst hcount)
    exact ⟨ts, hcount, hleast, hmost, hts, ht⟩
  · rintro ⟨ts, hcount, -, -, hts, ht⟩
    exact ⟨hcount, ts, hts, ht⟩

end Sampler

open Sampler

/-- Items that alternate with a separator are copies of an item with the separator between them. -/
theorem alternating_eq_intersperse (item sep : α) (n : Nat) :
    alternating item sep n = (List.replicate n item).intersperse sep := by
  cases n with
  | zero => rfl
  | succ n =>
    induction n with
    | zero => rfl
    | succ n ih =>
      rw [List.replicate_succ, List.replicate_succ, List.intersperse_cons_cons,
        ← List.replicate_succ, ← ih]
      rfl

/-! ## The numbers that are drawn -/

/-- **Every number below a bound is drawn from some word**, which is accepted at once. -/
theorem exists_word_below {n j : Nat} (hn : n ≤ wordCount) (hj : j < n) :
    ∃ w : UInt64, w.toNat * n % wordCount ≤ acceptZone n ∧ w.toNat * n / wordCount = j := by
  -- the least number whose product with the bound reaches the multiple of the count of words
  obtain ⟨q, hq⟩ : ∃ q, q = (j * wordCount + n - 1) / n := ⟨_, rfl⟩
  have hdiv := Nat.div_add_mod (j * wordCount + n - 1) n
  have hmod := Nat.mod_lt (j * wordCount + n - 1) (by omega : 0 < n)
  rw [← hq, Nat.mul_comm] at hdiv
  have hreach : j * wordCount ≤ q * n := by omega
  have hnear : q * n ≤ j * wordCount + (n - 1) := by omega
  unfold wordCount at hn hreach hnear
  have hlt : q < 0x10000000000000000 := by
    refine Nat.lt_of_mul_lt_mul_right (a := n) ?_
    omega
  have htoNat : (UInt64.ofNat q).toNat = q := Nat.mod_eq_of_lt hlt
  refine ⟨UInt64.ofNat q, ?_, ?_⟩
  · have hzone := pred_le_acceptZone n
    rw [htoNat]
    unfold wordCount
    omega
  · rw [htoNat]
    unfold wordCount
    omega

/-- **The numbers that are drawn** under a bound are those from the least one up to it, or the least
one alone if that is greater. -/
theorem exists_repeatCount_iff (least k : Nat) (most : UInt64) :
    (least ≤ k ∧ k ≤ max least most.toNat) ↔
      ∃ c : Context Tape, c.bounds.maxRepeat = most.toNat ∧ (repeatCount least c).1 = .ok k := by
  constructor
  · rintro ⟨hleast, hmost⟩
    have hword : most.toNat < wordCount := most.toNat_lt
    by_cases h : least < most.toNat
    · obtain ⟨w, hzone, hw⟩ := exists_word_below (n := most.toNat - least + 1) (j := k - least)
        (by omega) (by omega)
      let c : Context Tape := ⟨Tape.constant w, ⟨0, most.toNat⟩, 0, 0, 0⟩
      have hdraw := upTo_of_word (c := c) (w := w) h rfl hzone
      refine ⟨c, rfl, ?_⟩
      show (upTo least most.toNat c).1 = .ok k
      rw [hdraw, hw]
      show Except.ok (least + (k - least)) = _
      rw [Nat.add_sub_cancel' hleast]
    · obtain rfl : k = least := by omega
      refine ⟨⟨Tape.constant 0, ⟨0, most.toNat⟩, 0, 0, 0⟩, rfl, ?_⟩
      show (upTo k most.toNat _).1 = .ok k
      rw [upTo, if_neg h]
      rfl
  · rintro ⟨c, hc, h⟩
    rw [← hc]
    exact repeatCount_ok h

/-! ## The answer -/

variable [Source σ]

/-- **Repetitions are exact.** A repetition of a generator succeeds exactly if a number is drawn and
then as many runs of the generator succeed in succession; a list has one run of its separator
between two of them, and none before the first or after the last. The number is drawn before
anything runs. It lies between zero and the bound, or between one and the bound where at least one
text is asked for, or is one if the bound is zero; and for every bound that a word holds each of
these numbers is drawn on some source. -/
theorem repetitions_exact (call : ρ → Sampler σ Text) (g sep : Gen ρ) (c c' : Context σ)
    (t : Text) :
    let copies k := List.replicate k (g.run call)
    let list k := (copies k).intersperse (sep.run call)
    ((Gen.many g).run call c = (.ok t, c') ↔ Rounds 0 copies c t c') ∧
    ((Gen.many1 g).run call c = (.ok t, c') ↔ Rounds 1 copies c t c') ∧
    ((Gen.sepBy g sep).run call c = (.ok t, c') ↔ Rounds 0 list c t c') ∧
    ((Gen.sepBy1 g sep).run call c = (.ok t, c') ↔ Rounds 1 list c t c') ∧
    ∀ (least k : Nat) (most : UInt64), (least ≤ k ∧ k ≤ max least most.toNat) ↔
      ∃ c : Context Tape, c.bounds.maxRepeat = most.toNat ∧ (repeatCount least c).1 = .ok k := by
  intro copies list
  have hcopies : (fun k => repeated k (g.run call)) = fun k => concat (copies k) :=
    funext (repeated_eq_concat (g.run call))
  have hlist : (fun k => separated k (g.run call) (sep.run call)) = fun k => concat (list k) := by
    funext k
    rw [separated_eq_concat, alternating_eq_intersperse]
  refine ⟨?_, ?_, ?_, ?_, exists_repeatCount_iff⟩
  · rw [Gen.run, hcopies, rounds_iff]
  · rw [Gen.run, hcopies, rounds_iff]
  · rw [Gen.run, hlist, rounds_iff]
  · rw [Gen.run, hlist, rounds_iff]

end SmlSynth
