import Mathlib.Logic.Relation
import SmlSynth.Program.Shape
import SmlSynth.Proofs.Fuel

/-!
# Every run ends

The redraw loops give up when their patience ends. On a source from which they stop by themselves,
a run that is patient enough does not give up, and more patience makes no difference to it.

* `Settles`: the sources from which every redraw loop stops.
* `Settling`: kinds of sources from which at least the loop for numbers below a bound stops.
* `LastingOn`: samplers that need finite patience on a source of a kind, and do the same with more.
* `sample_ends`: every phrase ends, and its depth stays within the limit.
-/

namespace SmlSynth

variable {σ α β : Type}

/-- The context with some patience. -/
def Context.patient (c : Context σ) (n : Nat) : Context σ := { c with patience := n }

/-- The context at the start of a run, with some patience: nothing is deeper yet than its depth. -/
def Context.fresh (c : Context σ) (n : Nat) : Context σ :=
  { c with patience := n, peak := c.depth }

namespace Sampler

/-- **A sampler ends** from a context if it does not give up when it is patient enough. -/
def Ends (s : Sampler σ α) (c : Context σ) : Prop :=
  ∃ n, (s (c.patient n)).1 ≠ .error .outOfPatience

end Sampler

section Sources

variable [Source σ]

/-- Whether a source comes after another, or is the same. -/
def Follows : σ → σ → Prop := Relation.ReflTransGen fun x y => y = (Source.next x).2

/-- **A source on which the redraw loops stop**: the one for numbers below a bound that is a word,
the one for names and the one for symbolic identifiers, wherever on the source they start. -/
structure Settles (x : σ) : Prop where
  below : ∀ c : Context σ, Follows x c.source → ∀ (n : Nat) (h : 0 < n), n < wordCount →
    (Sampler.below n h).Ends c
  name : ∀ c : Context σ, Follows x c.source → Lexeme.sampleName.Ends c
  symbolic : ∀ c : Context σ, Follows x c.source → Lexeme.sampleSymbolic.Ends c

theorem Settles.follows {x y : σ} (h : Settles x) (hxy : Follows x y) : Settles y where
  below c hc n hn := h.below c (hxy.trans hc) n hn
  name c hc := h.name c (hxy.trans hc)
  symbolic c hc := h.symbolic c (hxy.trans hc)

/-- **A source on which the loop for numbers below a bound stops**, wherever on the source it
starts. -/
def SettlesBelow (x : σ) : Prop :=
  ∀ c : Context σ, Follows x c.source → ∀ (n : Nat) (h : 0 < n), n < wordCount →
    (Sampler.below n h).Ends c

/-- **A kind of sources that lasts** as words are taken, and on which the loop for numbers below a
bound stops. -/
structure Settling (S : σ → Prop) : Prop where
  follows : ∀ {x y}, S x → Follows x y → S y
  below : ∀ {x}, S x → SettlesBelow x

theorem settling_settles : Settling (Settles (σ := σ)) := ⟨Settles.follows, Settles.below⟩

theorem settling_settlesBelow : Settling (SettlesBelow (σ := σ)) :=
  ⟨fun h hxy c hc => h c (hxy.trans hc), id⟩

end Sources

/-! ## The tape of zeros -/

section Zero

open Sampler

/-- A sampler that yields a value on the tape of zeros and leaves the context as it is. -/
def YieldsZero (s : Sampler Tape α) (a : α) : Prop :=
  ∀ c, c.source = Tape.constant 0 → (s c).1 = .ok a ∧ (s c).2 = c

theorem zero_bind {s : Sampler Tape α} {f : α → Sampler Tape β} {a : α} {b : β}
    (hs : YieldsZero s a) (hf : YieldsZero (f a) b) : YieldsZero (s >>= f) b := by
  intro c hc
  obtain ⟨h1, h2⟩ := hs c hc
  rw [bind_of_ok h1, h2]
  exact hf c hc

theorem zero_pure (a : α) : YieldsZero (pure a) a := fun _ _ => ⟨rfl, rfl⟩

theorem zero_word : YieldsZero word 0 := by
  intro c hc
  obtain ⟨source, bounds, patience, depth, peak⟩ := c
  obtain rfl : source = Tape.constant 0 := hc
  exact ⟨rfl, rfl⟩

theorem zero_redrawing {draw : Sampler Tape α} {accept : α → Bool} {a : α}
    (h : YieldsZero draw a) (ha : accept a = true) : YieldsZero (redrawing draw accept) a := by
  intro c hc
  obtain ⟨h1, h2⟩ := h c hc
  rw [redrawing_of_accept h1 ha, h2]
  exact ⟨rfl, rfl⟩

theorem zero_below (n : Nat) (h : 0 < n) : YieldsZero (below n h) ⟨0, h⟩ := by
  have hzero : (0 : UInt64).toNat * n = 0 := Nat.zero_mul n
  refine zero_bind (zero_redrawing zero_word ?_) fun c _ => ⟨congrArg _ (Fin.ext ?_), rfl⟩
  · rw [decide_eq_true_eq, hzero, Nat.zero_mod]; exact Nat.zero_le _
  · show (0 : UInt64).toNat * n / wordCount = 0
    rw [hzero, Nat.zero_div]

theorem zero_element (items : List α) (h : 0 < items.length) :
    YieldsZero (element items h) items[0] := zero_bind (zero_below _ h) (zero_pure _)

theorem zero_name : YieldsZero Lexeme.sampleName ['a'] := by
  have hshort : YieldsZero Lexeme.sampleShort ['a'] :=
    zero_bind (zero_element lowerLetters (by decide))
      (zero_bind (zero_below 3 (by decide)) (zero_bind (zero_pure []) (zero_pure _)))
  exact zero_bind (zero_redrawing hshort (by decide)) (zero_pure _)

theorem zero_symbolic : YieldsZero Lexeme.sampleSymbolic ['!'] := by
  have hcount : YieldsZero (upTo 1 3) 1 := zero_bind (zero_below 3 (by decide)) (zero_pure _)
  have hchar : YieldsZero symbolicChar '!' := zero_element symbolicChars (by decide)
  have hone : YieldsZero (times 1 symbolicChar) ['!'] :=
    zero_bind hchar (zero_bind (zero_pure []) (zero_pure _))
  exact zero_redrawing (zero_bind hcount hone) (by decide)

/-- On the tape of zeros every redraw loop stops at its first candidate. -/
theorem settles_zero : Settles (Tape.constant 0) := by
  have hfollows : ∀ x, Follows (Tape.constant 0) x → x = Tape.constant 0 := by
    intro x hx
    induction hx with
    | refl => rfl
    | tail _ hstep ih => rw [hstep, ih]; rfl
  have hends : ∀ {α : Type} {s : Sampler Tape α} {a : α}, YieldsZero s a →
      ∀ c : Context Tape, Follows (Tape.constant 0) c.source → Ends s c := by
    intro α s a h c hc
    refine ⟨0, ?_⟩
    rw [(h (c.patient 0) (hfollows _ hc)).1]
    intro he; cases he
  exact ⟨fun c hc n h _ => hends (zero_below n h) c hc, hends zero_name, hends zero_symbolic⟩

end Zero

namespace Sampler

open Context

/-! ## More patience -/

/-- **A patient sampler** keeps the frame, takes words from the source in order, and does the same
with more patience, unless it gives up. -/
structure Patient [Source σ] (s : Sampler σ α) : Prop where
  steady : Steady s
  follows : ∀ c, Follows c.source (s c).2.source
  more : ∀ c n, c.patience ≤ n → (s c).1 ≠ .error .outOfPatience →
    (s (c.patient n)).1 = (s c).1 ∧ (s (c.patient n)).2 = (s c).2.patient n

variable [Source σ]

/-- A sampler that leaves the context as it is. -/
theorem patient_still {r : Except Fault α} {s : Sampler σ α} (h : ∀ c, s c = (r, c)) : Patient s where
  steady c := by rw [h c]; exact .refl c
  follows c := by rw [h c]; exact .refl
  more c n _ _ := by rw [h c, h (c.patient n)]; exact ⟨rfl, rfl⟩

theorem patient_bind {s : Sampler σ α} {f : α → Sampler σ β} (hs : Patient s)
    (hf : ∀ a, Patient (f a)) : Patient (s >>= f) where
  steady := steady_bind hs.steady fun a => (hf a).steady
  follows c := by
    have h := hs.follows c
    cases hr : (s c).1 with
    | error e => rw [bind_of_error hr]; exact h
    | ok a => rw [bind_of_ok hr]; exact h.trans ((hf a).follows _)
  more c n hn hne := by
    cases hr : (s c).1 with
    | error e =>
      rw [bind_of_error hr] at hne ⊢
      -- the first step failed, but not for lack of patience
      have hse : (s c).1 ≠ .error .outOfPatience := by
        rw [hr]; intro he
        obtain rfl : e = .outOfPatience := Except.error.inj he
        exact hne rfl
      obtain ⟨h1, h2⟩ := hs.more c n hn hse
      rw [bind_of_error (h1.trans hr)]
      exact ⟨rfl, h2⟩
    | ok a =>
      rw [bind_of_ok hr] at hne ⊢
      obtain ⟨h1, h2⟩ := hs.more c n hn (by rw [hr]; intro he; cases he)
      have hpatience : (s c).2.patience ≤ n := by rw [(hs.steady c).patience]; exact hn
      rw [bind_of_ok (h1.trans hr), h2]
      exact (hf a).more _ n hpatience hne

theorem patient_redraw {draw : Sampler σ α} (h : Patient draw) (accept : α → Bool) :
    ∀ tries, Patient (redraw draw accept tries)
  | 0 => patient_still fun _ => rfl
  | tries + 1 => by
    refine patient_bind h fun a => ?_
    split
    · exact patient_still fun _ => rfl
    · exact patient_redraw h accept tries

omit [Source σ] in
/-- A loop that does not give up stops at the same candidate when more may be rejected. -/
theorem redraw_more {draw : Sampler σ α} {accept : α → Bool} {tries tries' : Nat}
    (hle : tries ≤ tries') {c : Context σ}
    (hne : (redraw draw accept tries c).1 ≠ .error .outOfPatience) :
    redraw draw accept tries' c = redraw draw accept tries c := by
  induction tries generalizing tries' c with
  | zero => exact absurd rfl hne
  | succ tries ih =>
    obtain ⟨tries', rfl⟩ : ∃ n, tries' = n + 1 := ⟨tries' - 1, by omega⟩
    unfold redraw at hne ⊢
    cases hr : (draw c).1 with
    | error e => rw [bind_of_error hr, bind_of_error hr]
    | ok a =>
      rw [bind_of_ok hr] at hne ⊢
      rw [bind_of_ok hr]
      split
      · rfl
      · rename_i ha
        rw [if_neg ha] at hne
        exact ih (by omega) hne

theorem patient_redrawing {draw : Sampler σ α} (h : Patient draw) (accept : α → Bool) :
    Patient (redrawing draw accept) where
  steady := steady_redrawing h.steady accept
  follows c := (patient_redraw h accept (c.patience + 1)).follows c
  more c n hn hne := by
    -- the candidates themselves do the same with more patience
    have hredraw := (patient_redraw h accept (c.patience + 1)).more c n hn hne
    -- more rejections are allowed, but the loop stops before it needs them
    have hmore : redraw draw accept (n + 1) (c.patient n)
        = redraw draw accept (c.patience + 1) (c.patient n) :=
      redraw_more (by omega) (by rw [hredraw.1]; exact hne)
    show (redraw draw accept (n + 1) (c.patient n)).1 = _ ∧
      (redraw draw accept (n + 1) (c.patient n)).2 = _
    rw [hmore]
    exact hredraw

theorem patient_deeper {s : Sampler σ α} (h : Patient s) {c : Context σ} {n : Nat}
    (hn : c.patience ≤ n) (hne : (deeper s c).1 ≠ .error .outOfPatience) :
    (deeper s (c.patient n)).1 = (deeper s c).1 ∧
      (deeper s (c.patient n)).2 = (deeper s c).2.patient n := by
  obtain ⟨h1, h2⟩ := h.more c.descend n hn hne
  refine ⟨h1, ?_⟩
  show (s (c.descend.patient n)).2.ascend = (s c.descend).2.ascend.patient n
  rw [h2]; rfl

theorem patient_word : Patient (word (σ := σ)) where
  steady := steady_word
  follows _ := .single rfl
  more _ _ _ _ := ⟨rfl, rfl⟩

/-- The gate looks at the depth and the source only, so patience does not change its choice. -/
theorem gated_patient {c : Context σ} (h : ¬ c.atLimit = true) (s t : Sampler σ Text) (n : Nat) :
    gated s t (c.patient n) =
      if unitOfWord (Source.next c.source).1 < c.recursiveProbability then
        deeper t ((unit c).2.patient n)
      else s ((unit c).2.patient n) :=
  gated_of_not_atLimit (c := c.patient n) h s t

theorem patient_gated {s t : Sampler σ Text} (hs : Patient s) (ht : Patient t) :
    Patient (gated s t) where
  steady := steady_gated ceiling_limit hs.steady ht.steady
  follows c := by
    by_cases hc : c.atLimit = true
    · rw [gated_of_atLimit hc]; exact hs.follows c
    rw [gated_of_not_atLimit hc]
    have hword : Follows c.source (unit c).2.source := .single rfl
    split
    · exact hword.trans (ht.follows (unit c).2.descend)
    · exact hword.trans (hs.follows _)
  more c n hn hne := by
    by_cases hc : c.atLimit = true
    · rw [gated_of_atLimit hc] at hne ⊢
      rw [gated_of_atLimit (c := c.patient n) hc]
      exact hs.more c n hn hne
    rw [gated_of_not_atLimit hc] at hne ⊢
    rw [gated_patient hc]
    split
    · rename_i hroll
      rw [if_pos hroll] at hne
      exact patient_deeper ht (c := (unit c).2) hn hne
    · rename_i hroll
      rw [if_neg hroll] at hne
      exact hs.more (unit c).2 n hn hne

theorem patient_drawClosed : DrawClosed (σ := σ) fun s _ => Patient s where
  pure _ := patient_still fun _ => rfl
  bind := patient_bind
  word := patient_word
  below _ _ := patient_bind (patient_redrawing patient_word _) fun _ => patient_still fun _ => rfl

theorem patient_repeatCount (least : Nat) : Patient (repeatCount (σ := σ) least) where
  steady := steady_closed.repeatCount least
  follows c := (patient_drawClosed.upTo least c.bounds.maxRepeat).follows c
  more c n hn hne := (patient_drawClosed.upTo least c.bounds.maxRepeat).more c n hn hne

theorem patient_name : Patient (Lexeme.sampleName (σ := σ)) :=
  patient_bind (patient_redrawing patient_drawClosed.sampleShort _) fun _ => patient_still fun _ => rfl

theorem patient_symbolic : Patient (Lexeme.sampleSymbolic (σ := σ)) :=
  patient_redrawing patient_drawClosed.symbolicCandidate _

/-! ## Enough patience -/

/-- **A sampler that lasts on a kind of sources** is patient, and ends on each of them. -/
structure LastingOn (S : σ → Prop) (s : Sampler σ α) : Prop extends Patient s where
  ends : ∀ c, S c.source → Ends s c

/-- **A lasting sampler** is patient, and ends on every source on which the redraw loops stop. -/
abbrev Lasting (s : Sampler σ α) : Prop := LastingOn Settles s

variable {S : σ → Prop}

theorem lasting_still {r : Except Fault α} {s : Sampler σ α} (h : ∀ c, s c = (r, c))
    (hr : r ≠ .error .outOfPatience) : LastingOn S s where
  toPatient := patient_still h
  ends c _ := ⟨0, by rw [h]; exact hr⟩

/-- Two steps end if each does: the first takes its patience, and the second may take more. -/
theorem lasting_bind (hS : Settling S) {s : Sampler σ α} {f : α → Sampler σ β} (hs : LastingOn S s)
    (hf : ∀ a, LastingOn S (f a)) : LastingOn S (s >>= f) where
  toPatient := patient_bind hs.toPatient fun a => (hf a).toPatient
  ends c hc := by
    obtain ⟨n, hn⟩ := hs.ends c hc
    cases hr : (s (c.patient n)).1 with
    | error e =>
      refine ⟨n, ?_⟩
      rw [bind_of_error hr]
      intro he
      obtain rfl : e = .outOfPatience := Except.error.inj he
      exact hn hr
    | ok a =>
      -- the second step goes on where the first one left the source
      have hsource : S (s (c.patient n)).2.source := hS.follows hc (hs.follows (c.patient n))
      obtain ⟨m, hm⟩ := (hf a).ends _ hsource
      -- with the greater patience both steps do the same as with their own
      have hle : n ≤ max n m := Nat.le_max_left n m
      obtain ⟨h1, h2⟩ := hs.more (c.patient n) (max n m) hle hn
      have hsecond := (hf a).more ((s (c.patient n)).2.patient m) (max n m) (Nat.le_max_right n m) hm
      refine ⟨max n m, ?_⟩
      show ((s >>= f) ((c.patient n).patient (max n m))).1 ≠ _
      rw [bind_of_ok (h1.trans hr), h2]
      exact fun he => hm (hsecond.1.symm.trans he)

theorem lasting_gated (hS : Settling S) {s t : Sampler σ Text} (hs : LastingOn S s)
    (ht : LastingOn S t) : LastingOn S (gated s t) where
  toPatient := patient_gated hs.toPatient ht.toPatient
  ends c hc := by
    by_cases hlim : c.atLimit = true
    · obtain ⟨n, hn⟩ := hs.ends c hc
      refine ⟨n, ?_⟩
      rw [gated_of_atLimit (c := c.patient n) hlim]
      exact hn
    have hsource : S (unit c).2.source := hS.follows hc (.single rfl)
    by_cases hroll : unitOfWord (Source.next c.source).1 < c.recursiveProbability
    · obtain ⟨n, hn⟩ := ht.ends (unit c).2.descend hsource
      refine ⟨n, ?_⟩
      rw [gated_patient hlim, if_pos hroll]
      exact hn
    · obtain ⟨n, hn⟩ := hs.ends (unit c).2 hsource
      refine ⟨n, ?_⟩
      rw [gated_patient hlim, if_neg hroll]
      exact hn

/-- Beyond the words the loop for numbers below a bound takes every candidate. -/
theorem ends_below_of_le {n : Nat} (h : 0 < n) (hn : wordCount ≤ n) (c : Context σ) :
    Ends (below n h) c := by
  have hzone : ∀ w : UInt64, w.toNat * n % wordCount ≤ acceptZone n := by
    intro w
    have hlow : w.toNat * n % wordCount < wordCount := Nat.mod_lt _ (by decide)
    have hshift : n ≤ n <<< (63 - n.log2) := by
      rw [Nat.shiftLeft_eq]; exact Nat.le_mul_of_pos_right n (Nat.two_pow_pos _)
    unfold acceptZone
    omega
  refine ⟨0, ?_⟩
  have hword : (word (c.patient 0)).1 = .ok (Source.next c.source).1 := rfl
  unfold below
  rw [bind_of_ok (congrArg Prod.fst (redrawing_of_accept hword (decide_eq_true (hzone _))))]
  intro he; cases he

theorem lasting_drawClosed (hS : Settling S) : DrawClosed (σ := σ) fun s _ => LastingOn S s where
  pure _ := lasting_still (fun _ => rfl) fun h => by cases h
  bind := lasting_bind hS
  word := ⟨patient_word, fun c _ => ⟨0, fun h => by cases h⟩⟩
  below n hn := by
    refine ⟨patient_drawClosed.below n hn, fun c hc => ?_⟩
    rcases Nat.lt_or_ge n wordCount with hlt | hge
    · exact hS.below hc c .refl n hn hlt
    · exact ends_below_of_le hn hge c

/-- **Lasting is closed** under all that generators are made of but symbols. -/
theorem lasting_genClosed (hS : Settling S) : GenClosed (σ := σ) fun s _ => LastingOn S s where
  toDrawClosed := lasting_drawClosed hS
  repeatCount least := ⟨patient_repeatCount least, fun c =>
    ((lasting_drawClosed hS).upTo least c.bounds.maxRepeat).ends c⟩
  gated := lasting_gated hS

/-- **Lasting samplers are closed** under all that generators are made of. -/
theorem lasting_closed : Closed (σ := σ) fun s _ => Lasting s where
  toGenClosed := lasting_genClosed settling_settles
  name := ⟨patient_name, fun c hc => hc.name c .refl⟩
  symbolic := ⟨patient_symbolic, fun c hc => hc.symbolic c .refl⟩

theorem lasting_run (p : Phrase) (fuel : Nat) : Lasting (p.run ((sml (σ := σ)).call fuel)) := by
  have hfuel : Lasting (throw .outOfFuel : Sampler σ Text) :=
    lasting_still (fun _ => rfl) fun h => by cases h
  have hfail : ∀ e, Lasting (fail e : Sampler σ Text) :=
    fun _ => lasting_still (fun _ => rfl) fun h => by cases h
  exact lasting_closed.run_self (fun _ _ e _ => hfail e)
    fun x _ => lasting_closed.call (fun _ _ _ e _ => hfail e) hfuel fuel x

end Sampler

open Sampler

variable [Source σ]

/-- **Every run ends**, on a source on which the redraw loops stop: from a context within the depth
limit, a phrase that is patient enough has one outcome for all greater patience and for all fuel
that suffices, and it neither gives up nor runs out of fuel. No depth on the way is beyond the
limit, and the depth goes back to where it was. -/
theorem sample_ends (p : Phrase) (c : Context σ) (hdepth : c.depth ≤ c.bounds.maxDepth)
    (hsource : Settles c.source) :
    ∃ n r, r ≠ .error .outOfPatience ∧ r ≠ .error .outOfFuel ∧
      ∀ m ≥ n, ∀ fuel ≥ fuelFor c,
        let run := p.run (sml.call fuel) (c.fresh m)
        run.1 = r ∧ run.2.depth = c.depth ∧ run.2.peak ≤ c.bounds.maxDepth := by
  have hlasting : Lasting (p.run ((sml (σ := σ)).call (fuelFor c))) := lasting_run p (fuelFor c)
  -- more fuel than the phrase is given makes no difference
  have hsample : ∀ m, ∀ fuel ≥ fuelFor c,
      p.run (sml.call fuel) (c.fresh m) = p.run (sml.call (fuelFor c)) (c.fresh m) :=
    fun m fuel hfuel => (sample_fuel p (c.fresh m) hfuel).1
  obtain ⟨n, hn⟩ := hlasting.ends (c.fresh c.patience) hsource
  refine ⟨n, _, hn, (sample_fuel p (c.fresh n) (Nat.le_refl _)).2, fun m hm fuel hfuel => ?_⟩
  have hkept := steady_run (steady_call fuel) p (c.fresh m)
  refine ⟨?_, hkept.depth, ?_⟩
  · rw [hsample m fuel hfuel]
    exact (hlasting.more (c.fresh n) m hm hn).1
  · have hpeak : (p.run (sml.call fuel) (c.fresh m)).2.peak ≤ max c.depth c.bounds.maxDepth :=
      hkept.peak
    omega

/-- The start of a run at the highest tier, on the tape of zeros. -/
def zeroStart : Context Tape :=
  { source := Tape.constant 0, bounds := Tier.extreme.bounds, patience := 0 }

/-- A program of the highest tier ends on the tape of zeros. -/
theorem sample_ends_zero :
    Settles zeroStart.source ∧ ∃ n r, r ≠ .error .outOfPatience ∧ r ≠ .error .outOfFuel ∧
      ∀ m ≥ n, ∀ fuel ≥ fuelFor zeroStart,
        let run := (Phrase.program .extreme true true).run (sml.call fuel) (zeroStart.fresh m)
        run.1 = r ∧ run.2.depth = zeroStart.depth ∧ run.2.peak ≤ zeroStart.bounds.maxDepth :=
  ⟨settles_zero,
    sample_ends (Phrase.program .extreme true true) zeroStart (Nat.zero_le _) settles_zero⟩

end SmlSynth
