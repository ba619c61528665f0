import Mathlib.Data.List.Forall2
import SmlSynth.Proofs.Combinators

/-!
# Readings of generators

A reading goes through a generator without running it and puts together a value that says
something about its texts, from values for its symbols. It is sound if what each operation
says is true of the texts it stands for, at every level below the depth limit.

* `Reading`, `Gen.read`: the operations, and the value they give a generator.
* `Reading.Sound`: the laws of the operations.
* `Reading.Sound.Yields`: what a sampler yields is as a value says; one lemma for each combination.
* `Reading.Sound.run`: so it is for a generator and its reading, if it is for the symbols.
* `Reading.Sound.sample`: the same for the phrases of the grammar. It is enough that each rule's
  value follows from the reading of its body.
-/

namespace SmlSynth

variable {A ρ : Type}

/-- **A reading**: what is said of a text, and how this is put together. -/
structure Reading (A : Type) where
  /-- A fixed text. -/
  literal : Text → A
  /-- One text after another. -/
  append : A → A → A
  /-- One of two texts. -/
  either : A → A → A
  /-- Texts in a row, as many as the bound allows. -/
  many : A → A
  /-- Texts in a row after a first one, as many as the bound allows. -/
  further : A → A
  /-- A text after a change. -/
  change : Change → A → A
  /-- A terminal text, or one of a level less. -/
  gate : A → A → A

namespace Reading

/-- One of several texts. -/
def any (R : Reading A) : List A → A
  | [] => R.literal []
  | [a] => a
  | a :: b :: rest => R.either a (R.any (b :: rest))

/-- Texts one after another. -/
def all (R : Reading A) : List A → A
  | [] => R.literal []
  | a :: rest => R.append a (R.all rest)

/-- The same text again and again, `n` times. -/
def times (R : Reading A) (a : A) : Nat → A
  | 0 => R.literal []
  | n + 1 => R.append a (R.times a n)

/-- At least one text, with separators between them. -/
def separated (R : Reading A) (a sep : A) : A := R.append a (R.further (R.append sep a))

end Reading

namespace Gen

mutual

/-- **The value that a reading gives a generator**, from the values of its symbols. -/
def read (R : Reading A) (value : ρ → A) : Gen ρ → A
  | .literal text => R.literal text
  | .oneOf items => R.any (items.map R.literal)
  | .seq parts => R.all (readAll R value parts)
  | .choice options => R.any (readAll R value options)
  | .weighted options => R.any (readOptions R value options)
  | .depthChoice terminal recursive => R.gate (read R value terminal) (read R value recursive)
  | .depthChoiceAmong terminals recursives =>
    R.gate (R.any (readAll R value terminals)) (R.any (readAll R value recursives))
  | .many inner => R.many (read R value inner)
  | .many1 inner => R.append (read R value inner) (R.further (read R value inner))
  | .count n inner => R.times (read R value inner) n
  | .optional inner => R.either (read R value inner) (R.literal [])
  | .sepBy inner sep =>
    R.either (R.literal []) (R.separated (read R value inner) (read R value sep))
  | .sepBy1 inner sep => R.separated (read R value inner) (read R value sep)
  | .either left right => R.either (read R value left) (read R value right)
  | .between inner before after =>
    R.all [read R value before, read R value inner, read R value after]
  | .map change inner => R.change change (read R value inner)
  | .delayed inner => read R value inner
  | .ref symbol => value symbol

/-- The values of generators. -/
def readAll (R : Reading A) (value : ρ → A) : List (Gen ρ) → List A
  | [] => []
  | g :: gs => read R value g :: readAll R value gs

/-- The values of weighted options. -/
def readOptions (R : Reading A) (value : ρ → A) : List (Float × Gen ρ) → List A
  | [] => []
  | (_, g) :: gs => read R value g :: readOptions R value gs

end

end Gen

/-- **A sound reading**, for at most `limit` repetitions: `Holds d a t` says that `a` is true of
the text `t`, with `d` levels left. -/
structure Reading.Sound (R : Reading A) (limit : Nat) (Holds : Nat → A → Text → Prop) : Prop where
  literal : ∀ d t, Holds d (R.literal t) t
  append : ∀ {d a b t u}, Holds d a t → Holds d b u → Holds d (R.append a b) (t ++ u)
  left : ∀ {d a t} b, Holds d a t → Holds d (R.either a b) t
  right : ∀ {d b t} a, Holds d b t → Holds d (R.either a b) t
  many : ∀ {d a} {ts : List Text}, ts.length ≤ limit → (∀ t ∈ ts, Holds d a t) →
    Holds d (R.many a) ts.flatten
  further : ∀ {d a} {ts : List Text}, ts.length ≤ limit - 1 → (∀ t ∈ ts, Holds d a t) →
    Holds d (R.further a) ts.flatten
  change : ∀ {d a t} f, Holds d a t → Holds d (R.change f a) (f.apply t)
  terminal : ∀ {d a t} b, Holds d a t → Holds d (R.gate a b) t
  recursive : ∀ {d b t} a, Holds d b t → Holds (d + 1) (R.gate a b) t

namespace Reading.Sound

variable {R : Reading A} {limit : Nat} {Holds : Nat → A → Text → Prop}

/-! ## Derived operations -/

theorem any (hR : R.Sound limit Holds) {as : List A} {a : A} (ha : a ∈ as) {d : Nat} {t : Text}
    (h : Holds d a t) : Holds d (R.any as) t := by
  induction as with
  | nil => cases ha
  | cons b rest ih =>
    cases rest with
    | nil =>
      rw [List.mem_singleton.1 ha] at h
      exact h
    | cons b' rest =>
      rcases List.mem_cons.1 ha with rfl | ha
      · exact hR.left _ h
      · exact hR.right _ (ih ha)

theorem times (hR : R.Sound limit Holds) {a : A} {d : Nat} {ts : List Text}
    (h : ∀ t ∈ ts, Holds d a t) : Holds d (R.times a ts.length) ts.flatten := by
  induction ts with
  | nil => exact hR.literal d []
  | cons t rest ih =>
    exact hR.append (h t (List.mem_cons_self ..)) (ih fun u hu => h u (List.mem_cons_of_mem _ hu))

/-! ## Samplers that a reading describes -/

theorem exists_of_forall₂ {α β : Type} {r : α → β → Prop} {as : List α} {bs : List β}
    (h : List.Forall₂ r as bs) {a : α} (ha : a ∈ as) : ∃ b ∈ bs, r a b := by
  induction h with
  | nil => cases ha
  | @cons a' b as bs hr _ ih =>
    rcases List.mem_cons.1 ha with rfl | ha
    · exact ⟨b, List.mem_cons_self .., hr⟩
    · obtain ⟨b', hb', hr'⟩ := ih ha
      exact ⟨b', List.mem_cons_of_mem _ hb', hr'⟩

section Yields

open Sampler Context

variable {σ : Type}

/-- **What the sampler yields is as the value says.** -/
def Yields (limit : Nat) (Holds : Nat → A → Text → Prop) (s : Sampler σ Text) (a : A) : Prop :=
  ∀ c t, c.bounds.maxRepeat = limit → (s c).1 = .ok t → Holds c.levels a t

/-- What a sampler yields from a later context is as its value says. -/
theorem Yields.of_kept {s : Sampler σ Text} {a : A} (h : Yields limit Holds s a) {c : Context σ}
    (hlim : c.bounds.maxRepeat = limit) {t : Text} (ht : ∃ c', Kept c c' ∧ (s c').1 = .ok t) :
    Holds c.levels a t := by
  obtain ⟨c', hc, ht⟩ := ht
  rw [← hc.levels]
  exact h c' t (by rw [hc.bounds, hlim]) ht

/-- After a steady first step it is enough that the second one is described. -/
theorem yields_bind {α : Type} {s : Sampler σ α} {f : α → Sampler σ Text} {a : A} (hs : Steady s)
    (h : ∀ x, (∃ c, c.bounds.maxRepeat = limit ∧ (s c).1 = .ok x) → Yields limit Holds (f x) a) :
    Yields limit Holds (s >>= f) a := by
  intro c t hlim ht
  obtain ⟨x, hx, ht⟩ := of_bind_ok ht
  exact (h x ⟨c, hlim, hx⟩).of_kept hlim ⟨_, hs c, ht⟩

theorem yields_literal (hR : R.Sound limit Holds) (t : Text) :
    Yields limit Holds (pure t : Sampler σ Text) (R.literal t) := by
  intro c u _ h
  obtain rfl : t = u := Except.ok.inj h
  exact hR.literal _ _

theorem yields_concat (hR : R.Sound limit Holds) {parts : List (Sampler σ Text)} {as : List A}
    (hs : ∀ s ∈ parts, Steady s) (h : List.Forall₂ (Yields limit Holds) parts as) :
    Yields limit Holds (concat parts) (R.all as) := by
  induction h with
  | nil => exact hR.yields_literal []
  | @cons s a parts as hsa _ ih =>
    intro c t hlim h
    obtain ⟨u, hu, h⟩ := of_bind_ok h
    obtain ⟨v, hv, h⟩ := of_bind_ok h
    obtain rfl : u ++ v = t := Except.ok.inj h
    have hrest := ih fun s' hs' => hs s' (List.mem_cons_of_mem _ hs')
    exact hR.append (hsa c u hlim hu)
      (hrest.of_kept hlim ⟨_, hs s (List.mem_cons_self ..) c, hv⟩)

/-- The texts of a repetition. -/
theorem Yields.repeated {s : Sampler σ Text} {a : A} (h : Yields limit Holds s a) (hs : Steady s)
    {n : Nat} {c : Context σ} (hlim : c.bounds.maxRepeat = limit) {t : Text}
    (ht : (repeated n s c).1 = .ok t) :
    ∃ ts : List Text, ts.length = n ∧ t = ts.flatten ∧ ∀ u ∈ ts, Holds c.levels a u := by
  obtain ⟨ts, hlen, hflat, hts⟩ := repeated_ok hs ht
  exact ⟨ts, hlen, hflat, fun u hu => h.of_kept hlim (hts u hu)⟩

theorem yields_many (hR : R.Sound limit Holds) {s : Sampler σ Text} {a : A} (hs : Steady s)
    (h : Yields limit Holds s a) {n : Nat} (hn : n ≤ limit) :
    Yields limit Holds (repeated n s) (R.many a) := by
  intro c t hlim ht
  obtain ⟨ts, hlen, rfl, hts⟩ := h.repeated hs hlim ht
  exact hR.many (by omega) hts

theorem yields_many1 (hR : R.Sound limit Holds) {s : Sampler σ Text} {a : A} (hs : Steady s)
    (h : Yields limit Holds s a) {n : Nat} (hpos : 0 < n) (hn : n ≤ max 1 limit) :
    Yields limit Holds (repeated n s) (R.append a (R.further a)) := by
  intro c t hlim ht
  obtain ⟨ts, hlen, rfl, hts⟩ := h.repeated hs hlim ht
  cases ts with
  | nil => simp only [List.length_nil] at hlen; omega
  | cons first rest =>
    rw [List.length_cons] at hlen
    have hrest := hR.further (by omega) fun u hu => hts u (List.mem_cons_of_mem _ hu)
    exact hR.append (hts first (List.mem_cons_self ..)) hrest

theorem yields_times (hR : R.Sound limit Holds) {s : Sampler σ Text} {a : A} (hs : Steady s)
    (h : Yields limit Holds s a) (n : Nat) : Yields limit Holds (repeated n s) (R.times a n) := by
  intro c t hlim ht
  obtain ⟨ts, rfl, rfl, hts⟩ := h.repeated hs hlim ht
  exact hR.times hts

theorem yields_separated (hR : R.Sound limit Holds) {s sep : Sampler σ Text} {a b : A}
    (hs : Steady s) (hsep : Steady sep) (h : Yields limit Holds s a)
    (h' : Yields limit Holds sep b) {n : Nat} (hpos : 0 < n) (hn : n ≤ max 1 limit) :
    Yields limit Holds (Sampler.separated n s sep) (R.separated a b) := by
  intro c t hlim ht
  -- a row has a first text, and one less after it
  obtain ⟨n, rfl⟩ : ∃ m, n = m + 1 := ⟨n - 1, by omega⟩
  obtain ⟨first, ts, hlen, rfl, hfirst, hts⟩ := separated_ok hs hsep ht
  refine hR.append (h c first hlim hfirst) (hR.further (by omega) fun u hu => ?_)
  obtain ⟨v, w, rfl, hv, hw⟩ := hts u hu
  exact hR.append (h'.of_kept hlim hv) (h.of_kept hlim hw)

theorem yields_either (hR : R.Sound limit Holds) {s s' : Sampler σ Text} {a b : A} {p : Prop}
    [Decidable p] (h : Yields limit Holds s a) (h' : Yields limit Holds s' b) :
    Yields limit Holds (if p then s else s') (R.either a b) := by
  intro c t hlim ht
  split at ht
  · exact hR.left _ (h c t hlim ht)
  · exact hR.right _ (h' c t hlim ht)

variable [Source σ]

theorem yields_anyOf (hR : R.Sound limit Holds) {options : List (Sampler σ Text)} {as : List A}
    (h : List.Forall₂ (Yields limit Holds) options as) (e : GenError) :
    Yields limit Holds (anyOf options e) (R.any as) := by
  intro c t hlim ht
  obtain ⟨s, hmem, hex⟩ := anyOf_ok ht
  obtain ⟨a, ha, hsa⟩ := exists_of_forall₂ h hmem
  exact hR.any ha (hsa.of_kept hlim hex)

theorem yields_byWeight (hR : R.Sound limit Holds) {options : List (Float × Sampler σ Text)}
    {as : List A} (h : List.Forall₂ (fun o a => Yields limit Holds o.2 a) options as) :
    Yields limit Holds (byWeight options) (R.any as) := by
  intro c t hlim ht
  obtain ⟨o, hmem, hex⟩ := byWeight_ok ht
  obtain ⟨a, ha, hoa⟩ := exists_of_forall₂ h hmem
  exact hR.any ha (hoa.of_kept hlim hex)

theorem yields_gated (hR : R.Sound limit Holds) {s s' : Sampler σ Text} {a b : A}
    (h : Yields limit Holds s a) (h' : Yields limit Holds s' b) :
    Yields limit Holds (gated s s') (R.gate a b) := by
  intro c t hlim ht
  rcases gated_ok ht with hex | ⟨c', hb, hlev, ht⟩
  · exact hR.terminal _ (h.of_kept hlim hex)
  · rw [hlev]
    exact hR.recursive _ (h' c' t (by rw [hb, hlim]) ht)

end Yields

/-! ## Runs -/

section Run

open Sampler

variable {σ : Type} [Source σ] {call : ρ → Sampler σ Text} {value : ρ → A}

mutual

/-- **What a run yields is as the reading says**, if this is so of the symbols. -/
theorem run (hR : R.Sound limit Holds) (hs : ∀ x, Steady (call x))
    (hcall : ∀ x, Yields limit Holds (call x) (value x)) :
    ∀ g : Gen ρ, Yields limit Holds (g.run call) (g.read R value)
  | .literal text => hR.yields_literal text
  | .oneOf items => by
    refine hR.yields_anyOf ?_ _
    induction items with
    | nil => exact .nil
    | cons t items ih => exact .cons (hR.yields_literal t) ih
  | .seq parts => hR.yields_concat (steady_runAll hs parts) (runAll hR hs hcall parts)
  | .choice options => hR.yields_anyOf (runAll hR hs hcall options) _
  | .weighted options => hR.yields_byWeight (runOptions hR hs hcall options)
  | .depthChoice terminal recursive =>
    hR.yields_gated (run hR hs hcall terminal) (run hR hs hcall recursive)
  | .depthChoiceAmong terminals recursives =>
    hR.yields_gated (hR.yields_anyOf (runAll hR hs hcall terminals) _)
      (hR.yields_anyOf (runAll hR hs hcall recursives) _)
  | .many inner => by
    refine yields_bind (steady_closed.repeatCount 0) fun n hn => ?_
    obtain ⟨c, hlim, hn⟩ := hn
    obtain ⟨-, hle⟩ := repeatCount_ok hn
    exact hR.yields_many (steady_run hs inner) (run hR hs hcall inner) (by omega)
  | .many1 inner => by
    refine yields_bind (steady_closed.repeatCount 1) fun n hn => ?_
    obtain ⟨c, hlim, hn⟩ := hn
    obtain ⟨hpos, hle⟩ := repeatCount_ok hn
    exact hR.yields_many1 (steady_run hs inner) (run hR hs hcall inner) hpos (by omega)
  | .count n inner => by
    unfold Gen.run
    split
    · intro c t _ h; cases h
    · exact hR.yields_times (steady_run hs inner) (run hR hs hcall inner) n
  | .optional inner => by
    refine yields_bind (steady_closed.coin) fun b _ => ?_
    exact hR.yields_either (run hR hs hcall inner) (hR.yields_literal [])
  | .sepBy inner sep => by
    refine yields_bind (steady_closed.repeatCount 0) fun n hn => ?_
    obtain ⟨c, hlim, hn⟩ := hn
    obtain ⟨-, hle⟩ := repeatCount_ok hn
    -- no text at all, or a row of them
    rcases Nat.eq_zero_or_pos n with rfl | hpos
    · exact fun c' t hlim' h => hR.left _ (hR.yields_literal [] c' t hlim' h)
    · have hrow := hR.yields_separated (steady_run hs inner) (steady_run hs sep)
        (run hR hs hcall inner) (run hR hs hcall sep) hpos (by omega)
      exact fun c' t hlim' h => hR.right _ (hrow c' t hlim' h)
  | .sepBy1 inner sep => by
    refine yields_bind (steady_closed.repeatCount 1) fun n hn => ?_
    obtain ⟨c, hlim, hn⟩ := hn
    obtain ⟨hpos, hle⟩ := repeatCount_ok hn
    exact hR.yields_separated (steady_run hs inner) (steady_run hs sep) (run hR hs hcall inner)
      (run hR hs hcall sep) hpos (by omega)
  | .either left right => by
    refine yields_bind (steady_closed.below 2 (by decide)) fun i _ => ?_
    exact hR.yields_either (run hR hs hcall left) (run hR hs hcall right)
  | .between inner before after => by
    have hall := steady_runAll hs [before, inner, after]
    refine hR.yields_concat hall ?_
    exact .cons (run hR hs hcall before)
      (.cons (run hR hs hcall inner) (.cons (run hR hs hcall after) .nil))
  | .map change inner => by
    intro c t hlim h
    obtain ⟨u, hu, h⟩ := of_bind_ok h
    obtain rfl : change.apply u = t := Except.ok.inj h
    exact hR.change _ (run hR hs hcall inner c u hlim hu)
  | .delayed inner => by
    unfold Gen.run
    split
    · exact run hR hs hcall inner
    · intro c t _ h; cases h
  | .ref symbol => hcall symbol

theorem runAll (hR : R.Sound limit Holds) (hs : ∀ x, Steady (call x))
    (hcall : ∀ x, Yields limit Holds (call x) (value x)) :
    ∀ gs : List (Gen ρ),
      List.Forall₂ (Yields limit Holds) (Gen.runAll call gs) (Gen.readAll R value gs)
  | [] => .nil
  | g :: gs => .cons (run hR hs hcall g) (runAll hR hs hcall gs)

theorem runOptions (hR : R.Sound limit Holds) (hs : ∀ x, Steady (call x))
    (hcall : ∀ x, Yields limit Holds (call x) (value x)) :
    ∀ gs : List (Float × Gen ρ),
      List.Forall₂ (fun o a => Yields limit Holds o.2 a) (Gen.runOptions call gs)
        (Gen.readOptions R value gs)
  | [] => .nil
  | (_, g) :: gs => .cons (run hR hs hcall g) (runOptions hR hs hcall gs)

end

end Run

/-! ## Phrases -/

section Grammar

open Sampler

variable {σ : Type} [Source σ] {value : Symbol Lexeme Rule → A}

/-- **The symbols of the grammar yield what their values say**, if the lexemes do and each rule's
value follows from the reading of its body. -/
theorem call (hR : R.Sound limit Holds)
    (hlexeme : ∀ l, Yields limit Holds (Lexeme.sample l : Sampler σ Text) (value (.terminal l)))
    (hrule : ∀ r d t, Holds d ((Rule.body r).read R value) t → Holds d (value (.rule r)) t) :
    ∀ fuel x, Yields limit Holds ((sml (σ := σ)).call fuel x) (value x) := by
  intro fuel
  induction fuel with
  | zero =>
    intro x
    cases x with
    | terminal l => exact hlexeme l
    | rule r => intro c t _ h; cases h
  | succ fuel ih =>
    intro x
    cases x with
    | terminal l => exact hlexeme l
    | rule r =>
      intro c t hlim h
      exact hrule r _ _ (hR.run (steady_call fuel) ih (.delayed (Rule.body r)) c t hlim h)

/-- **A phrase yields what its reading says.** -/
theorem sample (hR : R.Sound limit Holds)
    (hlexeme : ∀ l, Yields limit Holds (Lexeme.sample l : Sampler σ Text) (value (.terminal l)))
    (hrule : ∀ r d t, Holds d ((Rule.body r).read R value) t → Holds d (value (.rule r)) t)
    (p : Phrase) : Yields limit Holds (p.sample (σ := σ)) (p.read R value) := fun c =>
  hR.run (steady_call (fuelFor c)) (hR.call hlexeme hrule (fuelFor c)) p c

end Grammar

end Reading.Sound

end SmlSynth
