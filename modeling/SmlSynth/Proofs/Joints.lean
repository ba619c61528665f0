import Mathlib.Data.List.Chain
import SmlSynth.Proofs.Reading
import SmlSynth.Proofs.Segments

/-!
# Which segments meet

The joints of a generator say which kinds of segments its runs may start and end with, and which
may follow one another directly. They are read off the generator without running it.

* `Segment.Kind`: what a segment is, whatever a symbol yields for it.
* `Joints`, `Joints.reading`: joints, and how they are put together along a generator.
* `Joints.Fits`: segments that are as joints say.
* `Joints.draws_segments`: the segments of a run are as the joints of its generator say.
-/

namespace SmlSynth

variable {σ ρ : Type}

open Segment

namespace Segment

/-- **The kind of a segment.** -/
inductive Kind (ρ : Type) where
  | fixed (text : Text)
  | drawn (symbol : ρ)
  | changed
deriving Repr, DecidableEq

def kind : Segment ρ → Kind ρ
  | fixed t => .fixed t
  | drawn x _ => .drawn x
  | changed _ => .changed

/-- **How segments are made**: what stands in a generator is not empty, and what a symbol yields is
as it says. -/
def Made (P : ρ → Text → Prop) : Segment ρ → Prop
  | fixed t => t ≠ []
  | drawn x t => P x t
  | changed _ => True

end Segment

/-- **The joints of runs**: whether there may be no segment, the kinds of the first and of the last
one, and those of any two that follow one another. -/
structure Joints (ρ : Type) where
  vanishes : Bool
  first : List (Kind ρ)
  last : List (Kind ρ)
  pairs : List (Kind ρ × Kind ρ)
deriving Repr

namespace Joints

/-! ## Putting joints together -/

/-- No segment. -/
def none : Joints ρ := ⟨true, [], [], []⟩

/-- One segment of a kind. -/
def single (k : Kind ρ) : Joints ρ := ⟨false, [k], [k], []⟩

def literal (t : Text) : Joints ρ := if t.isEmpty then none else single (.fixed t)

/-- Some segments after others. -/
def append (a b : Joints ρ) : Joints ρ where
  vanishes := a.vanishes && b.vanishes
  first := a.first ++ if a.vanishes then b.first else []
  last := b.last ++ if b.vanishes then a.last else []
  pairs := a.pairs ++ b.pairs ++ a.last ×ˢ b.first

/-- Those or these segments. -/
def either (a b : Joints ρ) : Joints ρ where
  vanishes := a.vanishes || b.vanishes
  first := a.first ++ b.first
  last := a.last ++ b.last
  pairs := a.pairs ++ b.pairs

/-- Segments again and again. -/
def many (a : Joints ρ) : Joints ρ where
  vanishes := true
  first := a.first
  last := a.last
  pairs := a.pairs ++ a.last ×ˢ a.first

/-- Whether a kind is a fixed text that ends in a character. -/
def endsIn (c : Char) : Kind ρ → Bool
  | .fixed t => t.getLast? == some c
  | _ => false

/-- Segments after a change. A fixed text at the end that a space is added to is not the last. -/
def change : Change → Joints ρ → Joints ρ
  | .enclose before after, a => append (append (literal before) a) (literal after)
  | .padAfter c, a =>
    either { a with last := a.last.filter fun k => !endsIn c k } (append a (literal [' ']))
  | .other _, _ => single .changed

/-- **Reading joints off a generator.** -/
def reading : Reading (Joints ρ) where
  literal := literal
  append := append
  either := either
  many := many
  further := many
  change := change
  gate := either

/-- **Segments as joints say**, if those of the symbols are made as `P` says. -/
structure Fits (P : ρ → Text → Prop) (a : Joints ρ) (ss : List (Segment ρ)) : Prop where
  vanishes : ss = [] → a.vanishes = true
  first : ∀ s ∈ ss.head?, s.kind ∈ a.first
  last : ∀ s ∈ ss.getLast?, s.kind ∈ a.last
  pairs : ss.IsChain fun s s' => (s.kind, s'.kind) ∈ a.pairs
  made : ∀ s ∈ ss, s.Made P

variable {P : ρ → Text → Prop} {a b : Joints ρ} {ss ss' : List (Segment ρ)}

theorem fits_none : Fits P none [] where
  vanishes _ := rfl
  first s hs := by cases hs
  last s hs := by cases hs
  pairs := .nil
  made s hs := by cases hs

theorem fits_single {s : Segment ρ} (h : s.Made P) : Fits P (single s.kind) [s] where
  vanishes he := by cases he
  first s' hs' := by
    obtain rfl : s = s' := Option.some.inj hs'
    exact List.mem_singleton_self _
  last s' hs' := by
    obtain rfl : s = s' := Option.some.inj hs'
    exact List.mem_singleton_self _
  pairs := .singleton s
  made s' hs' := by rw [List.mem_singleton.1 hs']; exact h

theorem fits_literal (t : Text) : Fits P (literal t) (ofText t) := by
  cases t with
  | nil => exact fits_none
  | cons c t => exact fits_single (s := .fixed (c :: t)) (List.cons_ne_nil c t)

/-- Segments that fit joints fit those that say less. -/
theorem Fits.mono (h : Fits P a ss) (hv : a.vanishes = true → b.vanishes = true)
    (hf : a.first ⊆ b.first) (hl : a.last ⊆ b.last) (hp : a.pairs ⊆ b.pairs) : Fits P b ss where
  vanishes he := hv (h.vanishes he)
  first s hs := hf (h.first s hs)
  last s hs := hl (h.last s hs)
  pairs := h.pairs.imp fun _ _ hpair => hp hpair
  made := h.made

theorem Fits.append (h : Fits P a ss) (h' : Fits P b ss') : Fits P (append a b) (ss ++ ss') where
  vanishes he := by
    obtain ⟨hss, hss'⟩ := List.append_eq_nil_iff.1 he
    show (a.vanishes && b.vanishes) = true
    rw [h.vanishes hss, h'.vanishes hss']
    rfl
  first s hs := by
    show s.kind ∈ a.first ++ if a.vanishes then b.first else []
    cases ss with
    -- without a segment before them the others come first
    | nil =>
      rw [if_pos (h.vanishes rfl)]
      exact List.mem_append_right _ (h'.first s hs)
    | cons s' ss => exact List.mem_append_left _ (h.first s hs)
  last s hs := by
    show s.kind ∈ b.last ++ if b.vanishes then a.last else []
    rw [List.getLast?_append] at hs
    cases hlast : ss'.getLast? with
    | none =>
      rw [hlast] at hs
      rw [if_pos (h'.vanishes (List.getLast?_eq_none_iff.1 hlast))]
      exact List.mem_append_right _ (h.last s hs)
    | some s' =>
      rw [hlast] at hs
      obtain rfl : s' = s := Option.some.inj hs
      exact List.mem_append_left _ (h'.last s' hlast)
  pairs := by
    have hpairs := h.pairs.imp fun _ _ hp =>
      List.mem_append_left (a.last ×ˢ b.first) (List.mem_append_left b.pairs hp)
    have hpairs' := h'.pairs.imp fun _ _ hp =>
      List.mem_append_left (a.last ×ˢ b.first) (List.mem_append_right a.pairs hp)
    refine hpairs.append hpairs' fun s hs s' hs' => ?_
    -- the only new neighbours are the last of these and the first of those
    exact List.mem_append_right _ (List.pair_mem_product.2 ⟨h.last s hs, h'.first s' hs'⟩)
  made s hs := (List.mem_append.1 hs).elim (h.made s) (h'.made s)

theorem Fits.left (h : Fits P a ss) (b : Joints ρ) : Fits P (either a b) ss := by
  refine h.mono (fun hv => ?_) (List.subset_append_left _ _) (List.subset_append_left _ _)
    (List.subset_append_left _ _)
  show (a.vanishes || b.vanishes) = true
  rw [hv, Bool.true_or]

theorem Fits.right (h : Fits P b ss) (a : Joints ρ) : Fits P (either a b) ss := by
  refine h.mono (fun hv => ?_) (List.subset_append_right _ _) (List.subset_append_right _ _)
    (List.subset_append_right _ _)
  show (a.vanishes || b.vanishes) = true
  rw [hv, Bool.or_true]

theorem fits_many_nil : Fits P (many a) [] :=
  fits_none.mono (fun _ => rfl) (List.nil_subset _) (List.nil_subset _) (List.nil_subset _)

/-- One more time. -/
theorem Fits.many_append (h : Fits P a ss) (h' : Fits P (many a) ss') :
    Fits P (many a) (ss ++ ss') := by
  refine (h.append h').mono (fun _ => rfl) ?_ ?_ ?_
  · intro k hk
    rcases List.mem_append.1 hk with hk | hk
    · exact hk
    · split at hk
      · exact hk
      · cases hk
  · intro k hk
    rcases List.mem_append.1 hk with hk | hk
    · exact hk
    · exact hk
  · intro p hp
    rcases List.mem_append.1 hp with hp | hp
    · rcases List.mem_append.1 hp with hp | hp
      · exact List.mem_append_left _ hp
      · exact hp
    · exact List.mem_append_right _ hp

/-- A text ends as its last segment does, if that is fixed. -/
theorem endsIn_join {c : Char} {s : Segment ρ} (hs : s ∈ ss.getLast?)
    (hc : endsIn c s.kind = true) : (join ss).getLast? = some c := by
  obtain ⟨before, rfl⟩ := List.getLast?_eq_some_iff.1 hs
  cases s with
  | fixed t =>
    have ht : t.getLast? = some c := beq_iff_eq.1 hc
    rw [join_append, List.getLast?_append]
    show ((t ++ []).getLast?).or _ = some c
    rw [List.append_nil, ht]
    rfl
  | drawn x t => cases hc
  | changed t => cases hc

theorem Fits.change (h : Fits P a ss) (f : Change) : Fits P (change f a) (f.segments ss) := by
  cases f with
  | enclose before after => exact ((fits_literal before).append h).append (fits_literal after)
  | padAfter c =>
    by_cases hc : (join ss).getLast? = some c
    · have hpadded : (Change.padAfter c).segments ss = ss ++ ofText [' '] := if_pos hc
      rw [hpadded]
      exact (h.append (fits_literal [' '])).right _
    · have hkept : (Change.padAfter c).segments ss = ss := if_neg hc
      rw [hkept]
      have hlast : ∀ s ∈ ss.getLast?, s.kind ∈ a.last.filter fun k => !endsIn c k := by
        intro s hs
        have hnot : endsIn c s.kind ≠ true := fun he => hc (endsIn_join hs he)
        exact List.mem_filter.2 ⟨h.last s hs, by rw [Bool.eq_false_iff.2 hnot]; rfl⟩
      have hfits : Fits P { a with last := a.last.filter fun k => !endsIn c k } ss :=
        ⟨h.vanishes, h.first, hlast, h.pairs, h.made⟩
      exact hfits.left _
  | other f => exact fits_single (s := .changed _) trivial

/-- The kinds that segments may have. -/
def kinds (a : Joints ρ) : List (Kind ρ) := a.first ++ a.pairs.map (·.2)

theorem Fits.kind_mem (h : Fits P a ss) {s : Segment ρ} (hs : s ∈ ss) : s.kind ∈ a.kinds := by
  obtain ⟨before, after, rfl⟩ := List.append_of_mem hs
  rcases List.eq_nil_or_concat' before with rfl | ⟨before, s', rfl⟩
  · exact List.mem_append_left _ (h.first s rfl)
  · have hpair := List.isChain_iff_forall_rel_of_append_cons_cons.1 h.pairs
      (List.append_assoc before [s'] (s :: after))
    exact List.mem_append_right _ (List.mem_map.2 ⟨_, hpair, rfl⟩)

/-- What one of several joints says, all of them together say. -/
theorem Fits.any {as : List (Joints ρ)} (ha : a ∈ as) (h : Fits P a ss) :
    Fits P (reading.any as) ss := by
  induction as with
  | nil => cases ha
  | cons b rest ih =>
    cases rest with
    | nil =>
      rw [List.mem_singleton.1 ha] at h
      exact h
    | cons b' rest =>
      rcases List.mem_cons.1 ha with rfl | ha
      · exact h.left _
      · exact (ih ha).right _

/-! ## Samplers of segments -/

section Draws

open Sampler

variable {s s' : Sampler σ (List (Segment ρ))} {rest : List (Sampler σ (List (Segment ρ)))}

theorem draws_chain_cons (h : Draws s (Fits P a)) (h' : Draws (chain rest) (Fits P b)) :
    Draws (chain (s :: rest)) (Fits P (append a b)) :=
  draws_bind h fun _ hss => draws_bind h' fun _ hss' => draws_pure (hss.append hss')

theorem draws_chain {parts : List (Sampler σ (List (Segment ρ)))} {as : List (Joints ρ)}
    (h : List.Forall₂ (fun s a => Draws s (Fits P a)) parts as) :
    Draws (chain parts) (Fits P (reading.all as)) := by
  induction h with
  | nil => exact draws_pure (fits_literal [])
  | cons hs _ ih => exact draws_chain_cons hs ih

theorem draws_chain_times (h : Draws s (Fits P a)) (n : Nat) :
    Draws (chain (List.replicate n s)) (Fits P (reading.times a n)) := by
  induction n with
  | zero => exact draws_pure (fits_literal [])
  | succ n ih => exact draws_chain_cons h ih

theorem draws_chain_many (h : Draws s (Fits P a)) (n : Nat) :
    Draws (chain (List.replicate n s)) (Fits P (many a)) := by
  induction n with
  | zero => exact draws_pure fits_many_nil
  | succ n ih =>
    exact draws_bind h fun _ hss => draws_bind ih fun _ hss' => draws_pure (hss.many_append hss')

theorem draws_chain_pairs (h : Draws s (Fits P a)) (h' : Draws s' (Fits P b)) (n : Nat) :
    Draws (chain (List.replicate n [s', s]).flatten) (Fits P (many (append b a))) := by
  induction n with
  | zero => exact draws_pure fits_many_nil
  | succ n ih =>
    intro c us hus
    obtain ⟨ss', hss', hus⟩ := of_bind_ok hus
    obtain ⟨vs, hvs, hus⟩ := of_bind_ok hus
    obtain ⟨ss, hss, hvs⟩ := of_bind_ok hvs
    obtain ⟨ts, hts, hvs⟩ := of_bind_ok hvs
    obtain rfl : ss ++ ts = vs := Except.ok.inj hvs
    obtain rfl : ss' ++ (ss ++ ts) = us := Except.ok.inj hus
    rw [← List.append_assoc]
    exact ((h' _ _ hss').append (h _ _ hss)).many_append (ih _ _ hts)

variable [Source σ]

theorem draws_anyOf {options : List (Sampler σ (List (Segment ρ)))} {as : List (Joints ρ)}
    (h : List.Forall₂ (fun s a => Draws s (Fits P a)) options as) (e : GenError) :
    Draws (anyOf options e) (Fits P (reading.any as)) := by
  intro c ss hss
  obtain ⟨s, hs, c', -, hrun⟩ := anyOf_ok hss
  obtain ⟨a, ha, hsa⟩ := Reading.Sound.exists_of_forall₂ h hs
  exact (hsa c' ss hrun).any ha

theorem draws_byWeight {options : List (Float × Sampler σ (List (Segment ρ)))}
    {as : List (Joints ρ)} (h : List.Forall₂ (fun o a => Draws o.2 (Fits P a)) options as) :
    Draws (byWeight options) (Fits P (reading.any as)) := by
  intro c ss hss
  obtain ⟨o, ho, c', -, hrun⟩ := byWeight_ok hss
  obtain ⟨a, ha, hoa⟩ := Reading.Sound.exists_of_forall₂ h ho
  exact (hoa c' ss hrun).any ha

theorem draws_gated (h : Draws s (Fits P a)) (h' : Draws s' (Fits P b)) :
    Draws (gated s s') (Fits P (either a b)) := by
  intro c ss hss
  rcases gated_ok hss with ⟨c', -, hrun⟩ | ⟨c', -, -, hrun⟩
  · exact (h c' ss hrun).left b
  · exact (h' c' ss hrun).right a

theorem draws_repeatCount (least : Nat) : Draws (repeatCount (σ := σ) least) (least ≤ ·) :=
  fun _ _ hn => (repeatCount_ok hn).1

end Draws

/-! ## Segments of runs -/

section Run

open Sampler

variable [Source σ] {call : ρ → Sampler σ Text}

/-- **The joints of a generator**, whose symbols yield one segment each. -/
def of (g : Gen ρ) : Joints ρ := g.read reading fun x => single (.drawn x)

mutual

/-- **The segments of a run are as the joints of its generator say.** -/
theorem draws_segments (hcall : ∀ x, Draws (call x) (P x)) :
    ∀ g : Gen ρ, Draws (g.segments call) (Fits P (of g))
  | .literal text => draws_pure (fits_literal text)
  | .oneOf items => by
    refine draws_anyOf ?_ _
    induction items with
    | nil => exact .nil
    | cons t items ih => exact .cons (draws_pure (fits_literal t)) ih
  | .seq parts => draws_chain (draws_segmentsAll hcall parts)
  | .choice options => draws_anyOf (draws_segmentsAll hcall options) _
  | .weighted options => draws_byWeight (draws_segmentsOptions hcall options)
  | .depthChoice terminal recursive =>
    draws_gated (draws_segments hcall terminal) (draws_segments hcall recursive)
  | .depthChoiceAmong terminals recursives =>
    draws_gated (draws_anyOf (draws_segmentsAll hcall terminals) _)
      (draws_anyOf (draws_segmentsAll hcall recursives) _)
  | .many inner => draws_after fun n => draws_chain_many (draws_segments hcall inner) n
  | .many1 inner => by
    refine draws_bind (draws_repeatCount 1) fun n hn => ?_
    obtain ⟨n, rfl⟩ : ∃ m, n = m + 1 := ⟨n - 1, by omega⟩
    have hinner := draws_segments hcall inner
    exact draws_chain_cons hinner (draws_chain_many hinner n)
  | .count n inner => by
    unfold Gen.segments
    exact draws_ite draws_fail (draws_chain_times (draws_segments hcall inner) n)
  | .optional inner => by
    refine draws_after fun b => draws_ite ?_ ?_
    · exact (draws_segments hcall inner).mono fun _ h => h.left _
    · exact draws_pure ((fits_literal []).right _)
  | .sepBy inner sep => by
    refine draws_after fun n => ?_
    have hinner := draws_segments hcall inner
    cases n with
    | zero => exact draws_pure ((fits_literal []).left _)
    | succ n =>
      have hrow := draws_chain_cons hinner (draws_chain_pairs hinner (draws_segments hcall sep) n)
      exact hrow.mono fun _ h => h.right _
  | .sepBy1 inner sep => by
    refine draws_bind (draws_repeatCount 1) fun n hn => ?_
    obtain ⟨n, rfl⟩ : ∃ m, n = m + 1 := ⟨n - 1, by omega⟩
    have hinner := draws_segments hcall inner
    exact draws_chain_cons hinner (draws_chain_pairs hinner (draws_segments hcall sep) n)
  | .either left right => by
    refine draws_after fun i => draws_ite ?_ ?_
    · exact (draws_segments hcall left).mono fun _ h => h.left _
    · exact (draws_segments hcall right).mono fun _ h => h.right _
  | .between inner before after => by
    have hbefore := draws_segments hcall before
    have hafter := draws_segments hcall after
    exact draws_chain (.cons hbefore (.cons (draws_segments hcall inner) (.cons hafter .nil)))
  | .map change inner =>
    draws_bind (draws_segments hcall inner) fun _ h => draws_pure (h.change change)
  | .delayed inner => by
    unfold Gen.segments
    cases inner.check with
    | ok => exact draws_segments hcall inner
    | error e => exact draws_fail
  | .ref symbol =>
    draws_bind (hcall symbol) fun t ht => draws_pure (fits_single (s := .drawn symbol t) ht)

theorem draws_segmentsAll (hcall : ∀ x, Draws (call x) (P x)) :
    ∀ gs : List (Gen ρ), List.Forall₂ (fun s a => Draws s (Fits P a)) (Gen.segmentsAll call gs)
      (Gen.readAll reading (fun x => single (.drawn x)) gs)
  | [] => .nil
  | g :: gs => .cons (draws_segments hcall g) (draws_segmentsAll hcall gs)

theorem draws_segmentsOptions (hcall : ∀ x, Draws (call x) (P x)) :
    ∀ gs : List (Float × Gen ρ),
      List.Forall₂ (fun o a => Draws o.2 (Fits P a)) (Gen.segmentsOptions call gs)
        (Gen.readOptions reading (fun x => single (.drawn x)) gs)
  | [] => .nil
  | (_, g) :: gs => .cons (draws_segments hcall g) (draws_segmentsOptions hcall gs)

end

end Run

end Joints

end SmlSynth
