import SmlSynth.Proofs.Blocks
import SmlSynth.Proofs.Detail

/-!
# The blocks of programs

Words of a program do not grow together, and no name reads as a keyword. So the keywords of a text
are those of its parts, one after the other, and the blocks that open in a phrase close in it.

* `Wording`, `Reads`: what is said of the words of a text, and when it is true.
* `Reads.append`, `Reads.reduce`, `Reads.many`, `Reads.enclose`: how this is put together.
* `Piece`: texts with the pieces that words are put together from.
* `Piece.sound`, `Piece.holds_lexeme`, `Piece.body_rule`: what is said of phrases is true.
* `blocks_nest`: blocks nest in programs, and all that open close.
-/

namespace SmlSynth

open Scan

/-! ## Wordings -/

/-- **What is said of the words of a text.** -/
structure Wording where
  /-- The text may be empty. -/
  vanishes : Bool
  /-- It may begin with a word. -/
  first : Bool
  /-- It may end with a word. -/
  last : Bool
  /-- Keywords that do to the open blocks what those of the text do. -/
  keywords : List Keyword
  /-- They do so only where the innermost block is no `case`. -/
  calm : Bool
deriving Repr, DecidableEq

namespace Wording

/-- What is known of a fixed text. -/
def exactly (t : Text) : Wording :=
  ⟨t.isEmpty, t.head?.any isWordChar, t.getLast?.any isWordChar, SmlSynth.keywords t, false⟩

/-- No words stand at the ends, and there are no keywords. -/
def mute : Wording := ⟨false, false, false, [], false⟩

/-- There are no keywords. -/
def plain : Wording := ⟨false, true, true, [], false⟩

/-- **One text after another**, if their words do not grow together and no `of` of the second one
can meet a `case` of the first. -/
def append (a b : Wording) : Option Wording :=
  if a.last && b.first || b.calm && !a.keywords.getLast?.all Keyword.covers then none
  else some
    { vanishes := a.vanishes && b.vanishes
      first := a.first || a.vanishes && b.first
      last := b.last || b.vanishes && a.last
      keywords := a.keywords ++ b.keywords
      calm := a.calm || a.keywords.isEmpty && b.calm }

theorem of_append {a b c : Wording} (h : a.append b = some c) :
    (a.last = true → b.first = false) ∧
    (b.calm = true → a.keywords.getLast?.all Keyword.covers = true) ∧
    c = { vanishes := a.vanishes && b.vanishes
          first := a.first || a.vanishes && b.first
          last := b.last || b.vanishes && a.last
          keywords := a.keywords ++ b.keywords
          calm := a.calm || a.keywords.isEmpty && b.calm } := by
  unfold append at h
  split at h
  · cases h
  · rename_i hno
    simp only [Bool.or_eq_true, Bool.and_eq_true, Bool.not_eq_true', not_or, not_and,
      Bool.not_eq_true, Bool.not_eq_false] at hno
    exact ⟨hno.1, hno.2, (Option.some.inj h).symm⟩

/-- **Without keywords that close all the blocks they open**, if they do. -/
def reduce (a : Wording) : Option Wording :=
  if followAbove false a.keywords [] = some [] then some { a with keywords := [] }
  else if followAbove true a.keywords [] = some [] then some { a with keywords := [], calm := true }
  else none

theorem keywords_of_reduce {a b : Wording} (h : a.reduce = some b) : b.keywords = [] := by
  unfold reduce at h
  split at h
  · rw [← Option.some.inj h]
  · split at h
    · rw [← Option.some.inj h]
    · cases h

/-- One of two texts without keywords. -/
def either (a b : Wording) : Wording :=
  ⟨a.vanishes || b.vanishes, a.first || b.first, a.last || b.last, [], a.calm || b.calm⟩

/-- Texts without keywords in a row, if their words do not grow together. -/
def many (a : Wording) : Option Wording :=
  if a.last && a.first then none else some { a with vanishes := true }

/-- A text in brackets. -/
def enclose (a : Wording) : Wording := { a with vanishes := false, first := false, last := false }

end Wording

/-- **What a wording says of a text.** -/
structure Reads (a : Wording) (t : Text) : Prop where
  vanishes : t = [] → a.vanishes = true
  first : t.head?.any isWordChar = true → a.first = true
  last : t.getLast?.any isWordChar = true → a.last = true
  effect : ∀ s : List Frame, (a.calm = true → s.head? ≠ some .choice) →
    follow (keywords t) s = follow a.keywords s

namespace Reads

variable {a b : Wording} {t u : Text} {ts : List Text}

theorem exactly (t : Text) : Reads (.exactly t) t where
  vanishes h := List.isEmpty_iff.2 h
  first h := h
  last h := h
  effect _ _ := rfl

/-- A text that ends with no words and has none. -/
theorem of_mute (hne : t ≠ []) (hfirst : t.head?.any isWordChar = false)
    (hlast : t.getLast?.any isWordChar = false) (h : keywords t = []) : Reads .mute t where
  vanishes he := absurd he hne
  first he := by rw [hfirst] at he; cases he
  last he := by rw [hlast] at he; cases he
  effect s _ := by rw [h]; rfl

theorem of_plain (hne : t ≠ []) (h : keywords t = []) : Reads .plain t where
  vanishes he := absurd he hne
  first _ := rfl
  last _ := rfl
  effect s _ := by rw [h]; rfl

/-- The keywords of two texts do what those of one do, and then those of the other. -/
theorem effect_append (ha : Reads a t) (hb : Reads b u) (hapart : a.last = true → b.first = false)
    (hcovers : b.calm = true → a.keywords.getLast?.all Keyword.covers = true) {s : List Frame}
    (hs : a.calm = true → s.head? ≠ some .choice)
    (hs' : a.keywords = [] → b.calm = true → s.head? ≠ some .choice) :
    follow (keywords (t ++ u)) s = follow (a.keywords ++ b.keywords) s := by
  have hkeywords : keywords (t ++ u) = keywords t ++ keywords u := by
    refine keywords_append fun ht => Bool.eq_false_iff.2 fun hu => ?_
    have hfirst := hapart (ha.last ht)
    rw [hb.first hu] at hfirst
    cases hfirst
  rw [hkeywords, follow_append, follow_append, ha.effect s hs]
  refine Option.bind_congr fun s₁ hs₁ => hb.effect s₁ fun hc => ?_
  exact follow_covers (hcovers hc) (fun he => hs' he hc) hs₁

/-- **One text after another.** -/
theorem append {c : Wording} (ha : Reads a t) (hb : Reads b u) (h : a.append b = some c) :
    Reads c (t ++ u) := by
  obtain ⟨hapart, hcovers, rfl⟩ := Wording.of_append h
  refine ⟨fun he => ?_, fun he => ?_, fun he => ?_, fun s hs => ?_⟩
  · obtain ⟨ht, hu⟩ := List.append_eq_nil_iff.1 he
    simp only [ha.vanishes ht, hb.vanishes hu, Bool.and_self]
  -- the first character is that of the second text where the first one is empty
  · cases t with
    | nil => simp only [ha.vanishes rfl, hb.first he, Bool.and_self, Bool.or_true]
    | cons c rest => simp only [ha.first he, Bool.true_or]
  · rcases List.eq_nil_or_concat u with rfl | ⟨rest, c, rfl⟩
    · rw [List.append_nil] at he
      simp only [hb.vanishes rfl, ha.last he, Bool.and_self, Bool.or_true]
    · rw [List.concat_eq_append, ← List.append_assoc, List.getLast?_concat] at he
      rw [List.concat_eq_append] at hb
      simp only [hb.last (List.getLast?_concat .. ▸ he), Bool.true_or]
  · refine ha.effect_append hb hapart hcovers (fun hc => hs ?_) fun he hc => hs ?_
    · simp only [hc, Bool.true_or]
    · simp only [he, hc, List.isEmpty_nil, Bool.and_self, Bool.or_true]

/-- **Without the keywords of blocks that close.** -/
theorem reduce (h : Reads a t) (hb : a.reduce = some b) : Reads b t := by
  have hclosed : ∀ idle, followAbove idle a.keywords [] = some [] →
      Reads { a with keywords := [], calm := a.calm || idle } t := by
    intro idle hidle
    refine ⟨h.vanishes, h.first, h.last, fun s hs => ?_⟩
    rw [h.effect s fun hc => hs (by simp only [hc, Bool.true_or])]
    exact follow_under hidle fun hi => hs (by simp only [hi, Bool.or_true])
  unfold Wording.reduce at hb
  split at hb
  · obtain rfl := Option.some.inj hb
    simpa only [Bool.or_false] using hclosed false ‹_›
  · split at hb
    · obtain rfl := Option.some.inj hb
      simpa only [Bool.or_true] using hclosed true ‹_›
    · cases hb

theorem left (h : Reads a t) (ha : a.keywords = []) (b : Wording) : Reads (a.either b) t where
  vanishes he := by simp only [Wording.either, h.vanishes he, Bool.true_or]
  first he := by simp only [Wording.either, h.first he, Bool.true_or]
  last he := by simp only [Wording.either, h.last he, Bool.true_or]
  effect s hs := by
    rw [h.effect s fun hc => hs (by simp only [Wording.either, hc, Bool.true_or]), ha]
    rfl

theorem either_comm (a b : Wording) : a.either b = b.either a := by
  simp only [Wording.either, Bool.or_comm]

theorem right (h : Reads b t) (hb : b.keywords = []) (a : Wording) : Reads (a.either b) t :=
  either_comm b a ▸ h.left hb a

/-- **Texts in a row.** -/
theorem many (ha : a.keywords = []) (hb : a.many = some b) (h : ∀ t ∈ ts, Reads a t) :
    Reads b ts.flatten := by
  unfold Wording.many at hb
  split at hb
  · cases hb
  rename_i hapart
  obtain rfl := Option.some.inj hb
  induction ts with
  | nil =>
    refine ⟨fun _ => rfl, fun he => ?_, fun he => ?_, fun s _ => ?_⟩
    · cases he
    · cases he
    · rw [ha]; rfl
  | cons t rest ih =>
    have ht := h t (List.mem_cons_self ..)
    have hrest := ih fun u hu => h u (List.mem_cons_of_mem _ hu)
    -- the first text and the rest, put together, are as the first one
    have happend : a.append { a with vanishes := true } = some a := by
      obtain ⟨vanishes, first, last, keywords, calm⟩ := a
      obtain rfl : keywords = [] := ha
      cases vanishes <;> cases first <;> cases last <;> cases calm <;> first
        | rfl
        | exact absurd rfl hapart
    have hall := ht.append hrest happend
    exact ⟨fun _ => rfl, hall.first, hall.last, hall.effect⟩

/-- **Brackets part words.** -/
theorem enclose (h : Reads a t) {o e : Char} (ho : isWordChar o = false)
    (he : isWordChar e = false) : Reads a.enclose (o :: (t ++ [e])) where
  vanishes hnil := by cases hnil
  first hf := by rw [List.head?_cons, Option.any_some, ho] at hf; cases hf
  last hl := by
    rw [← List.cons_append, List.getLast?_concat, Option.any_some, he] at hl
    cases hl
  effect s hs := by
    have hkeywords : keywords (o :: (t ++ [e])) = keywords t := by
      unfold keywords
      rw [words_after_break ho, words_before_break he]
    rw [hkeywords]
    exact h.effect s hs

end Reads

/-! ## Pieces -/

/-- **Texts with the pieces of words**: nothing, a piece that does not stand alone, a word that
begins with a prime, and a text that may have words. -/
inductive Piece where
  | blank
  | part
  | prime
  | worded (a : Wording)
deriving Repr, DecidableEq

namespace Piece

/-- **What a piece says of a text.** -/
def Says (t : Text) : Piece → Prop
  | blank => t = []
  | part => t ≠ [] ∧ ∀ c ∈ t, isWordChar c = true
  | prime => t.head? = some '\x27' ∧ ∀ c ∈ t, isWordChar c = true
  | worded a => Reads a t

/-- A fixed text as a piece. -/
def exactly (t : Text) : Piece :=
  if t = [] then blank
  else if t.head? = some '\x27' ∧ t.all isWordChar = true then prime
  else worded (.exactly t)

/-- The wording of a piece that can stand alone. -/
def wording? : Piece → Option Wording
  | blank => some (.exactly [])
  | part => none
  | prime => some .plain
  | worded a => some a

/-- The wording of a piece that can stand alone, without keywords. -/
def reduced? (p : Piece) : Option Wording := p.wording?.bind Wording.reduce

/-- **One piece after another.** -/
def append : Piece → Piece → Option Piece
  | blank, q => some q
  | p, blank => some p
  | prime, part => some prime
  | p, q => do return worded (← (← p.wording?).append (← q.wording?))

/-- One of two pieces. -/
def either (p q : Piece) : Option Piece := do
  return worded ((← p.reduced?).either (← q.reduced?))

/-- **Pieces, put together.** -/
def detail : Detail (Option Piece) where
  exactly ms := some (exactly (shown ms))
  append p q := p.bind fun p => q.bind p.append
  either p q := p.bind fun p => q.bind p.either
  many p := p.bind fun p => (p.reduced?.bind Wording.many).map worded
  enclose p := p.bind fun p => p.wording?.map fun a => worded a.enclose
  gate p q := p.bind fun p => q.bind p.either

/-! ### What pieces say is true -/

variable {p q r : Piece} {a : Wording} {t u : Text}

/-- **What stands in the program** is as a piece says, if there is one. -/
def Holds (_ : Nat) (p : Option Piece) (ms : List Mark) : Prop := ∀ q ∈ p, q.Says (shown ms)

theorem says_exactly (t : Text) : (exactly t).Says t := by
  unfold exactly
  split
  · assumption
  split
  · rename_i hprime
    exact ⟨hprime.1, List.all_eq_true.1 hprime.2⟩
  · exact Reads.exactly t

/-- No keyword begins with a prime. -/
theorem keywords_of_prime (hfirst : t.head? = some '\x27') (h : ∀ c ∈ t, isWordChar c = true) :
    keywords t = [] := by
  refine keywords_of_run h fun b hb he => ?_
  have hno : ∀ b ∈ blockWords, b.1.toList.head? ≠ some '\x27' := by decide
  exact hno b hb (he ▸ hfirst)

theorem Says.reads (h : p.Says t) (ha : p.wording? = some a) : Reads a t := by
  cases p with
  | blank =>
    rw [← Option.some.inj ha, show t = [] from h]
    exact Reads.exactly []
  | part => cases ha
  | prime =>
    rw [← Option.some.inj ha]
    exact Reads.of_plain (by rintro rfl; cases h.1) (keywords_of_prime h.1 h.2)
  | worded b =>
    rw [← Option.some.inj ha]
    exact h

theorem keywords_of_reduced? (ha : p.reduced? = some a) : a.keywords = [] := by
  obtain ⟨b, -, ha⟩ := Option.bind_eq_some_iff.1 ha
  exact Wording.keywords_of_reduce ha

theorem Says.reduced (h : p.Says t) (ha : p.reduced? = some a) : Reads a t := by
  obtain ⟨b, hb, ha⟩ := Option.bind_eq_some_iff.1 ha
  exact (h.reads hb).reduce ha

theorem Says.append (h : p.Says t) (h' : q.Says u) (hr : p.append q = some r) :
    r.Says (t ++ u) := by
  unfold Piece.append at hr
  split at hr
  · rw [← Option.some.inj hr, show t = [] from h]
    exact h'
  · rw [← Option.some.inj hr, show u = [] from h', List.append_nil]
    exact h
  · rw [← Option.some.inj hr]
    refine ⟨?_, fun c hc => ?_⟩
    · rw [List.head?_append, h.1]; rfl
    · rcases List.mem_append.1 hc with hc | hc
      · exact h.2 c hc
      · exact h'.2 c hc
  · obtain ⟨a, ha, hr⟩ := Option.bind_eq_some_iff.1 hr
    obtain ⟨b, hb, hr⟩ := Option.bind_eq_some_iff.1 hr
    obtain ⟨c, hc, hr⟩ := Option.bind_eq_some_iff.1 hr
    rw [← Option.some.inj hr]
    exact (h.reads ha).append (h'.reads hb) hc

theorem Says.left (h : p.Says t) (hr : p.either q = some r) : r.Says t := by
  obtain ⟨a, ha, hr⟩ := Option.bind_eq_some_iff.1 hr
  obtain ⟨b, -, hr⟩ := Option.bind_eq_some_iff.1 hr
  rw [← Option.some.inj hr]
  exact (h.reduced ha).left (keywords_of_reduced? ha) b

theorem Says.right (h : q.Says t) (hr : p.either q = some r) : r.Says t := by
  obtain ⟨a, -, hr⟩ := Option.bind_eq_some_iff.1 hr
  obtain ⟨b, hb, hr⟩ := Option.bind_eq_some_iff.1 hr
  rw [← Option.some.inj hr]
  exact (h.reduced hb).right (keywords_of_reduced? hb) a

/-- Two pieces are put together where both are there. -/
theorem of_both {f : Piece → Piece → Option Piece} {p q : Option Piece}
    (h : r ∈ p.bind fun p => q.bind (f p)) : ∃ p' ∈ p, ∃ q' ∈ q, f p' q' = some r := by
  obtain ⟨p', hp, h⟩ := Option.bind_eq_some_iff.1 h
  obtain ⟨q', hq, h⟩ := Option.bind_eq_some_iff.1 h
  exact ⟨p', hp, q', hq, h⟩

theorem Holds.left {d e : Nat} {p : Option Piece} {ms : List Mark} (h : Holds d p ms)
    (q : Option Piece) : Holds e (p.bind fun p => q.bind p.either) ms := by
  intro r hr
  obtain ⟨p', hp, q', -, hr⟩ := of_both hr
  exact (h p' hp).left hr

theorem Holds.right {d e : Nat} {q : Option Piece} {ms : List Mark} (h : Holds d q ms)
    (p : Option Piece) : Holds e (p.bind fun p => q.bind p.either) ms := by
  intro r hr
  obtain ⟨p', -, q', hq, hr⟩ := of_both hr
  exact (h q' hq).right hr

theorem shown_append (ms ns : List Mark) : shown (ms ++ ns) = shown ms ++ shown ns :=
  List.map_append

theorem shown_flatten (mss : List (List Mark)) : shown mss.flatten = (mss.map shown).flatten :=
  List.map_flatten

/-- Within brackets the same is shown. -/
theorem shown_enclose (ms : List Mark) (o e : Char) :
    shown (.bare o :: (ms.map (·.raise 1) ++ [(Mark.bare e).raise 1]))
      = o :: (shown ms ++ [e]) := by
  have hinner : shown (ms.map (·.raise 1)) = shown ms := by
    unfold shown
    rw [List.map_map]
    rfl
  exact congrArg (o :: ·) ((shown_append _ _).trans (congrArg (· ++ [e]) hinner))

/-- Brackets are no word characters. -/
theorem breaks_of_opener? {o e : Char} (h : opener? e = some o) :
    isWordChar o = false ∧ isWordChar e = false := by
  unfold opener? at h
  split at h
  all_goals first
    | (rw [← Option.some.inj h]; decide)
    | cases h

/-- **What is put together from pieces is true.** -/
theorem sound : detail.Sound Holds where
  exactly d ms q hq := by
    rw [← Option.some.inj hq]
    exact says_exactly _
  append h h' r hr := by
    obtain ⟨p, hp, q, hq, hr⟩ := of_both hr
    rw [shown_append]
    exact (h p hp).append (h' q hq) hr
  left q h := h.left q
  right p h := h.right p
  many h r hr := by
    obtain ⟨p, hp, hr⟩ := Option.bind_eq_some_iff.1 hr
    obtain ⟨b, hb, hr⟩ := Option.map_eq_some_iff.1 hr
    obtain ⟨a, ha, hb⟩ := Option.bind_eq_some_iff.1 hb
    rw [shown_flatten, ← hr]
    refine Reads.many (keywords_of_reduced? ha) hb fun t ht => ?_
    obtain ⟨ms, hms, rfl⟩ := List.mem_map.1 ht
    exact (h ms hms p hp).reduced ha
  enclose hopener h r hr := by
    obtain ⟨p, hp, hr⟩ := Option.bind_eq_some_iff.1 hr
    obtain ⟨a, ha, hr⟩ := Option.map_eq_some_iff.1 hr
    obtain ⟨ho, he⟩ := breaks_of_opener? hopener
    rw [shown_enclose, ← hr]
    exact ((h p hp).reads ha).enclose ho he
  terminal q h := h.left q
  recursive p h := h.right p

/-! ## The pieces of symbols -/

/-- **What lexemes are**: identifiers stand after a prime, constants in quotes and comments hide
their words, and any other lexeme reads as no keyword. -/
def lexeme : Lexeme → Piece
  | .identifier | .shortIdentifier => part
  | .comment | .string | .character | .symbolic => worded .mute
  | _ => worded .plain

/-- **What rules are**: blocks that open in a phrase close in it. In declarations the `of` before
the types of constructors belongs to no block. -/
def rule : Rule → Piece
  | .dec => worded { Wording.plain with calm := true }
  | _ => worded .plain

/-! ### Lexemes -/

theorem shown_bare (t : Text) : shown (t.map .bare) = t := by
  unfold shown
  rw [List.map_map]
  exact List.map_id t

/-- Nothing is shown of what is hidden but blanks. -/
theorem shown_hidden (t : Text) : ∀ c ∈ shown (t.map .hidden), c = ' ' := by
  intro c hc
  obtain ⟨m, hm, rfl⟩ := List.mem_map.1 hc
  obtain ⟨d, -, rfl⟩ := List.mem_map.1 hm
  rfl

/-- The characters that are shown of lexemes without words. -/
def breaks : List Char := symbolicChars ++ ['(', '\x22', ' ']

theorem reads_breaks (hne : t ≠ []) (h : t ⊆ breaks) : Reads .mute t := by
  have hbreaks : breaks.any isWordChar = false := by decide
  have hbreak : ∀ c ∈ t, isWordChar c = false := fun c hc =>
    Bool.eq_false_iff.2 (List.any_eq_false.1 hbreaks c (h hc))
  refine Reads.of_mute hne ?_ ?_ (keywords_eq_nil h (by decide))
  · cases t with
    | nil => rfl
    | cons c rest => exact hbreak c (List.mem_cons_self ..)
  · rcases List.eq_nil_or_concat t with rfl | ⟨rest, c, rfl⟩
    · rfl
    · rw [List.concat_eq_append, List.getLast?_concat]
      exact hbreak c (by simp)

/-- **No keyword is seen in quotes and comments.** -/
theorem reads_quoted {l : Lexeme} {first rest : Text} (hl : l.quote? = some first) :
    Reads .mute (shown (first.map .bare ++ rest.map .hidden)) := by
  have hfirst : first ≠ [] ∧ first ⊆ breaks := by
    cases l <;> first
      | (rw [← Option.some.inj hl]; decide)
      | cases hl
  rw [shown_append, shown_bare]
  refine reads_breaks (by simp [hfirst.1]) fun c hc => ?_
  rcases List.mem_append.1 hc with hc | hc
  · exact hfirst.2 hc
  · rw [shown_hidden rest c hc]
    decide

/-- The characters of numbers. Every keyword has another one. -/
def numberChars : List Char := hexDigits ++ ['x', 'w', '.', '~']

theorem keywords_of_number (h : t ⊆ numberChars) : keywords t = [] := keywords_eq_nil h (by decide)

theorem number_of_spell {alphabet : List Char} {n : Nat} (ha : alphabet ⊆ numberChars)
    (h : Spell alphabet n t) : t ⊆ numberChars := fun c hc => ha (h.chars c hc)

theorem number_append (h : t ⊆ numberChars) (h' : u ⊆ numberChars) : t ++ u ⊆ numberChars :=
  List.append_subset.2 ⟨h, h'⟩

theorem number_of_sign (negative : Bool) : Lexeme.sign negative ⊆ numberChars := by
  cases negative <;> decide

theorem number_of_fraction (h : t = [] ∨ Fraction t) : t ⊆ numberChars := by
  rcases h with rfl | hfraction
  · exact List.nil_subset _
  · cases hfraction with
    | mk h => exact number_append (t := ['.']) (by decide) (number_of_spell (by decide) h)

theorem number_of_exponent (h : t = [] ∨ Exponent t) : t ⊆ numberChars := by
  rcases h with rfl | ⟨negative, hmark, h⟩
  · exact List.nil_subset _
  · have hchar : ∀ c, c = 'e' ∨ c = 'E' → [c] ⊆ numberChars := by rintro c (rfl | rfl) <;> decide
    have hsigned := number_append (hchar _ hmark) (number_of_sign negative)
    exact number_append hsigned (number_of_spell (by decide) h)

/-- An identifier is a run of word characters. -/
theorem run_of_identifier {first : List Char} {n : Nat} (hfirst : first.all isWordChar = true)
    (h : Identifier first n t) : t ≠ [] ∧ ∀ c ∈ t, isWordChar c = true := by
  cases h with
  | mk head tail short =>
    have hchars : identifierChars.all isWordChar = true := by decide
    refine ⟨List.cons_ne_nil _ _, fun c hc => ?_⟩
    rcases List.mem_cons.1 hc with rfl | hc
    · exact List.all_eq_true.1 hfirst _ head
    · exact List.all_eq_true.1 hchars c (tail c hc)

/-- **Names and numbers are no keywords.** -/
theorem keywords_of_form {l : Lexeme} (h : l.Form t) (hl : lexeme l = worded .plain) :
    keywords t = [] := by
  cases h with
  | comment | identifier | shortIdentifier | symbolic | string | character =>
    exact absurd hl (by decide)
  | name h free =>
    -- the keywords of blocks are reserved
    have hreserved : ∀ b ∈ blockWords, isCoreReserved b.1.toList = true := by decide
    refine keywords_of_run (run_of_identifier (by decide) h).2 fun b hb he => ?_
    rw [← he, hreserved b hb] at free
    cases free
  | @markedName t h =>
    have hmark : ∀ b ∈ blockWords, b.1.toList.getLast? ≠ some '_' := by decide
    refine keywords_of_run (fun c hc => ?_) fun b hb he => hmark b hb ?_
    · rcases List.mem_append.1 hc with hc | hc
      · exact (run_of_identifier (by decide) h).2 c hc
      · rw [List.mem_singleton.1 hc]; rfl
    · rw [he, List.getLast?_concat]
  | capitalName h =>
    have hlower : ∀ b ∈ blockWords, b.1.toList.head?.any upperLetters.contains = false := by decide
    refine keywords_of_run (run_of_identifier (by decide) h).2 fun b hb he => ?_
    cases h with
    | @mk c rest head =>
      have hc : upperLetters.contains c = false := by
        have hno := hlower b hb
        rw [he] at hno
        exact hno
      rw [List.contains_iff_mem.2 head] at hc
      cases hc
  | @numericLabel n pos le =>
    have hdigits : ∀ n ≤ 10, Nat.toDigits 10 n ⊆ numberChars := by decide
    exact keywords_of_number (hdigits n le)
  | precedence h =>
    have hdigits : decimalDigits ⊆ numberChars := by decide
    exact keywords_of_number (List.cons_subset.2 ⟨hdigits h, List.nil_subset _⟩)
  | decimalInt negative h =>
    refine keywords_of_number (number_append (number_of_sign negative) ?_)
    exact number_of_spell (by decide) h.toSpell
  | hexInt negative h =>
    refine keywords_of_number (number_append (number_of_sign negative) ?_)
    exact number_append (t := ['0', 'x']) (by decide) (number_of_spell (by decide) h)
  | hexWord h =>
    refine keywords_of_number (number_append (t := ['0', 'w', 'x']) (by decide) ?_)
    exact number_of_spell (by decide) h
  | decimalWord h =>
    refine keywords_of_number (number_append (t := ['0', 'w']) (by decide) ?_)
    exact number_of_spell (by decide) h
  | real negative h hfraction hexponent =>
    have hwhole := number_append (number_of_sign negative) (number_of_spell (by decide) h.toSpell)
    have hpoint := number_append hwhole (number_of_fraction hfraction)
    exact keywords_of_number (number_append hpoint (number_of_exponent hexponent))

/-- **What is said of lexemes is true.** -/
theorem holds_lexeme {l : Lexeme} (h : l.Form t) (d : Nat) :
    Holds d (some (lexeme l)) (marks {} t) := by
  intro q hq
  rw [← Option.some.inj hq]
  cases hl : l.quote? with
  | some first =>
    obtain ⟨rest, hmarks⟩ := Lexeme.marks_quoted h hl
    rw [hmarks]
    have hmute : lexeme l = worded .mute := by
      cases l <;> first
        | rfl
        | cases hl
    rw [hmute]
    exact reads_quoted hl
  | none =>
    rw [Lexeme.marks_unquoted h hl, shown_bare]
    by_cases hplain : lexeme l = worded .plain
    · rw [hplain]
      exact Reads.of_plain (Lexeme.spelled_of_form h).nonempty (keywords_of_form h hplain)
    · cases h with
      | identifier h => exact run_of_identifier (by decide) h
      | shortIdentifier h => exact run_of_identifier (by decide) h
      | symbolic h =>
        exact reads_breaks h.nonempty fun c hc => List.mem_append_left _ (h.chars c hc)
      | comment | string | character => cases hl
      | _ => exact absurd rfl hplain

/-! ### Rules and programs -/

/-- The outline and the piece of a symbol. -/
abbrev symbol : Symbol Lexeme Rule → Option (Outline × Option Piece) :=
  Detail.symbol (fun l => some (lexeme l)) fun r => some (rule r)

/-- **A rule's piece is that of its body**, when the rules in it have theirs. -/
theorem body_rule (r : Rule) :
    r.body.read detail.reading symbol = some (r.outline, some (rule r)) := by
  cases r <;> decide +kernel

/-- A piece is read off, and it has no keywords but those of blocks that close. -/
def settled : Option (Outline × Option Piece) → Bool
  | some (_, some p) => p.reduced?.isSome
  | _ => false

/-- **The blocks of a program close**, of every tier and with every choice of parts. -/
theorem settled_program (tier : Tier) (comments rarities : Bool) :
    settled ((Phrase.program tier comments rarities).read detail.reading symbol) = true := by
  -- the parts of a shape are read once for all choices
  revert comments rarities
  cases tier <;> decide +kernel

/-! ## The blocks of phrases -/

variable {σ : Type} [Source σ]

/-- **Blocks nest in the texts of a phrase**, and all that open close, if its piece is settled. -/
theorem follow_sample {p : Phrase} (hp : settled (p.read detail.reading symbol) = true)
    {c : Context σ} (ht : (p.sample c).1 = .ok t) :
    (programText t).length = t.length ∧ follow (keywords (programText t)) [] = some [] := by
  unfold settled at hp
  split at hp
  · rename_i o q hread
    obtain ⟨a, ha⟩ := Option.isSome_iff_exists.1 hp
    obtain ⟨⟨cs, hclean⟩, hholds⟩ := sound.sample holds_lexeme body_rule p hread ht
    have hreads : Reads a (programText t) := (hholds q rfl).reduced ha
    have hempty : a.calm = true → ([] : List Frame).head? ≠ some .choice := fun _ he => by cases he
    refine ⟨hclean.length_programText, ?_⟩
    rw [hreads.effect [] hempty, keywords_of_reduced? ha, follow_nil]
  · cases hp

end Piece

/-- **Blocks nest in programs, and all that open close.** A scan sees every character of a program,
and its words are read outside of constants in quotes and comments; whatever the tier, the source,
the bounds and the parts that are wanted, each keyword belongs where it stands. -/
theorem blocks_nest {σ : Type} [Source σ] (tier : Tier) (comments rarities : Bool) (c : Context σ)
    (t : Text) (ht : ((Phrase.program tier comments rarities).sample c).1 = .ok t) :
    (programText t).length = t.length ∧ follow (keywords (programText t)) [] = some [] :=
  Piece.follow_sample (Piece.settled_program tier comments rarities) ht

/-- On the tape of zeros a program of the highest tier has a datatype, a local declaration and one
in an expression. -/
theorem blocks_nest_zero :
    ∃ t, ((Phrase.program .extreme true true).sample
        (⟨Tape.constant 0, ⟨3, 2⟩, 0, 0, 0⟩ : Context Tape)).1 = .ok t ∧
      keywords (programText t)
        = [.arms, .scope, .within, .finish, .scope, .within, .finish] ∧
      (programText t).length = t.length ∧ follow (keywords (programText t)) [] = some [] := by
  obtain ⟨t, ht, hkeywords⟩ := exists_ok_of_any
    (p := fun t => decide (keywords (programText t)
      = [.arms, .scope, .within, .finish, .scope, .within, .finish]))
    (x := ((Phrase.program .extreme true true).sample
      (⟨Tape.constant 0, ⟨3, 2⟩, 0, 0, 0⟩ : Context Tape)).1)
    (by decide +kernel)
  exact ⟨t, ht, of_decide_eq_true hkeywords, blocks_nest _ _ _ _ t ht⟩

end SmlSynth
