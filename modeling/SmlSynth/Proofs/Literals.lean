import SmlSynth.Digits
import SmlSynth.Proofs.Identifiers

/-!
# How constants in quotes are read

The elements of a string constant stand next to each other without separators, and are of one to
six characters. A reader that goes from left to right still finds all of them: what an element
starts with says how long it is, so reading never gets out of step.

* `Literal.Spells`, `Literal.SpellsAll`: the grammar of elements, and of texts made of them.
* `Literal.readElement`, `Literal.readInside`: readers for one element, and for all up to the quote.
* `Literal.readElement_iff`, `Literal.readInside_iff`: they read what the grammar spells, and
  nothing else.
* `Literal.atQuote`: the cut at the first quote that is not escaped.
* `Literal.quoted_read_back`: constants in quotes are read back as the elements that were drawn.
-/

namespace SmlSynth

open Sampler Phrase

namespace Literal

/-! ## The grammar -/

/-- A character of printable ASCII. None of these ends a line. -/
def isPrintable (c : Char) : Bool := ' ' ≤ c && c ≤ '~'

/-- A character that stands for itself: one that prints, but not the quote or the backslash. -/
def standsAlone (c : Char) : Bool := isPrintable c && c != '\x22' && c != '\\'

/-- What may stand after a backslash to name a character. -/
def escapeNames : List Char := ['n', 't', '\\', '\x22', 'a', 'b', 'v', 'f', 'r']

def isHexDigit (c : Char) : Bool := (Digits.hexValue? c).isSome

/-- **The grammar of elements.** -/
inductive Spells : Element → Text → Prop where
  | plain {c : Char} (h : standsAlone c = true) : Spells (.plain c) [c]
  | named {c : Char} (h : c ∈ escapeNames) : Spells (.named c) ['\\', c]
  /-- Three digits write a code of at most 255. -/
  | code {i j k : Char} {n : Fin 256} (h : Digits.natural? [i, j, k] = some n.val) :
    Spells (.code n) ['\\', i, j, k]
  | codePoint {i j k l : Char} (h : [i, j, k, l].all isHexDigit = true) :
    Spells (.codePoint [i, j, k, l]) ['\\', 'u', i, j, k, l]

/-- Texts made of elements, one after another. -/
inductive SpellsAll : List Element → Text → Prop where
  | nil : SpellsAll [] []
  | cons {e : Element} {es : List Element} {t u : Text} (first : Spells e t)
    (rest : SpellsAll es u) : SpellsAll (e :: es) (t ++ u)

/-! ## Readers -/

/-- Reads three digits as a code. -/
def readCode : Text → Option (Element × Text)
  | i :: j :: k :: rest => do
    let n ← Digits.natural? [i, j, k]
    if h : n < 256 then some (.code ⟨n, h⟩, rest) else none
  | _ => none

/-- Reads what stands after a backslash. -/
def readEscape : Text → Option (Element × Text)
  | 'u' :: i :: j :: k :: l :: rest =>
    if [i, j, k, l].all isHexDigit then some (.codePoint [i, j, k, l], rest) else none
  | c :: rest => if c ∈ escapeNames then some (.named c, rest) else readCode (c :: rest)
  | [] => none

/-- **Reads one element** from the start of a text: the element, and the text after it. -/
def readElement : Text → Option (Element × Text)
  | '\\' :: rest => readEscape rest
  | c :: rest => if standsAlone c then some (.plain c, rest) else none
  | [] => none

/-! ## Digits -/

theorem isHexDigit_iff {c : Char} : isHexDigit c = true ↔
    '0' ≤ c ∧ c ≤ '9' ∨ 'a' ≤ c ∧ c ≤ 'f' ∨ 'A' ≤ c ∧ c ≤ 'F' := by
  unfold isHexDigit Digits.hexValue?
  grind

theorem isHexDigit_of_isDigit {c : Char} (h : c.isDigit = true) : isHexDigit c = true := by
  rw [isHexDigit_iff]
  simp [Char.isDigit] at h
  exact .inl h

/-- Digits of either base are neither quotes nor backslashes. -/
theorem standsAlone_of_isHexDigit {c : Char} (h : isHexDigit c = true) :
    standsAlone c = true := by
  rw [isHexDigit_iff] at h
  have hprint : ' ' ≤ c ∧ c ≤ '~' := by
    rcases h with ⟨hlow, hhigh⟩ | ⟨hlow, hhigh⟩ | ⟨hlow, hhigh⟩
    all_goals exact ⟨Char.le_trans (by decide) hlow, Char.le_trans hhigh (by decide)⟩
  have hquote : c ≠ '\x22' := by rintro rfl; revert h; decide
  have hslash : c ≠ '\\' := by rintro rfl; revert h; decide
  simp [standsAlone, isPrintable, hprint, hquote, hslash]

/-- What writes a number is digits. -/
theorem isDigit_of_natural? {t : Text} {n : Nat} (h : Digits.natural? t = some n) :
    ∀ c ∈ t, c.isDigit = true := by
  unfold Digits.natural? at h
  split at h
  · rename_i hdigits
    exact List.all_eq_true.1 hdigits.2
  · cases h

/-! ## One element -/

/-- No digit names an escape. -/
theorem notMem_escapeNames {c : Char} (h : c.isDigit = true) : c ∉ escapeNames ∧ c ≠ 'u' := by
  have hnames : escapeNames.all (fun d => !d.isDigit) = true := by decide
  refine ⟨fun hc => ?_, ?_⟩
  · have hdigit := List.all_eq_true.1 hnames c hc
    rw [h] at hdigit
    cases hdigit
  · rintro rfl
    cases h

/-- **A reader reads what an element is spelled as**, and leaves what follows. -/
theorem readElement_of_spells {e : Element} {t : Text} (rest : Text) (h : Spells e t) :
    readElement (t ++ rest) = some (e, rest) := by
  cases h with
  | @plain c h =>
    have hc : c ≠ '\\' := by rintro rfl; cases h
    simp [readElement, h]
  | @named c h =>
    have hc : c ≠ 'u' := by rintro rfl; revert h; decide
    simp [readElement, readEscape, hc, h]
  | @code i j k n h =>
    obtain ⟨hnames, hu⟩ := notMem_escapeNames (isDigit_of_natural? h i (List.mem_cons_self ..))
    have hn : n.val < 256 := n.isLt
    simp [readElement, readEscape, readCode, hu, hnames, h]
  | codePoint h => simp only [readElement, readEscape, List.cons_append, List.nil_append, if_pos h]

theorem spells_of_readCode {e : Element} {t rest : Text} (h : readCode t = some (e, rest)) :
    ∃ u, Spells e ('\\' :: u) ∧ t = u ++ rest := by
  unfold readCode at h
  split at h
  · rename_i i j k after
    obtain ⟨n, hn, h⟩ := Option.bind_eq_some_iff.1 h
    split at h
    · obtain ⟨rfl, rfl⟩ := Prod.mk.inj (Option.some.inj h)
      exact ⟨[i, j, k], .code hn, rfl⟩
    · cases h
  · cases h

theorem spells_of_readEscape {e : Element} {t rest : Text} (h : readEscape t = some (e, rest)) :
    ∃ u, Spells e ('\\' :: u) ∧ t = u ++ rest := by
  unfold readEscape at h
  split at h
  · rename_i i j k l after
    split at h
    · rename_i hdigits
      obtain ⟨rfl, rfl⟩ := Prod.mk.inj (Option.some.inj h)
      exact ⟨['u', i, j, k, l], .codePoint hdigits, rfl⟩
    · cases h
  · rename_i c after _
    split at h
    · rename_i hc
      obtain ⟨rfl, rfl⟩ := Prod.mk.inj (Option.some.inj h)
      exact ⟨[c], .named hc, rfl⟩
    · exact spells_of_readCode h
  · cases h

/-- **What is read of a text is an element that the text starts with**, and what follows it. -/
theorem readElement_iff {e : Element} {t rest : Text} :
    readElement t = some (e, rest) ↔ ∃ u, Spells e u ∧ t = u ++ rest := by
  constructor
  · intro h
    unfold readElement at h
    split at h
    · obtain ⟨u, hu, rfl⟩ := spells_of_readEscape h
      exact ⟨_, hu, rfl⟩
    · rename_i c after _
      split at h
      · rename_i hc
        obtain ⟨rfl, rfl⟩ := Prod.mk.inj (Option.some.inj h)
        exact ⟨[c], .plain hc, rfl⟩
      · cases h
    · cases h
  · rintro ⟨u, hu, rfl⟩
    exact readElement_of_spells rest hu

/-! ## All elements up to the quote -/

/-- No element is spelled by nothing, or starts with a quote. -/
theorem head_of_spells {e : Element} {t : Text} (h : Spells e t) :
    ∃ c u, t = c :: u ∧ c ≠ '\x22' := by
  cases h with
  | @plain c h => exact ⟨c, [], rfl, by rintro rfl; cases h⟩
  | named h => exact ⟨_, _, rfl, by decide⟩
  | code h => exact ⟨_, _, rfl, by decide⟩
  | codePoint h => exact ⟨_, _, rfl, by decide⟩

theorem length_of_readElement {e : Element} {t rest : Text}
    (h : readElement t = some (e, rest)) : rest.length < t.length := by
  obtain ⟨u, hu, rfl⟩ := readElement_iff.1 h
  obtain ⟨c, v, rfl, -⟩ := head_of_spells hu
  simp only [List.cons_append, List.length_cons, List.length_append]
  omega

/-- **Reads the inside of a constant**: the elements up to the first quote that is met where an
element may start, and the text after that quote. -/
def readInside (t : Text) : Option (List Element × Text) :=
  match t with
  | '\x22' :: rest => some ([], rest)
  | t =>
    match _h : readElement t with
    | some (e, rest) => (readInside rest).map fun (es, after) => (e :: es, after)
    | none => none
termination_by t.length
decreasing_by exact length_of_readElement _h

theorem readInside_quote (rest : Text) : readInside ('\x22' :: rest) = some ([], rest) := by
  rw [readInside.eq_def]
  rfl

theorem readInside_of_head {t : Text} (h : t.head? ≠ some '\x22') :
    readInside t = (readElement t).bind fun (e, rest) =>
      (readInside rest).map fun (es, after) => (e :: es, after) := by
  rw [readInside.eq_def]
  split
  · simp at h
  · split
    · rename_i e rest hread
      rw [hread]
      rfl
    · rename_i hread
      rw [hread]
      rfl

/-- **The inside of a constant is read as its elements**, whatever follows the quote. -/
theorem readInside_of_spellsAll {es : List Element} {t : Text} (rest : Text) (h : SpellsAll es t) :
    readInside (t ++ '\x22' :: rest) = some (es, rest) := by
  induction h with
  | nil => exact readInside_quote rest
  | @cons e es t u first _ ih =>
    obtain ⟨c, v, hv, hc⟩ := head_of_spells first
    have hhead : (t ++ u ++ '\x22' :: rest).head? ≠ some '\x22' := by
      rw [hv]
      simpa using hc
    rw [readInside_of_head hhead, List.append_assoc, readElement_of_spells _ first]
    show (readInside (u ++ '\x22' :: rest)).map _ = _
    rw [ih]
    rfl

/-- What is read of a text up to a quote is all elements. -/
theorem spellsAll_of_readInside {t : Text} : ∀ {es : List Element} {rest : Text},
    readInside t = some (es, rest) → ∃ u, SpellsAll es u ∧ t = u ++ '\x22' :: rest := by
  induction ht : t.length using Nat.strong_induction_on generalizing t with
  | _ n ih =>
    intro es rest h
    by_cases hhead : t.head? = some '\x22'
    · obtain ⟨after, rfl⟩ := List.head?_eq_some_iff.1 hhead
      rw [readInside_quote] at h
      obtain ⟨rfl, rfl⟩ := Prod.mk.inj (Option.some.inj h)
      exact ⟨[], .nil, rfl⟩
    · rw [readInside_of_head hhead] at h
      obtain ⟨⟨e, after⟩, hread, h⟩ := Option.bind_eq_some_iff.1 h
      obtain ⟨⟨es', rest'⟩, hinside, h⟩ := Option.map_eq_some_iff.1 h
      obtain ⟨rfl, rfl⟩ := Prod.mk.inj h
      -- what is left is shorter
      have hshort := length_of_readElement hread
      obtain ⟨v, hv, rfl⟩ := ih after.length (by omega) rfl hinside
      obtain ⟨u, hu, rfl⟩ := readElement_iff.1 hread
      exact ⟨u ++ v, .cons hu hv, by rw [List.append_assoc]⟩

/-- **What is read up to a quote is exactly what the grammar spells.** -/
theorem readInside_iff {t rest : Text} {es : List Element} :
    readInside t = some (es, rest) ↔ ∃ u, SpellsAll es u ∧ t = u ++ '\x22' :: rest := by
  constructor
  · exact spellsAll_of_readInside
  · rintro ⟨u, hu, rfl⟩
    exact readInside_of_spellsAll rest hu

/-- An escaped backslash does not escape what follows, and a code takes no fourth digit. -/
example : readInside ['\\', '\\', 'n', '\\', '0', '6', '5', '7', '\x22'] =
    some ([.named '\\', .plain 'n', .code 65, .plain '7'], []) := by cbv

/-- **A text is made of elements in one way only.** -/
theorem SpellsAll.unique {es es' : List Element} {t : Text} (h : SpellsAll es t)
    (h' : SpellsAll es' t) : es' = es := by
  have hread := readInside_of_spellsAll [] h
  rw [readInside_of_spellsAll [] h'] at hread
  exact (Prod.mk.inj (Option.some.inj hread)).1

/-! ## The first quote that is not escaped -/

/-- **The cut at the first quote that is not escaped**: the text before it and the text after it.
The character after a backslash is passed over. -/
def atQuote : Text → Option (Text × Text)
  | '\\' :: c :: rest => (atQuote rest).map fun (before, after) => ('\\' :: c :: before, after)
  | '\x22' :: rest => some ([], rest)
  | c :: rest => (atQuote rest).map fun (before, after) => (c :: before, after)
  | [] => none

theorem atQuote_cons {c : Char} {rest before after : Text} (hquote : c ≠ '\x22')
    (hslash : c ≠ '\\') (h : atQuote rest = some (before, after)) :
    atQuote (c :: rest) = some (c :: before, after) := by
  rw [atQuote.eq_def]
  split <;> simp_all

theorem atQuote_escape {c : Char} {rest before after : Text}
    (h : atQuote rest = some (before, after)) :
    atQuote ('\\' :: c :: rest) = some ('\\' :: c :: before, after) := by
  rw [atQuote, h]
  rfl

theorem standsAlone_iff {c : Char} :
    standsAlone c = true ↔ isPrintable c = true ∧ c ≠ '\x22' ∧ c ≠ '\\' := by
  simp [standsAlone, and_assoc]

/-- A text whose characters stand for themselves is passed. -/
theorem atQuote_append {t rest before after : Text} (ht : ∀ c ∈ t, standsAlone c = true)
    (h : atQuote rest = some (before, after)) :
    atQuote (t ++ rest) = some (t ++ before, after) := by
  induction t with
  | nil => exact h
  | cons c t ih =>
    obtain ⟨-, hquote, hslash⟩ := standsAlone_iff.1 (ht c (List.mem_cons_self ..))
    exact atQuote_cons hquote hslash (ih fun d hd => ht d (List.mem_cons_of_mem c hd))

/-- **How an element is made**: it is a character that stands for itself, or a backslash, any
character that prints, and characters that stand for themselves. -/
theorem spelling_of_spells {e : Element} {t : Text} (h : Spells e t) :
    (∃ c, t = [c] ∧ standsAlone c = true) ∨
      ∃ c u, t = '\\' :: c :: u ∧ isPrintable c = true ∧ ∀ d ∈ u, standsAlone d = true := by
  cases h with
  | @plain c h => exact .inl ⟨c, rfl, h⟩
  | @named c h =>
    have hprint : escapeNames.all isPrintable = true := by decide
    exact .inr ⟨c, [], rfl, List.all_eq_true.1 hprint c h, fun d hd => by cases hd⟩
  | @code i j k n h =>
    have hdigits : ∀ c ∈ [i, j, k], standsAlone c = true := fun c hc =>
      standsAlone_of_isHexDigit (isHexDigit_of_isDigit (isDigit_of_natural? h c hc))
    have hi := standsAlone_iff.1 (hdigits i (List.mem_cons_self ..))
    exact .inr ⟨i, [j, k], rfl, hi.1, fun d hd => hdigits d (List.mem_cons_of_mem i hd)⟩
  | @codePoint i j k l h =>
    refine .inr ⟨'u', [i, j, k, l], rfl, by decide, fun d hd => ?_⟩
    exact standsAlone_of_isHexDigit (List.all_eq_true.1 h d hd)

theorem atQuote_of_spells {e : Element} {t rest before after : Text} (h : Spells e t)
    (hrest : atQuote rest = some (before, after)) :
    atQuote (t ++ rest) = some (t ++ before, after) := by
  obtain ⟨c, rfl, hc⟩ | ⟨c, u, rfl, -, hu⟩ := spelling_of_spells h
  · exact atQuote_append (fun d hd => by rw [List.mem_singleton.1 hd]; exact hc) hrest
  · exact atQuote_escape (atQuote_append hu hrest)

/-- **The first quote that is not escaped is the one that ends a constant.** -/
theorem atQuote_of_spellsAll {es : List Element} {t : Text} (rest : Text) (h : SpellsAll es t) :
    atQuote (t ++ '\x22' :: rest) = some (t, rest) := by
  induction h with
  | nil => rfl
  | @cons e es t u first _ ih =>
    rw [List.append_assoc]
    exact atQuote_of_spells first ih

/-- **All characters of elements print**, so that no element ends a line. -/
theorem isPrintable_of_spellsAll {es : List Element} {t : Text} (h : SpellsAll es t) :
    ∀ c ∈ t, isPrintable c = true := by
  induction h with
  | nil => intro c hc; cases hc
  | @cons e es t u first _ ih =>
    intro c hc
    rcases List.mem_append.1 hc with hc | hc
    · obtain ⟨d, rfl, hd⟩ | ⟨d, v, rfl, hd, hv⟩ := spelling_of_spells first
      · rw [List.mem_singleton.1 hc]
        exact (standsAlone_iff.1 hd).1
      · rcases List.mem_cons.1 hc with rfl | hc
        · decide
        · rcases List.mem_cons.1 hc with rfl | hc
          · exact hd
          · exact (standsAlone_iff.1 (hv c hc)).1
    · exact ih c hc

/-! ## Elements that are drawn -/

/-- **What is drawn is spelled as the grammar says.** -/
theorem spells_of_drawn {e : Element} (h : e.Drawn) : Spells e e.text := by
  cases e with
  | plain c =>
    have halone : printableChars.all standsAlone = true := by decide +kernel
    exact .plain (List.all_eq_true.1 halone c h)
  | named c =>
    have hnames : (namedEscapes.map (·.2)).all escapeNames.contains = true := by decide +kernel
    exact .named (List.contains_iff_mem.1 (List.all_eq_true.1 hnames c h))
  | code n =>
    have hdigits : ∀ m : Fin 256, Digits.natural? (threeDigits m) = some m.val := by decide +kernel
    exact .code (hdigits n)
  | codePoint digits =>
    obtain ⟨hlength, hmem⟩ := h
    have hhex : hexDigits.all isHexDigit = true := by decide
    have hall : digits.all isHexDigit = true :=
      List.all_eq_true.2 fun d hd => List.all_eq_true.1 hhex d (hmem d hd)
    match digits, hlength, hall with
    | [i, j, k, l], _, hall => exact .codePoint hall

theorem spellsAll_of_drawn {es : List Element} (h : ∀ e ∈ es, e.Drawn) :
    SpellsAll es (es.flatMap Element.text) := by
  induction es with
  | nil => exact .nil
  | cons e es ih =>
    have hrest := ih fun e' he' => h e' (List.mem_cons_of_mem e he')
    exact .cons (spells_of_drawn (h e (List.mem_cons_self ..))) hrest

/-! ## Constants -/

/-- **A text that is read back as elements**: the grammar spells them so and no others, a reader
gets them and stops at the quote whatever follows it, this is the first quote that is not escaped,
and all is on one line. -/
structure ReadsBack (es : List Element) (t : Text) : Prop where
  spelled : SpellsAll es t
  only : ∀ es', SpellsAll es' t → es' = es
  read : ∀ rest, readInside (t ++ '\x22' :: rest) = some (es, rest)
  quote : ∀ rest, atQuote (t ++ '\x22' :: rest) = some (t, rest)
  line : ∀ c ∈ t, isPrintable c = true

theorem SpellsAll.readsBack {es : List Element} {t : Text} (h : SpellsAll es t) :
    ReadsBack es t where
  spelled := h
  only _ h' := h.unique h'
  read rest := readInside_of_spellsAll rest h
  quote rest := atQuote_of_spellsAll rest h
  line := isPrintable_of_spellsAll h

/-- **A string constant** of elements: they stand between two quotes. -/
def IsString (es : List Element) (t : Text) : Prop :=
  ∃ inside, t = '\x22' :: inside ++ ['\x22'] ∧ ReadsBack es inside

/-- **A character constant** of an element, which stands alone between the quotes. -/
def IsCharacter (e : Element) (t : Text) : Prop :=
  ∃ inside, t = '#' :: '\x22' :: inside ++ ['\x22'] ∧ ReadsBack [e] inside

section Draws

variable {σ : Type} [Source σ]

/-- The elements that a string constant is drawn with. -/
def sampleElements : Sampler σ (List Element) := do
  let n ← below 15 (Nat.succ_pos 14)
  times n Element.sample

/-- The element that a character constant is drawn with. -/
def sampleContent : Sampler σ Element := do
  if (← below 5 (Nat.succ_pos 4)).val = 0 then Element.sampleEscape
  else return .plain (← printableChar)

theorem draws_sampleElements : Draws (sampleElements (σ := σ)) fun es =>
    es.length ≤ 14 ∧ ∀ e ∈ es, e.Drawn := by
  refine draws_after fun n => (draws_times draws_sampleElement _).mono fun es hes => ?_
  have hn := n.isLt
  exact ⟨by omega, hes.2⟩

theorem draws_sampleContent : Draws (sampleContent (σ := σ)) Element.Drawn := by
  refine draws_after fun i => draws_ite draws_escape ?_
  exact draws_bind (draws_element printableChars _) fun c hc => draws_pure hc

/-- A string constant is made of the elements that are drawn for it. -/
theorem sampleString_eq :
    Lexeme.sampleString (σ := σ) = Literal.string <$> sampleElements := by
  simp [Lexeme.sampleString, sampleElements]

theorem sampleCharacter_eq :
    Lexeme.sampleCharacter (σ := σ) = Literal.character <$> sampleContent := by
  simp only [Lexeme.sampleCharacter, sampleContent, map_bind, Fin.val_eq_zero_iff]
  refine bind_congr fun i => ?_
  split <;> simp

end Draws

theorem isString_of_drawn {es : List Element} (h : ∀ e ∈ es, e.Drawn) :
    IsString es (Literal.string es) :=
  ⟨_, rfl, (spellsAll_of_drawn h).readsBack⟩

theorem isCharacter_of_drawn {e : Element} (h : e.Drawn) : IsCharacter e (Literal.character e) := by
  have hall : ∀ e' ∈ [e], e'.Drawn := fun e' he' => by rw [List.mem_singleton.1 he']; exact h
  have hback := (spellsAll_of_drawn hall).readsBack
  rw [List.flatMap_singleton] at hback
  exact ⟨_, rfl, hback⟩

variable {σ : Type} [Source σ]

/-- **Constants in quotes are read back as the elements that were drawn.** A string constant is made
of the at most fourteen elements that its run draws, and a character constant of the one. From their
text the elements are read off again, in one way only, and what is read ends with the constant. No
run fails but for want of patience. -/
theorem quoted_read_back :
    (∀ c : Context σ, (lexeme .string).sample c = (Literal.string <$> sampleElements) c) ∧
    (∀ c : Context σ, (lexeme .character).sample c = (Literal.character <$> sampleContent) c) ∧
    Draws (sampleElements (σ := σ)) (fun es => es.length ≤ 14 ∧ IsString es (Literal.string es)) ∧
    Draws (sampleContent (σ := σ)) (fun e => IsCharacter e (Literal.character e)) ∧
    AlwaysYields σ (lexeme .string) (fun t => ∃ es, es.length ≤ 14 ∧ IsString es t) ∧
    AlwaysYields σ (lexeme .character) (fun t => ∃ e, IsCharacter e t) := by
  refine ⟨fun c => ?_, fun c => ?_, ?_, ?_, ?_, ?_⟩
  · rw [sample_lexeme, ← sampleString_eq]
    rfl
  · rw [sample_lexeme, ← sampleCharacter_eq]
    rfl
  · exact draws_sampleElements.mono fun es hes => ⟨hes.1, isString_of_drawn hes.2⟩
  · exact draws_sampleContent.mono fun e => isCharacter_of_drawn
  · refine alwaysYields_of_draws (Gen.wellFormed_of_all (by decide +kernel)) fun fuel => ?_
    refine (draws_lexeme fuel .string).mono fun t ht => ?_
    cases ht with
    | @string es short drawn => exact ⟨es, by omega, isString_of_drawn drawn⟩
  · refine alwaysYields_of_draws (Gen.wellFormed_of_all (by decide +kernel)) fun fuel => ?_
    refine (draws_lexeme fuel .character).mono fun t ht => ?_
    cases ht with
    | @character e drawn => exact ⟨e, isCharacter_of_drawn drawn⟩

end Literal

end SmlSynth
