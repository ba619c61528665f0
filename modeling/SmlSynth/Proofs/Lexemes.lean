import SmlSynth.Proofs.Comments
import SmlSynth.Proofs.Forms

/-!
# How a scan reads lexemes

* `Inert`, `Word`: texts of characters that a scan passes without a change.
* `Literal.hidden_drawn`: a scan of a string constant sees nothing of its elements in the program.
* `Lexeme.Spelled`, `Lexeme.draws_spelled`: how a scan reads the lexemes of a kind.
* `Lexeme.marks_quoted`, `Lexeme.marks_unquoted`: what it sees of them in the program.
-/

namespace SmlSynth

open Sampler

/-! ## Inert texts -/

/-- **A character that a scan passes in the program** and in a string constant: no quote, backslash,
bracket or star. -/
def inert (c : Char) : Bool := Scan.plain c && c != '*' && c != '\\'

/-- Any number of inert characters. -/
def Inert (t : Text) : Prop := ∀ c ∈ t, inert c = true

-- Over the members: an instance that is looked up may go through all characters.
instance (t : Text) : Decidable (Inert t) := List.decidableBAll (inert · = true) t

theorem Inert.append {t u : Text} (ht : Inert t) (hu : Inert u) : Inert (t ++ u) := by
  intro c hc
  rcases List.mem_append.1 hc with hc | hc
  · exact ht c hc
  · exact hu c hc

/-- **A word**: one or more inert characters. -/
structure Word (t : Text) : Prop where
  nonempty : t ≠ []
  chars : Inert t

namespace Word

theorem append {t u : Text} (ht : Word t) (hu : Inert u) : Word (t ++ u) :=
  ⟨by simp [ht.nonempty], ht.chars.append hu⟩

theorem prepend {t u : Text} (ht : Inert t) (hu : Word u) : Word (t ++ u) :=
  ⟨by simp [hu.nonempty], ht.append hu.chars⟩

theorem cons {c : Char} {t : Text} (hc : inert c = true) (ht : Inert t) : Word (c :: t) := by
  have hone : Word [c] := ⟨List.cons_ne_nil c [], fun d hd => by rw [List.mem_singleton.1 hd, hc]⟩
  exact hone.append ht

end Word

theorem Inert.of_spell {alphabet : List Char} {n : Nat} {t : Text} (ha : Inert alphabet)
    (h : Spell alphabet n t) : Inert t := fun c hc => ha c (h.chars c hc)

theorem inert_identifierChars : Inert identifierChars := by decide

theorem Word.of_identifier {first : List Char} {n : Nat} {t : Text} (hfirst : Inert first)
    (h : Identifier first n t) : Word t := by
  cases h with
  | mk head tail short => exact .cons (hfirst _ head) fun d hd => inert_identifierChars d (tail d hd)

theorem Word.of_numeral {n : Nat} {t : Text} (h : Numeral n t) : Word t :=
  ⟨h.nonempty, .of_spell (by decide) h.toSpell⟩

/-! ## Elements of constants -/

namespace Literal

open Scan

theorem hidden_inert {t : Text} (h : Inert t) : Hidden t := by
  induction t with
  | nil => exact hidden_nil
  | cons c rest ih =>
    have hc := h c (List.mem_cons_self ..)
    unfold inert plain at hc
    simp only [Bool.and_eq_true, bne_iff_ne] at hc
    exact (hidden_char hc.1.1.1.1 hc.2).append (ih fun d hd => h d (List.mem_cons_of_mem _ hd))

theorem hidden_code (n : Fin 256) : Hidden (Element.code n).text := by
  have hfirst : isWhiteSpace (Nat.digitChar (n / 100)) = false := by
    revert n; decide +kernel
  have hrest : Inert [Nat.digitChar (n / 10 % 10), Nat.digitChar (n % 10)] := by
    revert n; decide +kernel
  exact (hidden_escape hfirst).append (hidden_inert hrest)

/-- **A scan sees nothing of the elements of constants in the program.** -/
theorem hidden_drawn {e : Element} (h : e.Drawn) : Hidden e.text := by
  cases e with
  | plain c =>
    have hne := (List.mem_filter.1 h).2
    simp only [Bool.and_eq_true, bne_iff_ne] at hne
    exact hidden_char hne.1 hne.2
  | named c =>
    have hnamed : (namedEscapes.map (·.2)).any isWhiteSpace = false := by decide +kernel
    exact hidden_escape (Bool.eq_false_iff.2 (List.any_eq_false.1 hnamed c h))
  | code n => exact hidden_code n
  | codePoint digits =>
    have hescape : Hidden ['\\', 'u'] := hidden_escape (by decide)
    have hhex : Inert hexDigits := by decide
    exact hescape.append (hidden_inert fun d hd => hhex d (h.2 d hd))

theorem hidden_elements {elements : List Element} (h : ∀ e ∈ elements, e.Drawn) :
    Hidden (elements.flatMap Element.text) := by
  refine hidden_flatten fun t ht => ?_
  obtain ⟨e, he, rfl⟩ := List.mem_map.1 ht
  exact hidden_drawn (h e he)

end Literal

/-! ## Lexemes -/

namespace Lexeme

open Scan

/-- **How a scan reads a lexeme**: it is clean, and only a comment is a comment found in it; it is
not empty; and it has a star at an end only if it is symbolic. -/
structure Spelled (l : Lexeme) (t : Text) : Prop where
  clean : Clean t (if l = .comment then [t] else [])
  nonempty : t ≠ []
  first : t.head? = some '*' → l = .symbolic
  last : t.getLast? = some '*' → l = .symbolic

theorem spelled_of_word {l : Lexeme} {t : Text} (h : Word t) (hl : l ≠ .comment) : Spelled l t := by
  have hinert : ∀ c ∈ t, plain c = true ∧ c ≠ '*' := by
    intro c hc
    have hi := h.chars c hc
    unfold inert at hi
    simp only [Bool.and_eq_true, bne_iff_ne] at hi
    exact hi.1
  refine ⟨?_, h.nonempty, fun hf => ?_, fun hf => ?_⟩
  · rw [if_neg hl]; exact clean_of_plain fun c hc => (hinert c hc).1
  · exact absurd rfl (hinert '*' (List.mem_of_mem_head? hf)).2
  · exact absurd rfl (hinert '*' (List.mem_of_mem_getLast? hf)).2

theorem spelled_comment (body : Text) : Spelled .comment (Comment.enclose body) := by
  refine ⟨Comment.clean_enclose body, by simp [Comment.enclose], fun h => ?_, fun h => ?_⟩
  · cases h
  · unfold Comment.enclose at h; rw [List.getLast?_append] at h; cases h

theorem spelled_string {elements : List Literal.Element} (h : ∀ e ∈ elements, e.Drawn) :
    Spelled .string (Literal.string elements) := by
  refine ⟨clean_string (Literal.hidden_elements h).part, by simp [Literal.string], fun h => ?_,
    fun h => ?_⟩
  · cases h
  · unfold Literal.string at h; rw [List.getLast?_append] at h; cases h

theorem spelled_character {e : Literal.Element} (h : e.Drawn) :
    Spelled .character (Literal.character e) := by
  have hclean : Clean (['#'] ++ ('\x22' :: e.text ++ ['\x22'])) [] :=
    (clean_char (by decide)).append (clean_string (Literal.hidden_drawn h).part)
  refine ⟨hclean, by simp [Literal.character], fun h => ?_, fun h => ?_⟩
  · cases h
  · unfold Literal.character at h; rw [List.getLast?_append] at h; cases h

theorem spelled_symbolic {t : Text} (hne : t ≠ []) (h : ∀ c ∈ t, plain c = true) :
    Spelled .symbolic t :=
  ⟨clean_of_plain h, hne, fun _ => rfl, fun _ => rfl⟩

theorem sign_inert (negative : Bool) : Inert (sign negative) := by
  cases negative <;> decide

theorem inert_fraction {t : Text} (h : t = [] ∨ Fraction t) : Inert t := by
  rcases h with rfl | hfraction
  · decide
  · cases hfraction with
    | mk h => exact (Word.cons (by decide) (.of_spell (by decide) h)).chars

theorem inert_exponent {t : Text} (h : t = [] ∨ Exponent t) : Inert t := by
  rcases h with rfl | ⟨negative, hmark, h⟩
  · decide
  · have hinert : ∀ c, c = 'e' ∨ c = 'E' → inert c = true := by rintro c (rfl | rfl) <;> decide
    exact (Word.cons (hinert _ hmark) ((sign_inert negative).append (.of_spell (by decide) h))).chars

/-- The kinds of lexemes that are not words. -/
def wordless : Lexeme → Bool
  | .comment | .symbolic | .string | .character => true
  | _ => false

/-- A lexeme of any other kind is a word. -/
theorem word_of_form {l : Lexeme} {t : Text} (h : Form l t) (hl : l.wordless = false) : Word t := by
  cases h with
  | comment => cases hl
  | symbolic => cases hl
  | string => cases hl
  | character => cases hl
  | identifier h => exact .of_identifier (by decide) h
  | shortIdentifier h => exact .of_identifier (by decide) h
  | name h => exact .of_identifier (by decide) h
  | markedName h => exact (Word.of_identifier (by decide) h).append (by decide)
  | capitalName h => exact .of_identifier (by decide) h
  | @numericLabel n pos le =>
    -- there are eleven numbers at most, so each is looked at
    have hdigits : ∀ n ≤ 10, Nat.toDigits 10 n ≠ [] ∧ Inert (Nat.toDigits 10 n) := by decide
    obtain ⟨hne, hinert⟩ := hdigits n le
    exact ⟨hne, hinert⟩
  | @precedence d h =>
    have hdigits : Inert decimalDigits := by decide
    exact Word.cons (hdigits d h) fun c hc => by cases hc
  | decimalInt negative h => exact Word.prepend (sign_inert negative) (.of_numeral h)
  | hexInt negative h =>
    refine Word.prepend (sign_inert negative) (Word.prepend (t := ['0']) (by decide) ?_)
    exact Word.cons (by decide) (.of_spell (by decide) h)
  | hexWord h =>
    exact Word.prepend (t := ['0', 'w']) (by decide) (Word.cons (by decide) (.of_spell (by decide) h))
  | decimalWord h =>
    exact Word.prepend (t := ['0']) (by decide) (Word.cons (by decide) (.of_spell (by decide) h))
  | real negative h hfraction hexponent =>
    have hwhole := Word.prepend (sign_inert negative) (.of_numeral h)
    exact (hwhole.append (inert_fraction hfraction)).append (inert_exponent hexponent)

/-- **A lexeme of each form is spelled so that a scan can read it.** -/
theorem spelled_of_form {l : Lexeme} {t : Text} (h : Form l t) : Spelled l t := by
  cases hl : l.wordless with
  | false => exact spelled_of_word (word_of_form h hl) (by rintro rfl; cases hl)
  | true =>
    cases h with
    | comment => exact spelled_comment _
    | symbolic h =>
      have hplain : symbolicChars.all plain = true := by decide
      exact spelled_symbolic h.nonempty fun c hc => List.all_eq_true.1 hplain c (h.chars c hc)
    | string _ drawn => exact spelled_string drawn
    | character drawn => exact spelled_character drawn
    | _ => cases hl

/-! ### What is seen of lexemes -/

/-- What stands in the program of constants in quotes and of comments. All of a lexeme of another
kind does. -/
def quote? : Lexeme → Option Text
  | .comment => some ['(']
  | .string => some ['\x22']
  | .character => some ['#', '\x22']
  | _ => none

/-- **Of constants in quotes and of comments only the start is seen in the program.** -/
theorem marks_quoted {l : Lexeme} {t first : Text} (h : Form l t) (hl : l.quote? = some first) :
    ∃ rest : Text, marks {} t = first.map .bare ++ rest.map .hidden := by
  cases h with
  | @comment body =>
    rw [← Option.some.inj hl]
    exact ⟨_, Comment.marks_enclose body⟩
  | string _ drawn =>
    rw [← Option.some.inj hl]
    exact ⟨_, marks_string (Literal.hidden_elements drawn)⟩
  | @character e drawn =>
    rw [← Option.some.inj hl]
    have hclean := clean_string (Literal.hidden_drawn drawn).part
    have happend := (clean_char (c := '#') (by decide)).marks_append hclean
    rw [marks_string (Literal.hidden_drawn drawn)] at happend
    exact ⟨_, happend⟩
  | _ => cases hl

/-- **All of a lexeme of another kind is seen.** -/
theorem marks_unquoted {l : Lexeme} {t : Text} (h : Form l t) (hl : l.quote? = none) :
    marks {} t = t.map .bare := by
  refine marks_plain ?_
  cases hw : l.wordless with
  | false =>
    intro c hc
    have hi := (word_of_form h hw).chars c hc
    unfold inert at hi
    simp only [Bool.and_eq_true] at hi
    exact hi.1.1
  | true =>
    cases h with
    | symbolic h =>
      have hplain : symbolicChars.all plain = true := by decide
      exact fun c hc => List.all_eq_true.1 hplain c (h.chars c hc)
    | comment => cases hl
    | string => cases hl
    | character => cases hl
    | _ => cases hw

variable {σ : Type} [Source σ]

/-- **Lexemes are spelled so that a scan can read them.** -/
theorem draws_spelled (l : Lexeme) : Draws (l.sample (σ := σ)) (Spelled l) :=
  (draws_form l).mono fun _ => spelled_of_form

end Lexeme

end SmlSynth
