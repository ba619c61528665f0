import SmlSynth.Proofs.Combinators

/-!
# The forms of lexemes

* `Sampler.Draws`: every value that a sampler draws has a property; one lemma for each draw.
* `Identifier`, `Spell`, `Numeral`: the words and numbers that lexemes are put together from.
* `Literal.Element.Drawn`: the elements that occur in string and character constants.
* `Lexeme.Form`: what the lexemes of a kind look like.
* `Lexeme.draws_form`: every lexeme that is drawn has a form of its kind.
* `Phrase.run_lexeme`, `Phrase.sample_lexeme`: the phrase of a lexeme draws it and does nothing else.
-/

namespace SmlSynth

namespace Sampler

variable {σ α β : Type} {P P' : α → Prop} {Q : β → Prop}

/-- **All that a sampler draws** has a property. -/
def Draws (s : Sampler σ α) (P : α → Prop) : Prop := ∀ c a, (s c).1 = .ok a → P a

theorem Draws.mono {s : Sampler σ α} (h : Draws s P) (hP : ∀ a, P a → P' a) : Draws s P' :=
  fun c a ha => hP a (h c a ha)

theorem draws_pure {a : α} (h : P a) : Draws (pure a : Sampler σ α) P := by
  intro c b hb
  obtain rfl : a = b := Except.ok.inj hb
  exact h

theorem draws_bind {s : Sampler σ α} {f : α → Sampler σ β} (hs : Draws s P)
    (hf : ∀ a, P a → Draws (f a) Q) : Draws (s >>= f) Q := by
  intro c b hb
  obtain ⟨a, ha, hb⟩ := of_bind_ok hb
  exact hf a (hs c a ha) _ b hb

/-- Nothing needs to be known of a first step that only decides how to go on. -/
theorem draws_after {s : Sampler σ α} {f : α → Sampler σ β} (hf : ∀ a, Draws (f a) Q) :
    Draws (s >>= f) Q :=
  draws_bind (P := fun _ => True) (fun _ _ _ => trivial) fun a _ => hf a

theorem draws_ite {p : Prop} [Decidable p] {s s' : Sampler σ α} (h : Draws s P) (h' : Draws s' P) :
    Draws (if p then s else s') P := by
  split
  · exact h
  · exact h'

theorem draws_times {draw : Sampler σ α} (h : Draws draw P) :
    ∀ n, Draws (times n draw) fun as => as.length = n ∧ ∀ a ∈ as, P a
  | 0 => draws_pure ⟨rfl, fun a ha => by cases ha⟩
  | n + 1 => by
    refine draws_bind h fun a ha => draws_bind (draws_times h n) fun as has => draws_pure ?_
    refine ⟨by rw [List.length_cons, has.1], fun b hb => ?_⟩
    rcases List.mem_cons.1 hb with rfl | hb
    · exact ha
    · exact has.2 b hb

theorem draws_redraw {draw : Sampler σ α} (h : Draws draw P) (accept : α → Bool) :
    ∀ tries, Draws (redraw draw accept tries) fun a => P a ∧ accept a = true
  | 0 => by intro c a ha; cases ha
  | tries + 1 => by
    refine draws_bind h fun a ha => ?_
    split
    · exact draws_pure ⟨ha, ‹_›⟩
    · exact draws_redraw h accept tries

/-- **What is drawn until it is accepted** is accepted. -/
theorem draws_redrawing {draw : Sampler σ α} (h : Draws draw P) (accept : α → Bool) :
    Draws (redrawing draw accept) fun a => P a ∧ accept a = true := fun c a ha =>
  draws_redraw h accept (c.patience + 1) c a ha

variable [Source σ]

/-- One of the elements of a list is drawn. -/
theorem draws_element (items : List α) (hpos : 0 < items.length) :
    Draws (element (σ := σ) items hpos) (· ∈ items) := fun _ _ h => element_ok h

theorem draws_upTo (low high : Nat) :
    Draws (upTo (σ := σ) low high) fun n => low ≤ n ∧ n ≤ max low high := fun _ _ h => upTo_ok h

end Sampler

open Sampler

/-! ## Words and numbers -/

/-- The letters of both cases. -/
def letters : List Char := lowerLetters ++ upperLetters

/-- The characters of identifiers. -/
def identifierChars : List Char := letters ++ decimalDigits ++ ['_', '\x27']

/-- **An identifier**: a character of an alphabet, and at most `n` identifier characters. -/
inductive Identifier (first : List Char) (n : Nat) : Text → Prop where
  | mk {c : Char} {rest : Text} (head : c ∈ first) (tail : ∀ d ∈ rest, d ∈ identifierChars)
    (short : rest.length ≤ n) : Identifier first n (c :: rest)

/-- **A spelling**: at least one and at most `n` characters of an alphabet. -/
structure Spell (alphabet : List Char) (n : Nat) (t : Text) : Prop where
  nonempty : t ≠ []
  short : t.length ≤ n
  chars : ∀ c ∈ t, c ∈ alphabet

/-- **A numeral**: at most `n` decimal digits, the first of which is no zero unless it is the only
one. -/
structure Numeral (n : Nat) (t : Text) : Prop extends Spell decimalDigits n t where
  leading : 1 < t.length → t.head? ≠ some '0'

/-- The fraction of a real constant. -/
inductive Fraction : Text → Prop where
  | mk {digits : Text} (h : Spell decimalDigits 3 digits) : Fraction ('.' :: digits)

/-- The exponent of a real constant. -/
inductive Exponent : Text → Prop where
  | mk {mark : Char} (negative : Bool) {digits : Text} (hmark : mark = 'e' ∨ mark = 'E')
    (h : Spell decimalDigits 2 digits) : Exponent (mark :: Lexeme.sign negative ++ digits)

/-- **The elements that are drawn** for constants: printable characters, the named escapes of the
table, codes, and code points of four digits. -/
def Literal.Element.Drawn : Literal.Element → Prop
  | .plain c => c ∈ printableChars
  | .named c => c ∈ namedEscapes.map (·.2)
  | .code _ => True
  | .codePoint digits => digits.length = 4 ∧ ∀ d ∈ digits, d ∈ hexDigits

/-! ## Lexemes -/

/-- **The forms of the lexemes of each kind.** -/
inductive Lexeme.Form : Lexeme → Text → Prop where
  | comment {body : Text} (short : body.length < 20) (latin : ∀ c ∈ body, c ∈ latinChars) :
    Form .comment (Comment.enclose body)
  | identifier {t : Text} (h : Identifier letters 10 t) : Form .identifier t
  | shortIdentifier {t : Text} (h : Identifier lowerLetters 2 t) : Form .shortIdentifier t
  | symbolic {t : Text} (h : Spell symbolicChars 3 t) (free : isSymbolicReserved t = false) :
    Form .symbolic t
  | name {t : Text} (h : Identifier lowerLetters 2 t) (free : isCoreReserved t = false)
    (free' : isModuleReserved t = false) : Form .name t
  /-- What is reserved in the module language is marked. -/
  | markedName {t : Text} (h : Identifier lowerLetters 2 t) (marked : isModuleReserved t = true) :
    Form .name (t ++ ['_'])
  | capitalName {t : Text} (h : Identifier upperLetters 4 t) : Form .capitalName t
  | numericLabel {n : Nat} (pos : 1 ≤ n) (le : n ≤ 10) : Form .numericLabel (Nat.toDigits 10 n)
  | precedence {d : Char} (h : d ∈ decimalDigits) : Form .precedence [d]
  | decimalInt (negative : Bool) {t : Text} (h : Numeral 5 t) :
    Form .decimalInt (Lexeme.sign negative ++ t)
  | hexInt (negative : Bool) {t : Text} (h : Spell hexDigits 4 t) :
    Form .hexInt (Lexeme.sign negative ++ '0' :: 'x' :: t)
  | hexWord {t : Text} (h : Spell hexDigits 4 t) : Form .word ('0' :: 'w' :: 'x' :: t)
  | decimalWord {t : Text} (h : Spell decimalDigits 4 t) : Form .word ('0' :: 'w' :: t)
  /-- A real constant has a fraction or an exponent. -/
  | real (negative : Bool) {whole fraction exponent : Text} (h : Numeral 4 whole)
    (hfraction : fraction = [] ∨ Fraction fraction) (hexponent : exponent = [] ∨ Exponent exponent)
    (some : fraction ≠ [] ∨ exponent ≠ []) :
    Form .real (Lexeme.sign negative ++ whole ++ fraction ++ exponent)
  | string {elements : List Literal.Element} (short : elements.length < 15)
    (drawn : ∀ e ∈ elements, e.Drawn) : Form .string (Literal.string elements)
  | character {e : Literal.Element} (drawn : e.Drawn) : Form .character (Literal.character e)

/-! ## Draws of their parts -/

section Parts

variable {σ : Type} [Source σ]

theorem draws_letter : Draws (letter (σ := σ)) (· ∈ letters) :=
  draws_after fun _ => draws_ite
    ((draws_element lowerLetters _).mono fun _ => List.mem_append_left _)
    ((draws_element upperLetters _).mono fun _ => List.mem_append_right _)

theorem draws_identifierChar : Draws (identifierChar (σ := σ)) (· ∈ identifierChars) := by
  have hletter : ∀ c ∈ letters, c ∈ identifierChars := fun _ hc =>
    List.mem_append_left _ (List.mem_append_left _ hc)
  have hdigit : ∀ c ∈ decimalDigits, c ∈ identifierChars := fun _ hc =>
    List.mem_append_left _ (List.mem_append_right _ hc)
  refine draws_after fun roll => draws_ite (draws_letter.mono hletter) ?_
  refine draws_ite ((draws_element decimalDigits _).mono hdigit) ?_
  exact draws_ite (draws_pure (by decide)) (draws_pure (by decide))

/-- A count from one on. -/
theorem draws_count {n : Nat} (hn : 1 ≤ n) :
    Draws (upTo (σ := σ) 1 n) fun k => 1 ≤ k ∧ k ≤ n :=
  (draws_upTo 1 n).mono fun k hk => by omega

omit [Source σ] in
/-- As many characters of an alphabet as are asked for. -/
theorem draws_spell {alphabet : List Char} {draw : Sampler σ Char} (h : Draws draw (· ∈ alphabet))
    {n k : Nat} (hk : 1 ≤ k ∧ k ≤ n) : Draws (times k draw) (Spell alphabet n) := by
  refine (draws_times h k).mono fun t ht => ⟨fun he => ?_, by omega, ht.2⟩
  have hlen := ht.1
  rw [he, List.length_nil] at hlen
  omega

theorem draws_numeral {n k : Nat} (hk : 1 ≤ k ∧ k ≤ n) :
    Draws (naturalDigits (σ := σ) k) (Numeral n) := by
  have hdigit : Draws (digit (σ := σ)) (· ∈ decimalDigits) := draws_element _ _
  unfold naturalDigits
  split
  · refine draws_bind hdigit fun c hc => draws_pure ?_
    refine ⟨⟨List.cons_ne_nil _ _, ?_, fun d hd => ?_⟩, fun h => absurd h (Nat.lt_irrefl 1)⟩
    · show 1 ≤ n; omega
    · rw [List.mem_singleton.1 hd]; exact hc
  · have hfirst : Draws (nonzeroDigit (σ := σ)) (· ∈ nonzeroDigits) := draws_element _ _
    have hdecimal : nonzeroDigits ⊆ decimalDigits := by decide
    have hnonzero : '0' ∉ nonzeroDigits := by decide
    refine draws_bind hfirst fun c hc => draws_bind (draws_times hdigit _) fun rest hrest => ?_
    refine draws_pure ⟨⟨List.cons_ne_nil _ _, ?_, fun d hd => ?_⟩, fun _ hz => ?_⟩
    · rw [List.length_cons, hrest.1]; omega
    · rcases List.mem_cons.1 hd with rfl | hd
      · exact hdecimal hc
      · exact hrest.2 d hd
    · exact hnonzero (Option.some.inj hz ▸ hc)

theorem draws_sampleIdentifier {first : Sampler σ Char} {alphabet : List Char}
    (h : Draws first (· ∈ alphabet)) (n : Nat) :
    Draws (Lexeme.sampleIdentifier first (n + 1) (Nat.succ_pos n)) (Identifier alphabet n) := by
  refine draws_bind h fun c hc => draws_after fun k => ?_
  refine draws_bind (draws_times draws_identifierChar _) fun rest hrest => draws_pure ?_
  exact ⟨hc, hrest.2, by have := k.isLt; omega⟩

theorem draws_escape :
    Draws (Literal.Element.sampleEscape (σ := σ)) Literal.Element.Drawn := by
  refine draws_after fun roll => ?_
  split
  · rename_i weight c hmatch
    -- a named escape stands in the table
    obtain ⟨i, -, hi⟩ := Option.bind_eq_some_iff.1 hmatch
    exact draws_pure (List.mem_map_of_mem (List.mem_of_getElem? hi))
  · refine draws_after fun b => draws_ite (draws_after fun n => draws_pure trivial) ?_
    exact draws_bind (draws_times (draws_element hexDigits _) 4) fun digits hdigits =>
      draws_pure hdigits

theorem draws_sampleElement :
    Draws (Literal.Element.sample (σ := σ)) Literal.Element.Drawn := by
  refine draws_after fun b => draws_ite ?_ draws_escape
  exact draws_bind (draws_element printableChars _) fun c hc => draws_pure hc

end Parts

/-! ## Draws of lexemes -/

namespace Lexeme

variable {σ : Type} [Source σ]

theorem draws_sampleShort : Draws (sampleShort (σ := σ)) (Identifier lowerLetters 2) :=
  draws_sampleIdentifier (draws_element lowerLetters _) 2

theorem draws_sampleName : Draws (sampleName (σ := σ)) (Form .name) := by
  refine draws_bind (draws_redrawing draws_sampleShort _) fun t ht => draws_pure ?_
  obtain ⟨hid, hfree⟩ := ht
  rw [Bool.not_eq_true'] at hfree
  split
  · exact .markedName hid ‹_›
  · exact .name hid hfree (Bool.eq_false_iff.2 ‹_›)

theorem draws_sampleFraction : Draws (sampleFraction (σ := σ)) Fraction := by
  refine draws_bind (draws_count (by decide)) fun k hk => ?_
  refine draws_bind (draws_spell (draws_element _ _) hk) fun digits hdigits => ?_
  exact draws_pure (.mk hdigits)

theorem draws_sampleExponent : Draws (sampleExponent (σ := σ)) Exponent := by
  refine draws_after fun upper => draws_after fun negative => ?_
  refine draws_bind (draws_count (by decide)) fun k hk => ?_
  refine draws_bind (draws_spell (draws_element _ _) hk) fun digits hdigits => draws_pure ?_
  refine .mk negative ?_ hdigits
  cases upper
  · exact .inr rfl
  · exact .inl rfl

omit [Source σ] in
theorem draws_samplePart {P : Text → Prop} (wanted : Bool) {part : Sampler σ Text}
    (h : Draws part P) :
    Draws (samplePart wanted part) fun t => if wanted then P t else t = [] := by
  cases wanted with
  | false => exact draws_pure rfl
  | true => exact h

theorem draws_sampleReal : Draws (sampleReal (σ := σ)) (Form .real) := by
  refine draws_after fun negative => draws_bind (draws_count (by decide)) fun k hk => ?_
  refine draws_bind (draws_numeral hk) fun whole hwhole => ?_
  refine draws_after fun hasFraction => draws_after fun hasExponent => ?_
  refine draws_bind (draws_samplePart hasFraction draws_sampleFraction) fun fraction hfraction => ?_
  refine draws_bind (draws_samplePart hasExponent draws_sampleExponent) fun exponent hexponent => ?_
  refine draws_pure ?_
  have hne : ∀ {f : Text}, Fraction f → f ≠ [] := fun hf => by cases hf; exact List.cons_ne_nil _ _
  have hne' : ∀ {e : Text}, Exponent e → e ≠ [] := fun he => by cases he; exact List.cons_ne_nil _ _
  cases hasFraction with
  | true =>
    have hform : Form .real (sign negative ++ whole ++ fraction ++ exponent) := by
      refine .real negative hwhole (.inr hfraction) ?_ (.inl (hne hfraction))
      cases hasExponent
      · exact .inl hexponent
      · exact .inr hexponent
    simpa using hform
  | false =>
    obtain rfl : fraction = [] := hfraction
    cases hasExponent with
    | true =>
      have hform := Form.real negative hwhole (.inl rfl) (.inr hexponent) (.inr (hne' hexponent))
      simpa using hform
    | false =>
      -- a constant with neither part is given a fraction
      obtain rfl : exponent = [] := hexponent
      have hdigit : ['0'] ⊆ decimalDigits := by decide
      have hzero : Fraction ['.', '0'] :=
        .mk ⟨List.cons_ne_nil _ _, by decide, fun _ hc => hdigit hc⟩
      have hform := Form.real negative hwhole (.inr hzero) (.inl rfl) (.inl (hne hzero))
      simpa using hform

/-- **Every lexeme that is drawn has a form of its kind.** -/
theorem draws_form (l : Lexeme) : Draws (l.sample (σ := σ)) (Form l) := by
  cases l with
  | comment =>
    refine draws_after fun n => draws_bind (draws_times (draws_element _ _) _) fun t ht => ?_
    exact draws_pure (.comment (by have := n.isLt; omega) ht.2)
  | identifier => exact (draws_sampleIdentifier draws_letter 10).mono fun _ => .identifier
  | shortIdentifier => exact draws_sampleShort.mono fun _ => .shortIdentifier
  | symbolic =>
    have hdraw : Draws (σ := σ) (do times (← upTo 1 3) symbolicChar) (Spell symbolicChars 3) :=
      draws_bind (draws_count (by decide)) fun k hk => draws_spell (draws_element _ _) hk
    refine (draws_redrawing hdraw _).mono fun t ht => .symbolic ht.1 ?_
    simpa using ht.2
  | name => exact draws_sampleName
  | capitalName =>
    exact (draws_sampleIdentifier (draws_element _ _) 4).mono fun _ => .capitalName
  | numericLabel =>
    exact draws_bind (draws_count (by decide)) fun n hn => draws_pure (.numericLabel hn.1 hn.2)
  | precedence => exact draws_bind (draws_element _ _) fun d hd => draws_pure (.precedence hd)
  | decimalInt =>
    refine draws_after fun negative => draws_bind (draws_count (by decide)) fun k hk => ?_
    exact draws_bind (draws_numeral hk) fun t ht => draws_pure (.decimalInt negative ht)
  | hexInt =>
    refine draws_after fun negative => draws_bind (draws_count (by decide)) fun k hk => ?_
    refine draws_bind (draws_spell (draws_element _ _) hk) fun t ht => ?_
    exact draws_pure (.hexInt negative ht)
  | word =>
    refine draws_after fun hex => draws_bind (draws_count (by decide)) fun k hk => draws_ite ?_ ?_
    · refine draws_bind (draws_spell (draws_element _ _) hk) fun t ht => ?_
      exact draws_pure (.hexWord ht)
    · refine draws_bind (draws_spell (draws_element _ _) hk) fun t ht => ?_
      exact draws_pure (.decimalWord ht)
  | real => exact draws_sampleReal
  | string =>
    refine draws_after fun n => draws_bind (draws_times draws_sampleElement _) fun es hes => ?_
    exact draws_pure (.string (by have := n.isLt; omega) hes.2)
  | character =>
    refine draws_after fun i => draws_ite ?_ ?_
    · exact draws_bind draws_escape fun e he => draws_pure (.character he)
    · refine draws_bind (draws_element printableChars _) fun c hc => draws_pure (.character ?_)
      exact hc

end Lexeme

namespace Phrase

variable {σ : Type} [Source σ]

/-- The phrase of a lexeme needs no fuel. -/
theorem run_lexeme (l : Lexeme) (fuel : Nat) :
    (lexeme l).run ((sml (σ := σ)).call fuel) = l.sample := by
  cases fuel <;> rfl

theorem sample_lexeme (l : Lexeme) : (lexeme l).sample (σ := σ) = l.sample := by
  funext c
  rw [sample, run_lexeme]

end Phrase

end SmlSynth
