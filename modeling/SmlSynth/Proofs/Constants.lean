import SmlSynth.Proofs.Literals

/-!
# The kinds of constants

The kind of a constant can be read off its text: the first character tells strings, characters and
numbers apart, the mark after a zero tells hexadecimal integers and words, and a point or an
exponent tells reals from integers. A hexadecimal integer may have an `e` among its digits, so the
mark is looked at first.

* `Constant.IsToken`: the token grammar of each kind of constant.
* `Constant.kind`: the kind that is read off a text; `Constant.kind_of_isToken`: it is the right
  one, so that no text is of two kinds.
* `Constant.yields_token`: each lexeme yields tokens of its kind.
* `Constant.constants_classified`: so do the phrases for constants, and those for patterns never
  yield a real.
-/

namespace SmlSynth

open Sampler Phrase

namespace Constant

/-! ## The grammar of tokens -/

/-- **The kinds of constants.** -/
inductive Kind where
  | decimal
  | hexadecimal
  | word
  | real
  | string
  | character
deriving Repr, DecidableEq

/-- **Figures**: one or more digits, of some base. -/
structure Figures (isDigit : Char → Bool) (t : Text) : Prop where
  nonempty : t ≠ []
  all : ∀ c ∈ t, isDigit c = true

/-- **A natural number** in decimal: any one digit, or digits that do not start with a zero. -/
inductive Natural : Text → Prop where
  | digit {d : Char} (h : d.isDigit = true) : Natural [d]
  | digits {d : Char} {rest : Text} (h : d.isDigit = true) (nonzero : d ≠ '0')
    (hrest : ∀ c ∈ rest, c.isDigit = true) : Natural (d :: rest)

/-- A sign or nothing. -/
inductive Sign : Text → Prop where
  | none : Sign []
  | minus : Sign ['~']

/-- A point and digits. -/
inductive FractionPart : Text → Prop where
  | mk {digits : Text} (h : Figures Char.isDigit digits) : FractionPart ('.' :: digits)

/-- A letter of either case, a sign and digits. -/
inductive ExponentPart : Text → Prop where
  | mk {mark : Char} {sign digits : Text} (hmark : mark = 'e' ∨ mark = 'E') (hsign : Sign sign)
    (h : Figures Char.isDigit digits) : ExponentPart (mark :: sign ++ digits)

/-- **The token grammar of each kind of constant.** -/
inductive IsToken : Kind → Text → Prop where
  | decimal {sign whole : Text} (hsign : Sign sign) (h : Natural whole) :
    IsToken .decimal (sign ++ whole)
  | hexadecimal {sign digits : Text} (hsign : Sign sign) (h : Figures Literal.isHexDigit digits) :
    IsToken .hexadecimal (sign ++ '0' :: 'x' :: digits)
  | decimalWord {digits : Text} (h : Figures Char.isDigit digits) :
    IsToken .word ('0' :: 'w' :: digits)
  | hexWord {digits : Text} (h : Figures Literal.isHexDigit digits) :
    IsToken .word ('0' :: 'w' :: 'x' :: digits)
  /-- A real has a fraction, an exponent or both. -/
  | real {sign whole fraction exponent : Text} (hsign : Sign sign) (h : Natural whole)
    (hfraction : fraction = [] ∨ FractionPart fraction)
    (hexponent : exponent = [] ∨ ExponentPart exponent)
    (some : fraction ≠ [] ∨ exponent ≠ []) :
    IsToken .real (sign ++ (whole ++ (fraction ++ exponent)))
  | string {elements : List Literal.Element} {inside : Text}
    (h : Literal.SpellsAll elements inside) : IsToken .string ('\x22' :: inside ++ ['\x22'])
  | character {element : Literal.Element} {inside : Text} (h : Literal.Spells element inside) :
    IsToken .character ('#' :: '\x22' :: inside ++ ['\x22'])

/-! ## The kind of a text -/

/-- Whether a character makes a number a real. -/
def isRealMark (c : Char) : Bool := c == '.' || c == 'e' || c == 'E'

/-- The kind of a number without its sign. -/
def numberKind : Text → Kind
  | '0' :: 'x' :: _ => .hexadecimal
  | '0' :: 'w' :: _ => .word
  | t => if t.any isRealMark then .real else .decimal

/-- **The kind that is read off a text.** -/
def kind : Text → Kind
  | '\x22' :: _ => .string
  | '#' :: _ => .character
  | '~' :: rest => numberKind rest
  | t => numberKind t

/-- A sign does not change the kind of a number. -/
theorem kind_signed {sign : Text} {d : Char} {rest : Text} (hsign : Sign sign)
    (hd : d.isDigit = true) : kind (sign ++ d :: rest) = numberKind (d :: rest) := by
  cases hsign with
  | none =>
    have hquote : d ≠ '\x22' := by rintro rfl; cases hd
    have hhash : d ≠ '#' := by rintro rfl; cases hd
    have htilde : d ≠ '~' := by rintro rfl; cases hd
    simp [kind, hquote, hhash, htilde]
  | minus => rfl

/-- What numbers without a mark after the first digit are made of. -/
def inDecimal (c : Char) : Bool := c.isDigit || isRealMark c || c == '~'

theorem numberKind_of_decimal {t : Text} (h : ∀ c ∈ t, inDecimal c = true) :
    numberKind t = if t.any isRealMark then .real else .decimal := by
  unfold numberKind
  split
  · exact absurd (h 'x' (by simp)) (by decide)
  · exact absurd (h 'w' (by simp)) (by decide)
  · rfl

/-! ## What numbers are made of -/

theorem Natural.exists_cons {t : Text} (h : Natural t) :
    ∃ d rest, t = d :: rest ∧ d.isDigit = true ∧ ∀ c ∈ rest, c.isDigit = true := by
  cases h with
  | digit h => exact ⟨_, [], rfl, h, fun c hc => by cases hc⟩
  | digits h _ hrest => exact ⟨_, _, rfl, h, hrest⟩

theorem Natural.isDigit {t : Text} (h : Natural t) : ∀ c ∈ t, c.isDigit = true := by
  obtain ⟨d, rest, rfl, hd, hrest⟩ := h.exists_cons
  intro c hc
  rcases List.mem_cons.1 hc with rfl | hc
  · exact hd
  · exact hrest c hc

theorem inDecimal_of_isDigit {c : Char} (h : c.isDigit = true) : inDecimal c = true := by
  simp [inDecimal, h]

theorem not_isRealMark {c : Char} (h : c.isDigit = true) : isRealMark c = false := by
  have hpoint : c ≠ '.' := by rintro rfl; cases h
  have hlower : c ≠ 'e' := by rintro rfl; cases h
  have hupper : c ≠ 'E' := by rintro rfl; cases h
  simp [isRealMark, hpoint, hlower, hupper]

/-- A fraction starts with a point. -/
theorem FractionPart.inDecimal {t : Text} (h : FractionPart t) :
    (∀ c ∈ t, inDecimal c = true) ∧ t.any isRealMark = true := by
  cases h with
  | mk h =>
    refine ⟨fun c hc => ?_, rfl⟩
    rcases List.mem_cons.1 hc with rfl | hc
    · rfl
    · exact inDecimal_of_isDigit (h.all c hc)

/-- An exponent starts with its letter. -/
theorem ExponentPart.inDecimal {t : Text} (h : ExponentPart t) :
    (∀ c ∈ t, inDecimal c = true) ∧ t.any isRealMark = true := by
  cases h with
  | @mk mark sign digits hmark hsign h =>
    have hreal : isRealMark mark = true := by rcases hmark with rfl | rfl <;> rfl
    refine ⟨fun c hc => ?_, by simp [hreal]⟩
    rcases List.mem_append.1 hc with hc | hc
    · rcases List.mem_cons.1 hc with rfl | hc
      · simp [Constant.inDecimal, hreal]
      · cases hsign with
        | none => cases hc
        | minus => rw [List.mem_singleton.1 hc]; rfl
    · exact inDecimal_of_isDigit (h.all c hc)

theorem kind_decimal {sign whole : Text} (hsign : Sign sign) (h : Natural whole) :
    kind (sign ++ whole) = .decimal := by
  have hdigits := h.isDigit
  obtain ⟨d, rest, rfl, hd, -⟩ := h.exists_cons
  have hmark : (d :: rest).any isRealMark = false :=
    List.any_eq_false.2 fun c hc => by rw [not_isRealMark (hdigits c hc)]; decide
  rw [kind_signed hsign hd, numberKind_of_decimal fun c hc => inDecimal_of_isDigit (hdigits c hc),
    hmark]
  rfl

theorem kind_real {sign whole fraction exponent : Text} (hsign : Sign sign) (h : Natural whole)
    (hfraction : fraction = [] ∨ FractionPart fraction)
    (hexponent : exponent = [] ∨ ExponentPart exponent) (some : fraction ≠ [] ∨ exponent ≠ []) :
    kind (sign ++ (whole ++ (fraction ++ exponent))) = .real := by
  have hwhole := h.isDigit
  obtain ⟨d, rest, rfl, hd, -⟩ := h.exists_cons
  have hchars : ∀ c ∈ d :: rest ++ (fraction ++ exponent), inDecimal c = true := by
    intro c hc
    simp only [List.mem_append] at hc
    rcases hc with hc | hc | hc
    · exact inDecimal_of_isDigit (hwhole c hc)
    · rcases hfraction with rfl | hfraction
      · cases hc
      · exact hfraction.inDecimal.1 c hc
    · rcases hexponent with rfl | hexponent
      · cases hc
      · exact hexponent.inDecimal.1 c hc
  have hmark : (d :: rest ++ (fraction ++ exponent)).any isRealMark = true := by
    simp only [List.any_append, Bool.or_eq_true]
    -- the part that is there has a mark
    rcases some with hne | hne
    · exact .inr (.inl (hfraction.resolve_left hne).inDecimal.2)
    · exact .inr (.inr (hexponent.resolve_left hne).inDecimal.2)
  rw [List.cons_append] at hchars hmark ⊢
  rw [kind_signed hsign hd, numberKind_of_decimal hchars, hmark]
  rfl

/-- **The kind of a constant can be read off its text.** -/
theorem kind_of_isToken {k : Kind} {t : Text} (h : IsToken k t) : kind t = k := by
  cases h with
  | decimal hsign h => exact kind_decimal hsign h
  | hexadecimal hsign h => exact kind_signed hsign (by decide)
  | decimalWord h => rfl
  | hexWord h => rfl
  | real hsign h hfraction hexponent some => exact kind_real hsign h hfraction hexponent some
  | string h => rfl
  | character h => rfl

/-- **No text is of two kinds.** -/
theorem isToken_unique {k k' : Kind} {t : Text} (h : IsToken k t) (h' : IsToken k' t) : k = k' := by
  rw [← kind_of_isToken h, kind_of_isToken h']

/-! ## Lexemes -/

theorem figures_of_spell {alphabet : List Char} {isDigit : Char → Bool} {n : Nat} {t : Text}
    (h : Spell alphabet n t) (hall : alphabet.all isDigit = true) : Figures isDigit t :=
  ⟨h.nonempty, fun c hc => List.all_eq_true.1 hall c (h.chars c hc)⟩

theorem figures_decimal {n : Nat} {t : Text} (h : Spell decimalDigits n t) :
    Figures Char.isDigit t := figures_of_spell h (by decide)

theorem figures_hex {n : Nat} {t : Text} (h : Spell hexDigits n t) :
    Figures Literal.isHexDigit t := figures_of_spell h (by decide)

theorem natural_of_numeral {n : Nat} {t : Text} (h : Numeral n t) : Natural t := by
  have hdigits := figures_decimal h.toSpell
  cases t with
  | nil => exact absurd rfl h.nonempty
  | cons d rest =>
    have hd := hdigits.all d (List.mem_cons_self ..)
    cases rest with
    | nil => exact .digit hd
    | cons c rest =>
      have hleading := h.leading (by simp)
      refine .digits hd ?_ fun e he => hdigits.all e (List.mem_cons_of_mem d he)
      rintro rfl
      exact hleading rfl

theorem sign_of_negative (negative : Bool) : Sign (Lexeme.sign negative) := by
  cases negative with
  | false => exact .none
  | true => exact .minus

theorem fractionPart_of {t : Text} (h : t = [] ∨ Fraction t) : t = [] ∨ FractionPart t := by
  rcases h with rfl | h
  · exact .inl rfl
  · cases h with
    | mk h => exact .inr (.mk (figures_decimal h))

theorem exponentPart_of {t : Text} (h : t = [] ∨ Exponent t) : t = [] ∨ ExponentPart t := by
  rcases h with rfl | h
  · exact .inl rfl
  · cases h with
    | mk negative hmark h =>
      exact .inr (.mk hmark (sign_of_negative negative) (figures_decimal h))

/-- The kind of constant that a lexeme is. -/
def ofLexeme? : Lexeme → Option Kind
  | .decimalInt => some .decimal
  | .hexInt => some .hexadecimal
  | .word => some .word
  | .real => some .real
  | .string => some .string
  | .character => some .character
  | _ => none

/-- **A lexeme of each kind of constant is a token of this kind.** -/
theorem isToken_of_form {l : Lexeme} {k : Kind} {t : Text} (h : l.Form t)
    (hl : ofLexeme? l = some k) : IsToken k t := by
  cases h with
  | decimalInt negative h =>
    obtain rfl := Option.some.inj hl
    exact .decimal (sign_of_negative negative) (natural_of_numeral h)
  | hexInt negative h =>
    obtain rfl := Option.some.inj hl
    exact .hexadecimal (sign_of_negative negative) (figures_hex h)
  | hexWord h =>
    obtain rfl := Option.some.inj hl
    exact .hexWord (figures_hex h)
  | decimalWord h =>
    obtain rfl := Option.some.inj hl
    exact .decimalWord (figures_decimal h)
  | real negative h hfraction hexponent some =>
    obtain rfl := Option.some.inj hl
    have htoken := IsToken.real (sign_of_negative negative) (natural_of_numeral h)
      (fractionPart_of hfraction) (exponentPart_of hexponent) some
    simpa only [List.append_assoc] using htoken
  | string _ drawn =>
    obtain rfl := Option.some.inj hl
    exact .string (Literal.spellsAll_of_drawn drawn)
  | character drawn =>
    obtain rfl := Option.some.inj hl
    exact .character (Literal.spells_of_drawn drawn)
  | _ => cases hl

variable {σ : Type} [Source σ]

theorem draws_token {l : Lexeme} {k : Kind} (hl : ofLexeme? l = some k) (fuel : Nat) :
    Draws ((lexeme l).run ((sml (σ := σ)).call fuel)) (IsToken k) :=
  (draws_lexeme fuel l).mono fun _ ht => isToken_of_form ht hl

/-- **Lexemes yield tokens of their kind.** -/
theorem yields_token {l : Lexeme} {k : Kind} (hl : ofLexeme? l = some k) :
    AlwaysYields σ (lexeme l) (IsToken k) :=
  alwaysYields_of_draws (Gen.wellFormed_of_all rfl) (draws_token hl)

/-! ## Phrases for constants -/

/-- What an option draws is of one of the kinds that are allowed. -/
theorem draws_option {l : Lexeme} {k : Kind} {kinds : List Kind} (hl : ofLexeme? l = some k)
    (hk : k ∈ kinds) (fuel : Nat) :
    Draws ((lexeme l).run ((sml (σ := σ)).call fuel)) fun t => ∃ k ∈ kinds, IsToken k t :=
  (draws_token hl fuel).mono fun _ ht => ⟨k, hk, ht⟩

theorem draws_intConstant {kinds : List Kind} (hdecimal : .decimal ∈ kinds)
    (hhex : .hexadecimal ∈ kinds) (fuel : Nat) :
    Draws (intConstant.run ((sml (σ := σ)).call fuel)) fun t => ∃ k ∈ kinds, IsToken k t := by
  refine draws_weighted (List.forall_mem_cons.2 ⟨?_, List.forall_mem_singleton.2 ?_⟩)
  · exact draws_option rfl hdecimal fuel
  · exact draws_option rfl hhex fuel

theorem draws_constant (fuel : Nat) :
    Draws (constant.run ((sml (σ := σ)).call fuel)) fun t => ∃ k, IsToken k t := by
  have hdraws : Draws (constant.run ((sml (σ := σ)).call fuel)) fun t =>
      ∃ k ∈ [Kind.decimal, .hexadecimal, .word, .real, .string, .character], IsToken k t := by
    refine draws_weighted ?_
    simp only [List.forall_mem_cons]
    refine ⟨draws_intConstant (by decide) (by decide) fuel, draws_option rfl (by decide) fuel,
      draws_option rfl (by decide) fuel, draws_option rfl (by decide) fuel,
      draws_option rfl (by decide) fuel, fun o ho => by cases ho⟩
  refine hdraws.mono ?_
  rintro t ⟨k, -, h⟩
  exact ⟨k, h⟩

/-- **A constant for a pattern is a token, but no real.** -/
theorem draws_patternConstant (fuel : Nat) :
    Draws (patternConstant.run ((sml (σ := σ)).call fuel)) fun t =>
      (∃ k, IsToken k t) ∧ ¬ IsToken .real t := by
  have hdraws : Draws (patternConstant.run ((sml (σ := σ)).call fuel)) fun t =>
      ∃ k ∈ [Kind.decimal, .hexadecimal, .word, .string, .character], IsToken k t := by
    refine draws_weighted ?_
    simp only [List.forall_mem_cons]
    refine ⟨draws_intConstant (by decide) (by decide) fuel, draws_option rfl (by decide) fuel,
      draws_option rfl (by decide) fuel, draws_option rfl (by decide) fuel,
      fun o ho => by cases ho⟩
  refine hdraws.mono ?_
  rintro t ⟨k, hk, h⟩
  refine ⟨⟨k, h⟩, fun hreal => ?_⟩
  rw [isToken_unique h hreal] at hk
  revert hk
  decide

/-- **Constants are classified by their text.** Each lexeme for constants yields tokens of its own
kind, the kind is read off the text, and no text is of two kinds. The phrase for constants yields
tokens of one of the six kinds, and the phrase for constants of patterns never a real. -/
theorem constants_classified :
    AlwaysYields σ (lexeme .decimalInt) (IsToken .decimal) ∧
    AlwaysYields σ (lexeme .hexInt) (IsToken .hexadecimal) ∧
    AlwaysYields σ (lexeme .word) (IsToken .word) ∧
    AlwaysYields σ (lexeme .real) (IsToken .real) ∧
    AlwaysYields σ (lexeme .string) (IsToken .string) ∧
    AlwaysYields σ (lexeme .character) (IsToken .character) ∧
    (∀ k t, IsToken k t → kind t = k) ∧
    (∀ k k' t, IsToken k t → IsToken k' t → k = k') ∧
    AlwaysYields σ constant (fun t => ∃ k, IsToken k t) ∧
    AlwaysYields σ patternConstant (fun t => (∃ k, IsToken k t) ∧ ¬ IsToken .real t) := by
  have hconstant : constant.WellFormed := Gen.wellFormed_of_all (by decide +kernel)
  have hpattern : patternConstant.WellFormed := Gen.wellFormed_of_all (by decide +kernel)
  exact ⟨yields_token rfl, yields_token rfl, yields_token rfl, yields_token rfl, yields_token rfl,
    yields_token rfl, fun k t h => kind_of_isToken h, fun k k' t h h' => isToken_unique h h',
    alwaysYields_of_draws hconstant draws_constant,
    alwaysYields_of_draws hpattern draws_patternConstant⟩

/-- The letter of an exponent is a digit in base sixteen: `~0x1e2` is an integer, and `1e2` a
real. -/
theorem constants_classified_exponent :
    IsToken .hexadecimal ['~', '0', 'x', '1', 'e', '2'] ∧
    kind ['~', '0', 'x', '1', 'e', '2'] = .hexadecimal ∧
    IsToken .real ['1', 'e', '2'] ∧ ¬ IsToken .decimal ['1', 'e', '2'] := by
  obtain ⟨-, -, -, -, -, -, hkind, hunique, -, -⟩ := constants_classified (σ := Tape)
  have hhex : IsToken .hexadecimal ['~', '0', 'x', '1', 'e', '2'] :=
    .hexadecimal .minus ⟨by decide, List.all_eq_true.1 rfl⟩
  have hexponent : ExponentPart ['e', '2'] :=
    .mk (.inl rfl) .none ⟨by decide, List.all_eq_true.1 rfl⟩
  have hreal : IsToken .real ['1', 'e', '2'] :=
    .real .none (.digit (by decide)) (.inl rfl) (.inr hexponent) (.inr (by decide))
  refine ⟨hhex, hkind _ _ hhex, hreal, fun hdecimal => ?_⟩
  exact absurd (hunique _ _ _ hreal hdecimal) (by decide)

end Constant

end SmlSynth
