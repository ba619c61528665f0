import SmlSynth.Proofs.Joints

/-!
# Symbolic characters at the ends of texts

Standard ML makes words of symbolic characters as well as of letters. What a symbol of the grammar
yields has only few of them at its ends, and many symbols none.

* `Symbol.rim`: the symbolic characters that a symbol's texts may start or end with.
* `Rimmed`, `Bare`, `Free`: a text with no others at its ends, with none there, with none at all.
* `rimmed_of_form`, `rims_body`: so it is for lexemes, and for each rule if it is for the others.
* `draws_rimmed`: all that a symbol yields has only the symbolic characters of its rim at its ends.
-/

namespace SmlSynth

open Sampler Segment

/-! ## The ends of texts -/

/-- An end of a list. -/
inductive Side where
  | first
  | last
deriving Repr, DecidableEq

/-- What stands at an end of a list. -/
def Side.end? {α : Type} : Side → List α → Option α
  | first, xs => xs.head?
  | last, xs => xs.getLast?

/-- The symbolic characters that an operand may start with: the sign of a number, the hash of a
character constant or of a selector, and a prefix operator. -/
def operandStarts : List Char := ['~', '#', '!']

/-- The symbolic characters that an expression may end with: those of an operator as a value. -/
def operatorEnds : List Char := ['+', '-', '/', '<', '>', '=', ':', '@', '^']

/-- **The symbolic characters that a symbol's texts may have at an end.** -/
def Symbol.rim : Side → Symbol Lexeme Rule → List Char
  | _, .terminal .symbolic => symbolicChars
  | .first, .terminal .decimalInt | .first, .terminal .hexInt | .first, .terminal .real => ['~']
  | .first, .terminal .character => ['#']
  | .first, .rule .pat | .first, .rule .atPat => operandStarts
  | .first, .rule .exp | .first, .rule .atExp | .first, .rule .boundExp => operandStarts
  | .last, .rule .exp | .last, .rule .atExp | .last, .rule .boundExp => operatorEnds
  | .last, .rule .dec => symbolicChars
  | _, _ => []

/-- **A text as a symbol yields it**: not empty, and with no symbolic characters at its ends but
those of the symbol's rim. -/
structure Rimmed (x : Symbol Lexeme Rule) (t : Text) : Prop where
  nonempty : t ≠ []
  ends : ∀ side : Side, ∀ c ∈ side.end? t, c ∈ symbolicChars → c ∈ x.rim side

/-- A text without symbolic characters. -/
def Free (t : Text) : Prop := ∀ c ∈ t, c ∉ symbolicChars

-- Over the members: an instance that is looked up may go through all characters.
instance (t : Text) : Decidable (Free t) := List.decidableBAll (· ∉ symbolicChars) t

/-- A text without symbolic characters at its ends. -/
structure Bare (t : Text) : Prop where
  nonempty : t ≠ []
  ends : ∀ side : Side, ∀ c ∈ side.end? t, c ∉ symbolicChars

namespace Side

variable {α : Type} {x : α} {xs ys : List α}

theorem mem_of_end? {side : Side} (h : x ∈ side.end? xs) : x ∈ xs := by
  cases side with
  | first => exact List.mem_of_mem_head? h
  | last => exact List.mem_of_mem_getLast? h

theorem exists_end? (side : Side) (h : xs ≠ []) : ∃ x, x ∈ side.end? xs := by
  cases side with
  | first => exact ⟨_, List.head?_eq_some_head h⟩
  | last => exact ⟨_, List.getLast?_eq_some_getLast h⟩

/-- At the end of a text that segments make stands the end of the segment there, if that is not
empty. -/
theorem end?_join {ρ : Type} (side : Side) {s : Segment ρ} {ss : List (Segment ρ)}
    (h : s ∈ side.end? ss) (hs : s.text ≠ []) : side.end? (join ss) = side.end? s.text := by
  cases side with
  | first =>
    obtain ⟨rest, rfl⟩ := List.head?_eq_some_iff.1 h
    exact List.head?_append_of_ne_nil _ hs
  | last =>
    obtain ⟨before, rfl⟩ := List.getLast?_eq_some_iff.1 h
    have hlast : join [s] = s.text := List.append_nil _
    rw [join_append, hlast]
    exact List.getLast?_append_of_ne_nil _ hs

end Side

namespace Bare

variable {t u : Text} {c : Char} {x : Symbol Lexeme Rule}

theorem of_free (hne : t ≠ []) (h : Free t) : Bare t :=
  ⟨hne, fun _ c hc => h c (Side.mem_of_end? hc)⟩

theorem of_spell {alphabet : List Char} {n : Nat} (ha : Free alphabet) (h : Spell alphabet n t) :
    Bare t := of_free h.nonempty fun c hc => ha c (h.chars c hc)

theorem of_identifier {first : List Char} {n : Nat} (hfirst : Free first)
    (h : Identifier first n t) : Bare t := by
  have hrest : Free identifierChars := by decide
  cases h with
  | mk head tail short =>
    refine of_free (List.cons_ne_nil _ _) fun c hc => ?_
    rcases List.mem_cons.1 hc with rfl | hc
    · exact hfirst c head
    · exact hrest c (tail c hc)

/-- Only the ends count, whatever stands between them. -/
theorem around (hc : c ∉ symbolicChars) (h : Bare u) (middle : Text) :
    Bare (c :: (middle ++ u)) := by
  refine ⟨List.cons_ne_nil _ _, fun side d hd => ?_⟩
  cases side with
  | first =>
    obtain rfl : c = d := Option.some.inj hd
    exact hc
  | last =>
    have hlast : (c :: (middle ++ u)).getLast? = u.getLast? :=
      List.getLast?_append_of_ne_nil (c :: middle) h.nonempty
    exact h.ends .last d (hlast.symm.trans hd)

theorem append (h : Bare t) (hu : u = [] ∨ Bare u) : Bare (t ++ u) := by
  rcases hu with rfl | hu
  · rw [List.append_nil]; exact h
  · cases t with
    | nil => exact absurd rfl h.nonempty
    | cons c t => exact around (h.ends .first c rfl) hu t

theorem rimmed (h : Bare t) (x : Symbol Lexeme Rule) : Rimmed x t :=
  ⟨h.nonempty, fun side c hc hsym => absurd hsym (h.ends side c hc)⟩

/-- One more character in front. -/
theorem rimmed_cons (h : Bare t) (hc : c ∈ x.rim .first) : Rimmed x (c :: t) := by
  refine ⟨List.cons_ne_nil _ _, fun side d hd hsym => ?_⟩
  cases side with
  | first =>
    obtain rfl : c = d := Option.some.inj hd
    exact hc
  | last =>
    have hlast : (c :: t).getLast? = t.getLast? := List.getLast?_append_of_ne_nil [c] h.nonempty
    exact absurd hsym (h.ends .last d (hlast.symm.trans hd))

theorem rimmed_sign (h : Bare t) (hx : '~' ∈ x.rim .first) (negative : Bool) :
    Rimmed x (Lexeme.sign negative ++ t) := by
  cases negative with
  | true => exact h.rimmed_cons hx
  | false => exact h.rimmed x

end Bare

/-! ## Lexemes -/

theorem bare_fraction {t : Text} (h : Fraction t) : Bare t := by
  cases h with
  | mk h => exact .around (by decide) (.of_spell (by decide) h) []

theorem bare_exponent {t : Text} (h : Exponent t) : Bare t := by
  have hmark : ∀ c, c = 'e' ∨ c = 'E' → c ∉ symbolicChars := by rintro c (rfl | rfl) <;> decide
  cases h with
  | mk negative hm h => exact .around (hmark _ hm) (.of_spell (by decide) h) _

/-- **The lexemes of each form have the rim of their kind.** -/
theorem rimmed_of_form {l : Lexeme} {t : Text} (h : l.Form t) : Rimmed (.terminal l) t := by
  have hquote : Bare ['\x22'] := .of_free (List.cons_ne_nil _ _) (by decide)
  cases h with
  | @comment body =>
    have hend : Bare [')'] := .of_free (List.cons_ne_nil _ _) (by decide)
    have henclosed := hend.around (c := '(') (by decide) ('*' :: Comment.sanitize body ++ ['*'])
    rw [List.append_assoc] at henclosed
    exact henclosed.rimmed _
  | identifier h => exact (Bare.of_identifier (by decide) h).rimmed _
  | shortIdentifier h => exact (Bare.of_identifier (by decide) h).rimmed _
  | symbolic h => exact ⟨h.nonempty, fun side c _ hc => by cases side <;> exact hc⟩
  | name h => exact (Bare.of_identifier (by decide) h).rimmed _
  | markedName h =>
    have hmark : Bare ['_'] := .of_free (List.cons_ne_nil _ _) (by decide)
    exact ((Bare.of_identifier (by decide) h).append (.inr hmark)).rimmed _
  | capitalName h => exact (Bare.of_identifier (by decide) h).rimmed _
  | @numericLabel n pos le =>
    -- there are eleven numbers at most, so each is looked at
    have hdigits : ∀ n ≤ 10, Nat.toDigits 10 n ≠ [] ∧ Free (Nat.toDigits 10 n) := by decide
    obtain ⟨hne, hfree⟩ := hdigits n le
    exact (Bare.of_free hne hfree).rimmed _
  | @precedence d h =>
    have hdigits : Free decimalDigits := by decide
    refine (Bare.of_free (List.cons_ne_nil _ _) fun c hc => ?_).rimmed _
    rw [List.mem_singleton.1 hc]
    exact hdigits d h
  | decimalInt negative h =>
    exact (Bare.of_spell (by decide) h.toSpell).rimmed_sign (by decide) negative
  | hexInt negative h =>
    have hdigits := Bare.of_spell (by decide) h
    exact (hdigits.around (by decide) ['x']).rimmed_sign (by decide) negative
  | hexWord h =>
    have hdigits := Bare.of_spell (by decide) h
    exact (hdigits.around (by decide) ['w', 'x']).rimmed _
  | decimalWord h =>
    have hdigits := Bare.of_spell (by decide) h
    exact (hdigits.around (by decide) ['w']).rimmed _
  | real negative h hfraction hexponent =>
    have hwhole := Bare.of_spell (by decide) h.toSpell
    have hnumber := (hwhole.append (hfraction.imp_right bare_fraction)).append
      (hexponent.imp_right bare_exponent)
    have hsigned := hnumber.rimmed_sign (x := .terminal .real) (by decide) negative
    simpa only [List.append_assoc] using hsigned
  | string => exact (hquote.around (by decide) _).rimmed _
  | character => exact (hquote.around (by decide) _).rimmed_cons (by decide)

/-! ## What symbols yield -/

/-- The kinds that the segments at an end may have. -/
def Side.kinds {ρ : Type} : Side → Joints ρ → List (Kind ρ)
  | first, a => a.first
  | last, a => a.last

/-- Whether a segment of a kind has no symbolic character at an end but those allowed. -/
def Side.within (side : Side) (allowed : List Char) : Kind (Symbol Lexeme Rule) → Bool
  | .fixed t => (side.end? t).all fun c => c ∉ symbolicChars || c ∈ allowed
  | .drawn x => (x.rim side).all (· ∈ allowed)
  | .changed => false

variable {side : Side} {allowed : List Char} {s : Segment (Symbol Lexeme Rule)}
  {ss : List (Segment (Symbol Lexeme Rule))}

theorem of_within (hs : s.Made Rimmed) (h : side.within allowed s.kind = true) :
    s.text ≠ [] ∧ ∀ c ∈ side.end? s.text, c ∈ symbolicChars → c ∈ allowed := by
  cases s with
  | fixed t =>
    refine ⟨hs, fun c hc hsym => ?_⟩
    have hall := (Option.all_eq_true _ _).1 h c hc
    simpa [hsym] using hall
  | drawn x t =>
    refine ⟨hs.nonempty, fun c hc hsym => ?_⟩
    have hall := List.all_eq_true.1 h c (hs.ends side c hc hsym)
    exact of_decide_eq_true hall
  | changed t => cases h

/-- **Segments that fit joints make a text with a rim**, if the segments at either end can only have
the characters of that rim. -/
theorem rimmed_join {a : Joints (Symbol Lexeme Rule)} (h : a.Fits Rimmed ss)
    (hv : a.vanishes = false) {x : Symbol Lexeme Rule}
    (hx : ∀ side : Side, (side.kinds a).all (side.within (x.rim side)) = true) :
    Rimmed x (join ss) := by
  have hne : ss ≠ [] := by
    intro he
    have := h.vanishes he
    rw [hv] at this
    cases this
  have hend : ∀ side : Side, ∀ s ∈ side.end? ss,
      s.text ≠ [] ∧ ∀ c ∈ side.end? s.text, c ∈ symbolicChars → c ∈ x.rim side := by
    intro side s hs
    have hkind : s.kind ∈ side.kinds a := by
      cases side with
      | first => exact h.first s hs
      | last => exact h.last s hs
    exact of_within (h.made s (Side.mem_of_end? hs)) (List.all_eq_true.1 (hx side) _ hkind)
  constructor
  · intro he
    obtain ⟨s, hs⟩ := Side.first.exists_end? hne
    obtain ⟨c, hc⟩ := Side.first.exists_end? (hend .first s hs).1
    rw [← Side.first.end?_join hs (hend .first s hs).1, he] at hc
    cases hc
  · intro side c hc
    obtain ⟨s, hs⟩ := side.exists_end? hne
    rw [side.end?_join hs (hend side s hs).1] at hc
    exact (hend side s hs).2 c hc

/-- **The body of each rule has the rim of the rule.** -/
theorem rims_body (r : Rule) : (Joints.of r.body).vanishes = false ∧ ∀ side : Side,
    (side.kinds (Joints.of r.body)).all (side.within (Symbol.rim side (.rule r))) = true := by
  refine ⟨?_, fun side => ?_⟩
  · cases r <;> decide +kernel
  · cases side <;> cases r <;> decide +kernel

variable {σ : Type} [Source σ]

/-- **All that a symbol yields has its rim.** -/
theorem draws_rimmed (fuel : Nat) (x : Symbol Lexeme Rule) :
    Draws ((sml (σ := σ)).call fuel x) (Rimmed x) := by
  induction fuel generalizing x with
  | zero =>
    cases x with
    | terminal l => exact l.draws_form.mono fun _ => rimmed_of_form
    | rule r => intro c t h; cases h
  | succ fuel ih =>
    cases x with
    | terminal l => exact l.draws_form.mono fun _ => rimmed_of_form
    | rule r =>
      intro c t h
      obtain ⟨ss, hss, rfl⟩ := Gen.exists_segments h
      have hfits := Joints.draws_segments ih (.delayed r.body) c ss hss
      obtain ⟨hv, hrim⟩ := rims_body r
      exact rimmed_join hfits hv hrim

end SmlSynth
