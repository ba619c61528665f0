import Mathlib.Algebra.Group.Action.Defs
import Mathlib.Algebra.Order.BigOperators.Group.List
import Mathlib.Algebra.Order.Group.Nat
import Mathlib.Data.Option.NAry
import SmlSynth.Proofs.Comments
import SmlSynth.Proofs.FirstFit
import SmlSynth.Proofs.Forms
import SmlSynth.Proofs.Reading

/-!
# Lengths of programs

A bound on the lengths of a phrase's texts follows from those of its parts. How deep a phrase may
go decides how long it may get, so a bound is a function of the levels that are left.

* `Longest`, `Longest.reading`: bounds by levels, and how they are put together.
* `Longest.sound`: the reading is sound.
* `Lexeme.longest`, `Rule.longest`: the bounds of symbols; `length_body`: those of the rules
  follow from their bodies.
* `generate_length`: no program is longer than the budget and a thousand characters.
-/

namespace SmlSynth

open Sampler Reading

/-- **A bound on the lengths of texts**, by the levels that are left; none where none is known. -/
abbrev Longest := Nat → Option Nat

namespace Longest

/-! ## Putting bounds together -/

/-- One text after another. -/
def append (a b : Longest) : Longest := fun d => Option.map₂ (· + ·) (a d) (b d)

/-- One of two texts. -/
def either (a b : Longest) : Longest := fun d => Option.map₂ max (a d) (b d)

/-- At most `n` texts in a row. -/
def row (n : Nat) (a : Longest) : Longest := fun d => (a d).map (n * ·)

/-- A text after a change. -/
def change (a : Longest) : Change → Longest
  | .enclose before after => fun d => (a d).map (before.length + · + after.length)
  | .padAfter _ => fun d => (a d).map (· + 1)
  | .other _ => fun _ => none

/-- A terminal text, or one of a level less where a level is left. -/
def gate (a b : Longest) : Longest
  | 0 => a 0
  | d + 1 => Option.map₂ max (a (d + 1)) (b d)

/-- **Reading a bound off a generator**, for at most `limit` repetitions. -/
def reading (limit : Nat) : Reading Longest where
  literal t _ := some t.length
  append := append
  either := either
  many := row limit
  further := row (limit - 1)
  change f a := change a f
  gate := gate

/-! ## Texts within a bound -/

/-- **What a bound says of a text**: where there is one, the text is no longer. -/
def Within (d : Nat) (a : Longest) (t : Text) : Prop := ∀ n, a d = some n → t.length ≤ n

variable {d limit : Nat} {a b : Longest} {t u : Text}

theorem Within.append (h : Within d a t) (h' : Within d b u) :
    Within d (append a b) (t ++ u) := by
  intro n hn
  obtain ⟨x, y, hx, hy, rfl⟩ := Option.map₂_eq_some_iff.1 hn
  rw [List.length_append]
  exact Nat.add_le_add (h x hx) (h' y hy)

theorem Within.left (b : Longest) (h : Within d a t) : Within d (either a b) t := by
  intro n hn
  obtain ⟨x, y, hx, -, rfl⟩ := Option.map₂_eq_some_iff.1 hn
  exact Nat.le_trans (h x hx) (Nat.le_max_left x y)

theorem Within.right (a : Longest) (h : Within d b t) : Within d (either a b) t := by
  intro n hn
  obtain ⟨x, y, -, hy, rfl⟩ := Option.map₂_eq_some_iff.1 hn
  exact Nat.le_trans (h y hy) (Nat.le_max_right x y)

theorem length_flatten_le {ts : List Text} {n : Nat} (h : ∀ t ∈ ts, t.length ≤ n) :
    ts.flatten.length ≤ ts.length * n := by
  have hlengths : ∀ k ∈ ts.map List.length, k ≤ n := by
    intro k hk
    obtain ⟨t, ht, rfl⟩ := List.mem_map.1 hk
    exact h t ht
  have hsum := List.sum_le_card_nsmul _ _ hlengths
  rw [List.length_map, smul_eq_mul] at hsum
  rw [List.length_flatten]
  exact hsum

theorem Within.row {n : Nat} {ts : List Text} (hlen : ts.length ≤ n)
    (h : ∀ t ∈ ts, Within d a t) : Within d (row n a) ts.flatten := by
  intro m hm
  obtain ⟨x, hx, rfl⟩ := Option.map_eq_some_iff.1 hm
  have hle := length_flatten_le fun t ht => h t ht x hx
  exact Nat.le_trans hle (Nat.mul_le_mul_right x hlen)

theorem Within.change (f : Change) (h : Within d a t) : Within d (change a f) (f.apply t) := by
  intro n hn
  cases f with
  | enclose before after =>
    obtain ⟨x, hx, rfl⟩ := Option.map_eq_some_iff.1 hn
    have hle := h x hx
    simp only [Change.apply, List.length_append]
    omega
  | padAfter c =>
    obtain ⟨x, hx, rfl⟩ := Option.map_eq_some_iff.1 hn
    have hle := h x hx
    show (if t.getLast? = some c then t ++ [' '] else t).length ≤ x + 1
    split
    · rw [List.length_append, List.length_singleton]; omega
    · omega
  | other f => cases hn

theorem Within.terminal (b : Longest) (h : Within d a t) : Within d (gate a b) t := by
  cases d with
  | zero => exact h
  | succ d =>
    intro n hn
    obtain ⟨x, y, hx, -, rfl⟩ := Option.map₂_eq_some_iff.1 hn
    exact Nat.le_trans (h x hx) (Nat.le_max_left x y)

theorem Within.recursive (a : Longest) (h : Within d b t) : Within (d + 1) (gate a b) t := by
  intro n hn
  obtain ⟨x, y, -, hy, rfl⟩ := Option.map₂_eq_some_iff.1 hn
  exact Nat.le_trans (h y hy) (Nat.le_max_right x y)

/-- **Texts are no longer than the reading says.** -/
theorem sound (limit : Nat) : (reading limit).Sound limit Within where
  literal _ _ _ hn := Nat.le_of_eq (Option.some.inj hn)
  append := .append
  left b h := h.left b
  right a h := h.right a
  many := .row
  further := .row
  change f h := h.change f
  terminal b h := h.terminal b
  recursive a h := h.recursive a

end Longest

open Longest

/-! ## The bounds of lexemes -/

theorem Comment.length_settle {t u : Text} {rounds : Nat} (h : settle rounds t = some u) :
    u.length ≤ t.length := by
  induction rounds generalizing t with
  | zero => cases h
  | succ rounds ih =>
    unfold settle at h
    split at h
    · rw [Option.some.inj h]
    -- a round drops characters only
    · have hround : (round t).length ≤ t.length :=
        (((trimEnd_sublist _).trans (trimStart_sublist _)).trans
          (dropBrackets_sublist none t)).length_le
      exact Nat.le_trans (ih h) hround

theorem Comment.length_sanitize (t : Text) : (sanitize t).length ≤ t.length := by
  unfold sanitize
  cases h : settle (t.length + 1) t with
  | none => exact Nat.zero_le _
  | some u => exact length_settle h

theorem Literal.Element.length_text {e : Element} (h : e.Drawn) : e.text.length ≤ 6 := by
  cases e with
  | plain c => show 1 ≤ 6; decide
  | named c => show 2 ≤ 6; decide
  | code n => show 4 ≤ 6; decide
  | codePoint digits => show digits.length + 2 ≤ 6; rw [h.1]

namespace Lexeme

/-- **The greatest length of a lexeme** of a kind. A string constant may be made of escapes only. -/
def longest : Lexeme → Nat
  | comment => 23
  | identifier => 11
  | shortIdentifier | symbolic => 3
  | name => 4
  | capitalName => 5
  | numericLabel => 2
  | precedence => 1
  | decimalInt => 6
  | hexInt | word => 7
  | real => 13
  | string => 86
  | character => 9

theorem length_sign (negative : Bool) : (sign negative).length ≤ 1 := by
  cases negative <;> decide

theorem length_identifier {first : List Char} {n : Nat} {t : Text} (h : Identifier first n t) :
    t.length ≤ n + 1 := by
  cases h with
  | mk _ _ short => exact Nat.succ_le_succ short

theorem length_fraction {t : Text} (h : t = [] ∨ Fraction t) : t.length ≤ 4 := by
  rcases h with rfl | hfraction
  · exact Nat.zero_le _
  · cases hfraction with
    | mk h => exact Nat.succ_le_succ h.short

theorem length_exponent {t : Text} (h : t = [] ∨ Exponent t) : t.length ≤ 4 := by
  rcases h with rfl | hexponent
  · exact Nat.zero_le _
  · cases hexponent with
    | mk negative _ h =>
      have hsign := length_sign negative
      have hshort := h.short
      simp only [List.cons_append, List.length_cons, List.length_append]
      omega

theorem length_string {elements : List Literal.Element} (short : elements.length < 15)
    (drawn : ∀ e ∈ elements, e.Drawn) : (Literal.string elements).length ≤ 86 := by
  have hitem : ∀ t ∈ elements.map Literal.Element.text, t.length ≤ 6 := by
    intro t ht
    obtain ⟨e, he, rfl⟩ := List.mem_map.1 ht
    exact Literal.Element.length_text (drawn e he)
  have hle := length_flatten_le hitem
  rw [List.length_map, ← List.flatMap_def] at hle
  simp only [Literal.string, List.cons_append, List.length_cons, List.length_append,
    List.length_nil]
  omega

/-- **No lexeme is longer than its kind allows.** -/
theorem length_form {l : Lexeme} {t : Text} (h : Form l t) : t.length ≤ l.longest := by
  cases h with
  | @comment body short =>
    have hbody := Comment.length_sanitize body
    simp only [Comment.enclose, List.cons_append, List.length_cons, List.length_append,
      List.length_nil, longest]
    omega
  | identifier h => exact length_identifier h
  | shortIdentifier h => exact length_identifier h
  | symbolic h => exact h.short
  | name h => exact Nat.le_succ_of_le (length_identifier h)
  | markedName h =>
    rw [List.length_append]
    exact Nat.succ_le_succ (length_identifier h)
  | capitalName h => exact length_identifier h
  | @numericLabel n _ le =>
    have hdigits : ∀ n ≤ 10, (Nat.toDigits 10 n).length ≤ 2 := by decide
    exact hdigits n le
  | precedence => exact Nat.le_refl 1
  | decimalInt negative h =>
    have hsign := length_sign negative
    have hshort := h.short
    simp only [List.length_append, longest]
    omega
  | hexInt negative h =>
    have hsign := length_sign negative
    have hshort := h.short
    simp only [List.length_append, List.length_cons, longest]
    omega
  | hexWord h => exact Nat.add_le_add_right h.short 3
  | decimalWord h => exact Nat.le_succ_of_le (Nat.add_le_add_right h.short 2)
  | real negative h hfraction hexponent =>
    have hsign := length_sign negative
    have hwhole := h.short
    have hfraction' := length_fraction hfraction
    have hexponent' := length_exponent hexponent
    simp only [List.length_append, longest]
    omega
  | string short drawn => exact length_string short drawn
  | character drawn =>
    have htext := Literal.Element.length_text drawn
    simp only [Literal.character, List.cons_append, List.length_cons, List.length_append,
      List.length_nil, longest]
    omega

end Lexeme

/-! ## The bounds of rules -/

/-- **The greatest lengths of a rule's texts** without repetitions, with no level left, with one and
so on. -/
def Rule.longest : Rule → List Nat
  | .ty => [13, 30, 61]
  | .atTy => [13, 27, 44]
  | .pat | .atPat => [86, 178, 362]
  | .exp => [86, 282, 866]
  | .atExp => [86, 178, 570]
  | .boundExp => [86, 182, 570]
  | .dec => [180, 378, 940]

/-- The bound of a symbol. -/
def Longest.symbol : Symbol Lexeme Rule → Longest
  | .terminal l => fun _ => some l.longest
  | .rule r => fun d => r.longest[d]?

/-- **A rule's bounds are those of its body**, when the rules in it have theirs. -/
theorem length_body (r : Rule) :
    ∀ d < 3, r.body.read (Longest.reading 1) Longest.symbol d = r.longest[d]? := by
  -- reading a body does not run it, so each is read as it stands
  cases r <;> decide +kernel

theorem levels_of_longest {r : Rule} {d n : Nat} (h : r.longest[d]? = some n) : d < 3 := by
  obtain ⟨hd, -⟩ := List.getElem?_eq_some_iff.1 h
  have hlen : r.longest.length = 3 := by cases r <;> rfl
  omega

/-! ## The bounds of phrases -/

variable {σ : Type} [Source σ]

/-- **No text of a phrase is longer than the bound read off it**, where there are no repetitions. -/
theorem bounds_sample (p : Phrase) :
    Sound.Yields 1 Within (p.sample (σ := σ)) (p.read (Longest.reading 1) Longest.symbol) := by
  refine (Longest.sound 1).sample (fun l c t _ ht n hn => ?_) (fun r d t h n hn => ?_) p
  · rw [← Option.some.inj hn]
    exact Lexeme.length_form (Lexeme.draws_form l c t ht)
  · exact h n ((length_body r d (levels_of_longest hn)).trans hn)

/-! ## Programs of the lowest tier -/

theorem longest_program (comments rarities : Bool) : ∀ d < 3,
    ((Phrase.program .minimal comments rarities).read (Longest.reading 1) Longest.symbol d).any
      (· ≤ 940) = true := by
  cases comments <;> cases rarities <;> decide +kernel

/-- **No program of the lowest tier is longer than 940 characters**, whatever is drawn. -/
theorem length_minimal {comments rarities : Bool} {c : Context σ} {t : Text}
    (hc : c.bounds = Tier.minimal.bounds)
    (h : ((Phrase.program .minimal comments rarities).sample c).1 = .ok t) : t.length ≤ 940 := by
  have hrepeat : c.bounds.maxRepeat = 1 := by rw [hc]; rfl
  have hlevels : c.levels < 3 := by
    have hdepth : c.bounds.maxDepth = 2 := by rw [hc]; rfl
    unfold Context.levels
    omega
  have hlongest := longest_program comments rarities c.levels hlevels
  obtain ⟨n, hn, hle⟩ := (Option.any_eq_true _ _).1 hlongest
  exact Nat.le_trans (bounds_sample _ c t hrepeat h n hn) (of_decide_eq_true hle)

/-- What is generated is within the budget, unless it is the fallback, which is short. -/
theorem length_generate {entropy : Entropy σ} {c : Config} {t : Text}
    (h : generate entropy c = .ok t) : t.length ≤ max c.maxLength 940 := by
  rcases firstFit_cases (sampleProgram entropy c.comments c.rarities) c.maxLength c.tier c.seed
    with ⟨k, r, -, hr, hout⟩ | ⟨-, hout⟩
  -- an attempt that is not too long is within the budget, and the fallback is of the lowest tier
  · have hfits : t.length ≤ c.maxLength :=
      Nat.le_of_not_lt fun hlong => hr ⟨t, hout.symm.trans h, hlong⟩
    exact Nat.le_trans hfits (Nat.le_max_left _ _)
  · have hsampled : sampleProgram entropy c.comments c.rarities .minimal c.seed = .ok t :=
      hout.symm.trans h
    exact Nat.le_trans (length_minimal rfl hsampled) (Nat.le_max_right _ _)

/-- **The overshoot of the fallback is bounded.** What is generated is within the budget, or within
a thousand characters: so is every program of the lowest tier, whatever is drawn for it. -/
theorem generate_length :
    (∀ (entropy : Entropy σ) (c : Config) (t : Text), generate entropy c = .ok t →
      t.length ≤ max c.maxLength 1000) ∧
    ∀ (comments rarities : Bool) (c : Context σ) (t : Text), c.bounds = Tier.minimal.bounds →
      ((Phrase.program .minimal comments rarities).sample c).1 = .ok t → t.length ≤ 1000 := by
  refine ⟨fun entropy c t ht => ?_, fun _ _ _ _ hc h => Nat.le_trans (length_minimal hc h) (by decide)⟩
  have hle := length_generate ht
  omega

/-- On the tape of zeros the fallback overshoots a budget of nothing, and it is bounded. -/
theorem generate_length_zero :
    let entropy : Entropy Tape := ⟨fun _ => Tape.constant 0, 0⟩
    let once := (Phrase.program .minimal true true).sample
      (entropy.context 0 Tier.minimal.bounds)
    (∃ t, generate entropy ⟨0, .extreme, 0, true, true⟩ = .ok t ∧ 0 < t.length ∧
      t.length ≤ max 0 1000) ∧
    ∃ t, once.1 = .ok t ∧ t.length ≤ 1000 := by
  intro entropy once
  refine ⟨?_, ?_⟩
  · obtain ⟨t, ht, hlong⟩ : ∃ t, generate entropy ⟨0, .extreme, 0, true, true⟩ = .ok t ∧
        decide (0 < t.length) = true := exists_ok_of_any (by decide +kernel)
    exact ⟨t, ht, of_decide_eq_true hlong, generate_length.1 entropy _ t ht⟩
  · obtain ⟨t, ht, -⟩ : ∃ t, once.1 = .ok t ∧ true = true :=
      exists_ok_of_any (p := fun _ => true) (by decide +kernel)
    exact ⟨t, ht, generate_length.2 true true _ t rfl ht⟩

end SmlSynth
