import SmlSynth.Proofs.FirstFit
import SmlSynth.Proofs.Outline

/-!
# Brackets and comments of programs

* `outline_body`: each rule's outline follows from its body, so the rules' outlines hold.
* `describes_sample`: what a phrase yields is as the outline read off it says.
* `generate_balanced`: brackets, constants and comments of every program match.
* `program_comments`: comment brackets stand around comments only, and how many there are.
-/

namespace SmlSynth

open Outline Reading Sampler

/-! ## The outlines of symbols -/

/-- The outline of lexemes of a kind: a star stands at the ends of symbolic ones only. -/
def Lexeme.outline (l : Lexeme) : Outline where
  vanishes := false
  starFirst := l == .symbolic
  starLast := l == .symbolic
  opens := l == .comment
  fixed := if l = .comment then 1 else 0
  repeated := 0

/-- **The outline of a rule**: only a declaration may end in a star, by an operand whose fixity it
sets. -/
def Rule.outline (r : Rule) : Outline where
  vanishes := false
  starFirst := false
  starLast := r == .dec
  opens := false
  fixed := 0
  repeated := 0

/-- The outline of a symbol. -/
def Outline.symbol : Symbol Lexeme Rule → Option Outline
  | .terminal l => some l.outline
  | .rule r => some r.outline

/-- **A rule's outline is that of its body**, when the rules in it have theirs. -/
theorem outline_body (r : Rule) : r.body.read reading symbol = some r.outline := by
  -- reading a body does not run it, so each is read as it stands
  cases r <;> decide +kernel

/-! ## The outlines of phrases -/

variable {σ : Type} [Source σ]

/-- Whether a text is one that `comment` yields. -/
def IsComment (σ : Type) [Source σ] (x : Text) : Prop :=
  ∃ c : Context σ, (Phrase.comment.sample c).1 = .ok x

theorem fits_lexeme {l : Lexeme} {t : Text} (h : l.Spelled t) (limit : Nat) :
    Fits limit l.outline t (if l = .comment then [t] else []) := by
  refine ⟨h.clean, ?_, fun he => absurd he h.nonempty, fun hf => ?_, fun hl => ?_, fun ho => ?_⟩
  · show _ ≤ (if l = .comment then 1 else 0) + 0 * limit
    split <;> simp
  · rw [h.first hf]; rfl
  · rw [h.last hl]; rfl
  · have hl : l = .comment := eq_of_beq ho
    rw [if_pos hl]
    exact ⟨t, [], rfl, List.prefix_refl t⟩

theorem yields_lexeme (limit : Nat) (l : Lexeme) :
    Sound.Yields limit (Describes limit (IsComment σ)) (l.sample : Sampler σ Text)
      (symbol (.terminal l)) := by
  intro c t _ ht
  refine ⟨_, fits_lexeme (Lexeme.draws_spelled l c t ht) limit, fun x hx => ?_⟩
  split at hx
  · rename_i hl
    rw [List.mem_singleton.1 hx]
    exact ⟨c, by rw [Phrase.comment, Phrase.sample_lexeme, ← hl]; exact ht⟩
  · cases hx

/-- **What a phrase yields is as its outline says.** -/
theorem describes_sample (limit : Nat) (p : Phrase) :
    Sound.Yields limit (Describes limit (IsComment σ)) (p.sample (σ := σ))
      (p.read reading symbol) := by
  refine (sound limit _).sample (yields_lexeme limit) (fun r d t h => ?_) p
  rw [outline_body] at h
  exact h

/-! ## Programs -/

/-- The greatest number of comments in a program of a tier. -/
def mostComments (tier : Tier) (comments : Bool) (maxRepeat : Nat) : Nat :=
  match comments, tier with
  | false, _ | true, .minimal | true, .simple => 0
  | true, .medium => 1
  | true, .complex => 2
  | true, .extreme => 2 + maxRepeat

/-- **The outline of a program.** From the middle tier on it may end in a declaration, and so in a
star. Comments are in the upper tiers, and more of them come with items of the catalog. -/
def programOutline (tier : Tier) (comments rarities : Bool) : Outline where
  vanishes := false
  starFirst := false
  starLast := decide (Tier.simple < tier)
  opens := comments && tier == .extreme
  fixed := mostComments tier comments 0
  repeated := if comments && rarities && tier == .extreme then 1 else 0

theorem outline_program (tier : Tier) (comments rarities : Bool) :
    (Phrase.program tier comments rarities).read reading symbol
      = some (programOutline tier comments rarities) := by
  -- the parts of a shape are read once for all choices
  revert comments rarities
  cases tier <;> decide +kernel

/-- What a program yields fits its outline. -/
theorem fits_program {tier : Tier} {comments rarities : Bool} {c : Context σ} {t : Text}
    (h : ((Phrase.program tier comments rarities).sample c).1 = .ok t) :
    ∃ cs, Fits c.bounds.maxRepeat (programOutline tier comments rarities) t cs ∧
      ∀ x ∈ cs, IsComment σ x := by
  have hd := describes_sample c.bounds.maxRepeat (Phrase.program tier comments rarities) c t rfl h
  rw [outline_program] at hd
  exact hd

theorem count_program (tier : Tier) (comments rarities : Bool) (limit : Nat) :
    (programOutline tier comments rarities).fixed
        + (programOutline tier comments rarities).repeated * limit
      ≤ mostComments tier comments limit := by
  cases tier <;> cases comments <;> cases rarities <;> simp [programOutline, mostComments]

/-- **Brackets match in every program**, and so do the ends of constants and comments: the scan
accepts what is generated, and also what a program of any tier yields from any context. -/
theorem generate_balanced :
    (∀ (entropy : Entropy σ) (c : Config) (t : Text), generate entropy c = .ok t →
      scan t = .ok ()) ∧
    ∀ (tier : Tier) (comments rarities : Bool) (c : Context σ) (t : Text),
      ((Phrase.program tier comments rarities).sample c).1 = .ok t → scan t = .ok () := by
  have hprogram : ∀ (tier : Tier) (comments rarities : Bool) (c : Context σ) (t : Text),
      ((Phrase.program tier comments rarities).sample c).1 = .ok t → scan t = .ok () := by
    intro tier comments rarities c t h
    obtain ⟨cs, hcs, -⟩ := fits_program h
    exact hcs.clean.scan
  refine ⟨fun entropy c t h => ?_, hprogram⟩
  obtain ⟨tier, seed, hsampled⟩ := sampled_of_generate h
  exact hprogram _ _ _ _ t hsampled

/-- On the tape of zeros a program is generated, and accepted. -/
theorem generate_balanced_zero :
    ∃ t, generate (⟨fun _ => Tape.constant 0, 0⟩ : Entropy Tape) ⟨50, .simple, 0, true, true⟩ = .ok t ∧
      scan t = .ok () := by
  obtain ⟨t, ht, -⟩ := exists_ok_of_any
    (x := generate (⟨fun _ => Tape.constant 0, 0⟩ : Entropy Tape) ⟨50, .simple, 0, true, true⟩)
    (p := fun _ => true) (by decide +kernel)
  exact ⟨t, ht, generate_balanced.1 _ _ t ht⟩

/-- **Comment brackets stand around comments only.** In what a program yields, the strict scan finds
nothing but texts of `comment` in comment brackets, and no closing bracket elsewhere. There
are no more of them than the tier allows, and with comments a program of the highest tier starts
with one. -/
theorem program_comments {tier : Tier} {comments rarities : Bool} {c : Context σ} {t : Text}
    (h : ((Phrase.program tier comments rarities).sample c).1 = .ok t) :
    ∃ cs, SmlSynth.comments t = .ok cs ∧
      (∀ x ∈ cs, x <:+: t ∧ ∃ c' : Context σ, (Phrase.comment.sample c').1 = .ok x) ∧
      cs.length ≤ mostComments tier comments c.bounds.maxRepeat ∧
      (comments = true → tier = .extreme → ∃ x rest, cs = x :: rest ∧ x <+: t) := by
  obtain ⟨cs, hcs, hmade⟩ := fits_program h
  have hfound := hcs.clean.comments
  refine ⟨cs, hfound, fun x hx => ⟨Scan.infix_of_comments hfound x hx, hmade x hx⟩, ?_, ?_⟩
  · exact Nat.le_trans hcs.count (count_program tier comments rarities c.bounds.maxRepeat)
  · rintro rfl rfl
    exact hcs.opens rfl

/-- On the tape of zeros a program of the highest tier starts with a comment. -/
theorem program_comments_zero :
    let c : Context Tape := ⟨Tape.constant 0, ⟨0, 0⟩, 0, 0, 0⟩
    ∃ t cs x rest, ((Phrase.program .extreme true false).sample c).1 = .ok t ∧
      SmlSynth.comments t = .ok cs ∧ cs.length ≤ 2 ∧ cs = x :: rest ∧ x <+: t := by
  intro c
  obtain ⟨t, ht, -⟩ := exists_ok_of_any (x := ((Phrase.program .extreme true false).sample c).1)
    (p := fun _ => true) (by decide +kernel)
  obtain ⟨cs, hcs, -, hcount, hfirst⟩ := program_comments ht
  obtain ⟨x, rest, hx, hprefix⟩ := hfirst rfl rfl
  exact ⟨t, cs, x, rest, ht, hcs, hcount, hx, hprefix⟩

end SmlSynth
