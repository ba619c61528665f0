import SmlSynth.Program.Budget
import SmlSynth.Proofs.Rims
import SmlSynth.Random.ChaCha

/-!
# Marks between the parts of a phrase

A reader of Standard ML takes the longest run of symbolic characters for one word. So a mark that
a phrase puts between two parts is read as itself only if it stands apart from the symbolic
characters of the parts. The spaces around a mark are a matter of chance, and not every part keeps
the distance by itself.

* `separators`, `Apart`: the marks, and a run of which every mark stands apart.
* `Fused`: a mark and a part that touch: the part ends in an operator, or starts with a sign, a hash
  or a prefix operator.
* `guarded_punctuated`: beside a mark there is a space, a part without such ends, or one of the few
  that may have them.
* `apart_iff_unfused`: every mark of a run stands apart if and only if none is fused with a part.
* `cons_sign_fused`: a pattern of which the mark does not stand apart.
-/

namespace SmlSynth

open Sampler Segment

/-- **The marks** that phrases put between two parts. -/
def separators : List Text := texts ["=", "=>", "|", "::", ":"]

/-- **Every mark stands apart**: there is no symbolic character right before or after it. -/
def Apart (ss : List (Segment (Symbol Lexeme Rule))) : Prop :=
  ∀ before mark after, ss = before ++ .fixed mark :: after → mark ∈ separators →
    (∀ c ∈ (join before).getLast?, c ∉ symbolicChars) ∧ ∀ c ∈ (join after).head?, c ∉ symbolicChars

/-! ## Fused marks -/

/-- The parts that may end in an operator, and the marks that may follow them. -/
def expressions : List Rule := [.exp, .atExp, .boundExp]

def afterExpressions : List Text := texts ["|", "::", ":"]

/-- The parts that may start with a symbolic character, and the marks that may stand before them. -/
def operands : List Rule := [.pat, .exp, .boundExp]

def beforeOperands : List Text := texts ["=", "=>", "|", "::"]

/-- **A mark and a part that are fused**, as neighbours. -/
inductive Fused : Segment (Symbol Lexeme Rule) → Segment (Symbol Lexeme Rule) → Prop where
  /-- An expression ends in an operator, right before a mark. -/
  | operator {r : Rule} {t mark : Text} {c : Char} (hr : r ∈ expressions) (hc : c ∈ t.getLast?)
    (hop : c ∈ operatorEnds) (hmark : mark ∈ afterExpressions) :
    Fused (.drawn (.rule r) t) (.fixed mark)
  /-- A pattern or an expression starts with a symbolic character, right after a mark. -/
  | operand {r : Rule} {t mark : Text} {c : Char} (hmark : mark ∈ beforeOperands)
    (hr : r ∈ operands) (hc : c ∈ t.head?) (hstart : c ∈ operandStarts) :
    Fused (.fixed mark) (.drawn (.rule r) t)

variable {s s' : Segment (Symbol Lexeme Rule)} {ss : List (Segment (Symbol Lexeme Rule))}
  {mark : Text}

theorem mem_separators (h : mark ∈ afterExpressions ∨ mark ∈ beforeOperands) :
    mark ∈ separators := by
  have hafter : ∀ mark ∈ afterExpressions, mark ∈ separators := by decide
  have hbefore : ∀ mark ∈ beforeOperands, mark ∈ separators := by decide
  exact h.elim (hafter mark) (hbefore mark)

/-- **Fused marks do not stand apart.** -/
theorem Apart.unfused (h : Apart ss) : ss.IsChain fun s s' => ¬ Fused s s' := by
  refine List.isChain_iff_forall_rel_of_append_cons_cons.2 fun s s' before after hss hfused => ?_
  cases hfused with
  | @operator r t mark c hr hc hop hmark =>
    have hsym : operatorEnds ⊆ symbolicChars := by decide
    have hsplit : ss = (before ++ [.drawn (.rule r) t]) ++ .fixed mark :: after := by simp [hss]
    refine (h _ _ _ hsplit (mem_separators (.inl hmark))).1 c ?_ (hsym hop)
    have hne : t ≠ [] := by rintro rfl; cases hc
    have hlast : .drawn (.rule r) t ∈ Side.last.end? (before ++ [.drawn (.rule r) t]) :=
      List.getLast?_concat
    exact (Side.last.end?_join hlast hne).trans hc
  | @operand r t mark c hmark hr hc hstart =>
    have hsym : operandStarts ⊆ symbolicChars := by decide
    refine (h _ _ _ hss (mem_separators (.inr hmark))).2 c ?_ (hsym hstart)
    have hne : t ≠ [] := by rintro rfl; cases hc
    have hfirst : .drawn (.rule r) t ∈ Side.first.end? (.drawn (.rule r) t :: after) := rfl
    exact (Side.first.end?_join hfirst hne).trans hc

/-! ## Guarded marks -/

/-- Whether a kind is that of one of some rules. -/
def ofRules (rs : List Rule) (k : Kind (Symbol Lexeme Rule)) : Bool :=
  k ∈ rs.map (.drawn <| .rule ·)

/-- **Whether neighbours are as marks need them**: beside a mark there is no symbolic character,
unless it is a part that may be fused with the mark. -/
def guarded : Kind (Symbol Lexeme Rule) × Kind (Symbol Lexeme Rule) → Bool
  | (k, k') =>
    (match k' with
    | .fixed mark => mark ∉ separators || Side.last.within [] k ||
        (ofRules expressions k && mark ∈ afterExpressions)
    | _ => true) &&
    (match k with
    | .fixed mark => mark ∉ separators || Side.first.within [] k' ||
        (ofRules operands k' && mark ∈ beforeOperands)
    | _ => true)

theorem of_ofRules {rs : List Rule} (h : ofRules rs s.kind = true) :
    ∃ r ∈ rs, ∃ t, s = .drawn (.rule r) t := by
  obtain ⟨r, hr, hkind⟩ := List.mem_map.1 (of_decide_eq_true h)
  cases s with
  | drawn x t =>
    obtain rfl : Symbol.rule r = x := Kind.drawn.inj hkind
    exact ⟨r, hr, t, rfl⟩
  | fixed t => cases hkind
  | changed t => cases hkind

/-- What stands right before a mark. -/
theorem before_mark (hs : s.Made Rimmed) (hmark : mark ∈ separators)
    (h : guarded (s.kind, .fixed mark) = true) :
    s.text ≠ [] ∧ ∀ c ∈ s.text.getLast?, c ∈ symbolicChars → Fused s (.fixed mark) := by
  have hbefore := (Bool.and_eq_true_iff.1 h).1
  simp only [hmark, not_true_eq_false, decide_false, Bool.false_or, Bool.or_eq_true,
    Bool.and_eq_true, decide_eq_true_eq] at hbefore
  rcases hbefore with hfree | ⟨hrule, hafter⟩
  · obtain ⟨hne, hend⟩ := of_within hs hfree
    exact ⟨hne, fun c hc hsym => absurd (hend c hc hsym) List.not_mem_nil⟩
  · obtain ⟨r, hr, t, rfl⟩ := of_ofRules hrule
    have hrim : ∀ r ∈ expressions, Symbol.rim .last (.rule r) = operatorEnds := by decide
    refine ⟨hs.nonempty, fun c hc hsym => .operator hr hc ?_ hafter⟩
    rw [← hrim r hr]
    exact hs.ends .last c hc hsym

/-- What stands right after a mark. -/
theorem after_mark (hs : s.Made Rimmed) (hmark : mark ∈ separators)
    (h : guarded (.fixed mark, s.kind) = true) :
    s.text ≠ [] ∧ ∀ c ∈ s.text.head?, c ∈ symbolicChars → Fused (.fixed mark) s := by
  have hafter := (Bool.and_eq_true_iff.1 h).2
  simp only [hmark, not_true_eq_false, decide_false, Bool.false_or, Bool.or_eq_true,
    Bool.and_eq_true, decide_eq_true_eq] at hafter
  rcases hafter with hfree | ⟨hrule, hbefore⟩
  · obtain ⟨hne, hend⟩ := of_within hs hfree
    exact ⟨hne, fun c hc hsym => absurd (hend c hc hsym) List.not_mem_nil⟩
  · obtain ⟨r, hr, t, rfl⟩ := of_ofRules hrule
    have hrim : ∀ r ∈ operands, Symbol.rim .first (.rule r) = operandStarts := by decide
    refine ⟨hs.nonempty, fun c hc hsym => .operand hbefore hr hc ?_⟩
    rw [← hrim r hr]
    exact hs.ends .first c hc hsym

/-- **Guarded marks stand apart, unless they are fused.** -/
theorem apart_of_unfused (hguarded : ss.IsChain fun s s' => guarded (s.kind, s'.kind) = true)
    (hmade : ∀ s ∈ ss, s.Made Rimmed) (h : ss.IsChain fun s s' => ¬ Fused s s') : Apart ss := by
  intro before mark after hss hmark
  have hpair := List.isChain_iff_forall_rel_of_append_cons_cons.1 hguarded
  have hunfused := List.isChain_iff_forall_rel_of_append_cons_cons.1 h
  constructor
  · intro c hc hsym
    -- only the last segment before the mark touches it
    rcases List.eq_nil_or_concat' before with rfl | ⟨before, s, rfl⟩
    · cases hc
    have hsplit : ss = before ++ s :: .fixed mark :: after := by simp [hss]
    have hs : s.Made Rimmed := hmade s (by simp [hsplit])
    obtain ⟨hne, hfused⟩ := before_mark hs hmark (hpair hsplit)
    have hlast : s ∈ Side.last.end? (before ++ [s]) := List.getLast?_concat
    exact hunfused hsplit (hfused c ((Side.last.end?_join hlast hne).symm.trans hc) hsym)
  · intro c hc hsym
    cases after with
    | nil => cases hc
    | cons s after =>
      have hs : s.Made Rimmed := hmade s (by simp [hss])
      obtain ⟨hne, hfused⟩ := after_mark hs hmark (hpair hss)
      have hfirst : s ∈ Side.first.end? (s :: after) := rfl
      exact hunfused hss (hfused c ((Side.first.end?_join hfirst hne).symm.trans hc) hsym)

/-! ## Phrases -/

/-- **The phrases with marks between their parts**: declarations of values and functions, rules of
a match, and lists and typed parts. -/
def punctuated : List Phrase :=
  [Phrase.valDec, Phrase.funDec, Phrase.matchRule, Phrase.fnExp, Phrase.caseExp, Phrase.consExp,
    Phrase.consPat, Phrase.typedExp]

/-- Their marks are guarded. -/
theorem guarded_punctuated :
    (punctuated.all fun p => (Joints.of p).pairs.all guarded) = true := by decide +kernel

variable {σ : Type} [Source σ]

/-- **Where the marks of a phrase stand apart.** What such a phrase yields is the text of its
segments, and every mark that the phrase puts there itself stands apart from symbolic characters if
and only if no mark is fused with a part next to it: with an operator at the end of an expression,
or with the sign, the hash or the prefix operator that a pattern or an expression starts with.
Types, names and argument patterns are never in the way, and neither is a part with a space between
it and the mark. -/
theorem apart_iff_unfused {p : Phrase} (hp : p ∈ punctuated) {c : Context σ} {t : Text}
    (h : (p.sample c).1 = .ok t) :
    ∃ ss, (p.layout c).1 = .ok ss ∧ join ss = t ∧
      (Apart ss ↔ ss.IsChain fun s s' => ¬ Fused s s') := by
  obtain ⟨ss, hss, hjoin⟩ := Phrase.exists_layout h
  have hfits := Joints.draws_segments (draws_rimmed (fuelFor c)) p c ss hss
  have hpairs := List.all_eq_true.1 guarded_punctuated p hp
  have hguarded : ss.IsChain fun s s' => guarded (s.kind, s'.kind) = true :=
    hfits.pairs.imp fun s s' hpair => List.all_eq_true.1 hpairs _ hpair
  exact ⟨ss, hss, hjoin, Apart.unfused, apart_of_unfused hguarded hfits.made⟩

/-- In `_::_` the mark touches both parts and stands apart all the same. -/
theorem apart_iff_unfused_wildcards :
    Phrase.consPat ∈ punctuated ∧
      (Phrase.consPat.sample (Entropy.standard.context 8 ⟨0, 1⟩)).1 = .ok "_::_".toList ∧
      ∃ ss, (Phrase.consPat.layout (Entropy.standard.context 8 ⟨0, 1⟩)).1 = .ok ss ∧
        join ss = "_::_".toList ∧ (Apart ss ↔ ss.IsChain fun s s' => ¬ Fused s s') := by
  have hp : Phrase.consPat ∈ punctuated := by simp [punctuated]
  have hrun : (Phrase.consPat.sample (Entropy.standard.context 8 ⟨0, 1⟩)).1 = .ok "_::_".toList :=
    ok_of_toOption (by decide +kernel)
  exact ⟨hp, hrun, apart_iff_unfused hp hrun⟩

/-- **A mark that does not stand apart**: in the pattern `oc::~2` of seed 115 the mark and the sign
make one word. -/
theorem cons_sign_fused :
    ∃ ss, (Phrase.consPat.layout (Entropy.standard.context 115 ⟨0, 1⟩)).1 = .ok ss ∧
      join ss = "oc::~2".toList ∧ ¬ Apart ss := by
  have hrun : (Phrase.consPat.layout (Entropy.standard.context 115 ⟨0, 1⟩)).1
      = .ok [.drawn (.rule .atPat) "oc".toList, .fixed "::".toList,
          .drawn (.rule .pat) "~2".toList] := ok_of_toOption (by decide +kernel)
  refine ⟨_, hrun, by decide, fun hapart => ?_⟩
  have hafter := (hapart [.drawn (.rule .atPat) "oc".toList] "::".toList
    [.drawn (.rule .pat) "~2".toList] rfl (by decide)).2
  exact hafter '~' (by decide) (by decide)

end SmlSynth
