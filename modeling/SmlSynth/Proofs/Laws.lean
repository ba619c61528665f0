import SmlSynth.Proofs.Reaching

/-!
# Laws of generators

Two generators behave alike if the same text or fault comes of both and the same context is left,
from every context and whatever their symbols stand for. A row in a row may be written out, so that
rows are associative; the other ways to combine generators are written in terms of each other.

* `Gen.Alike`: generators that behave alike. It is an equivalence.
* `Sampler.concat_append`, `concat_splice`: a row may be cut, and a row in a row written out.
* `alike_splice`: the same for generators, from which the laws of `followedBy` follow.
* `combinator_laws`: the laws.
-/

namespace SmlSynth

open Sampler

variable {σ τ ν ρ α : Type}

/-! ## Rows of samplers -/

namespace Sampler

/-- **A row may be cut anywhere**: its text is that of the front followed by that of the rest. -/
theorem concat_append (xs ys : List (Sampler σ Text)) :
    concat (xs ++ ys) = (do
      let t ← concat xs
      let u ← concat ys
      return t ++ u) := by
  induction xs with
  | nil => simp only [List.nil_append, concat, pure_bind, bind_pure]
  | cons x xs ih =>
    simp only [List.cons_append, concat, ih, bind_assoc, pure_bind, List.append_assoc]

/-- **A row in a row may be written out.** -/
theorem concat_splice (xs ys zs : List (Sampler σ Text)) :
    concat (xs ++ [concat ys] ++ zs) = concat (xs ++ ys ++ zs) := by
  simp only [concat_append, concat_single]

/-- A separator without text and without draws leaves a plain repetition. -/
theorem separated_nothing (n : Nat) (s : Sampler σ Text) :
    separated n s (pure []) = repeated n s := by
  cases n with
  | zero => rfl
  | succ n => simp [separated, repeated]

end Sampler

namespace Gen

/-! ## Generators that behave alike -/

/-- **Generators that behave alike.** One passes the check exactly if the other does. From every
context, and whatever the symbols stand for, both runs have the same outcome, a text or a fault,
and leave the same context. -/
structure Alike (g h : Gen ρ) : Prop where
  check : g.check = .ok () ↔ h.check = .ok ()
  run : ∀ {σ : Type} [Source σ] (call : ρ → Sampler σ Text) (c : Context σ),
    g.run call c = h.run call c

variable {f g h : Gen ρ}

theorem Alike.refl (g : Gen ρ) : g.Alike g := ⟨Iff.rfl, fun _ _ => rfl⟩

theorem Alike.symm (hgh : g.Alike h) : h.Alike g :=
  ⟨hgh.check.symm, fun call c => (hgh.run call c).symm⟩

theorem Alike.trans (hfg : f.Alike g) (hgh : g.Alike h) : f.Alike h :=
  ⟨hfg.check.trans hgh.check, fun call c => (hfg.run call c).trans (hgh.run call c)⟩

/-! ## What passes the check -/

theorem then_ok_iff {x y : Except GenError Unit} :
    (do x; y) = .ok () ↔ x = .ok () ∧ y = .ok () :=
  ⟨then_ok, fun h => by rw [h.1, h.2]; rfl⟩

theorem checkAll_ok_iff {gs : List (Gen ρ)} :
    checkAll gs = .ok () ↔ ∀ g ∈ gs, g.check = .ok () := by
  induction gs with
  | nil => simp [checkAll, pure, Except.pure]
  | cons g gs ih => rw [checkAll, then_ok_iff, ih, List.forall_mem_cons]

theorem check_literal (t : Text) : (literal t : Gen ρ).check = .ok () := rfl

theorem check_seq {gs : List (Gen ρ)} :
    (seq gs).check = .ok () ↔ ∀ g ∈ gs, g.check = .ok () := checkAll_ok_iff

theorem check_choice {gs : List (Gen ρ)} (hne : gs ≠ []) :
    (choice gs).check = .ok () ↔ ∀ g ∈ gs, g.check = .ok () := by
  have hnode : checkNode (choice gs) = .ok () := by
    cases gs with
    | nil => exact absurd rfl hne
    | cons => rfl
  rw [check, then_ok_iff, checkAll_ok_iff]
  exact and_iff_left hnode

theorem check_between {g before after : Gen ρ} :
    (between g before after).check = .ok () ↔
      g.check = .ok () ∧ before.check = .ok () ∧ after.check = .ok () := by
  rw [check, then_ok_iff, then_ok_iff]

theorem run_seq [Source σ] {call : ρ → Sampler σ Text} (gs : List (Gen ρ)) :
    (seq gs).run call = concat (gs.map (run call)) := congrArg concat (runAll_eq_map gs)

/-! ## Rows -/

/-- **A row in a row may be written out.** -/
theorem alike_splice (xs ys zs : List (Gen ρ)) :
    (seq (xs ++ [seq ys] ++ zs)).Alike (seq (xs ++ ys ++ zs)) where
  check := by
    simp only [check_seq, List.forall_mem_append, List.forall_mem_singleton]
  run call c := by
    simp only [run_seq, List.map_append, List.map_cons, List.map_nil, concat_splice]

/-- Both rows of three write out to the same one. -/
theorem alike_followedBy_assoc (f g h : Gen ρ) :
    ((f.followedBy g).followedBy h).Alike (f.followedBy (g.followedBy h)) := by
  have hleft : ((f.followedBy g).followedBy h).Alike (seq [f, g, h]) := alike_splice [] [f, g] [h]
  have hright : (f.followedBy (g.followedBy h)).Alike (seq [f, g, h]) := alike_splice [f] [g, h] []
  exact hleft.trans hright.symm

theorem alike_empty_followedBy (g : Gen ρ) : (empty.followedBy g).Alike g where
  check := by simp [followedBy, empty, check_seq, check_literal]
  run call c := by simp [followedBy, empty, run_seq, run, concat]

theorem alike_followedBy_empty (g : Gen ρ) : (g.followedBy empty).Alike g where
  check := by simp [followedBy, empty, check_seq, check_literal]
  run call c := by simp [followedBy, empty, run_seq, run, concat]

/-! ## Choices and repetitions -/

/-- **One of two is a choice of two**: both draw a number below two. -/
theorem alike_either (f g : Gen ρ) : (either f g).Alike (choice [f, g]) where
  check := by
    rw [check_choice (List.cons_ne_nil f [g]), check, then_ok_iff]
    simp
  run call c := by
    have hlength : 0 < [f.run call, g.run call].length := Nat.two_pos
    have htwo : (choice [f, g]).run call
        = (below 2 Nat.two_pos >>= fun i : Fin 2 => [f.run call, g.run call][i]) :=
      anyOf_of_pos hlength .emptyChoice
    rw [htwo]
    refine congrFun (bind_congr fun i => ?_) c
    match i with
    | 0 => rfl
    | 1 => rfl

/-- **A repetition of a fixed number of texts is a row of copies**, if the number is not zero. -/
theorem alike_count {n : Nat} (hn : 0 < n) (g : Gen ρ) :
    (count n g).Alike (seq (List.replicate n g)) where
  check := by
    have hcopies : (∀ p ∈ List.replicate n g, p.check = .ok ()) ↔ g.check = .ok () :=
      List.forall_mem_replicate.trans (or_iff_right (Nat.ne_of_gt hn))
    rw [check_seq, hcopies]
    rfl
  run call c := by
    have hcount : (count n g).run call = repeated n (g.run call) := if_neg (Nat.ne_of_gt hn)
    rw [hcount, run_seq, List.map_replicate, repeated_eq_concat]

/-- **Separators that are empty leave a plain repetition.** -/
theorem alike_sepBy_empty (g : Gen ρ) : (sepBy g empty).Alike (many g) where
  check := then_ok_iff.trans (and_iff_left rfl)
  run call c := by simp only [run, empty, separated_nothing]

theorem alike_sepBy1_empty (g : Gen ρ) : (sepBy1 g empty).Alike (many1 g) where
  check := then_ok_iff.trans (and_iff_left rfl)
  run call c := by simp only [run, empty, separated_nothing]

/-! ## Texts around a text -/

/-- A text between two others is a row of three. -/
theorem alike_between_seq (g before after : Gen ρ) :
    (between g before after).Alike (seq [before, g, after]) where
  check := by
    rw [check_between, check_seq]
    simp [and_left_comm]
  run call c := rfl

theorem alike_between (g before after : Gen ρ) :
    (between g before after).Alike ((before.followedBy g).followedBy after) :=
  (alike_between_seq g before after).trans (alike_splice [] [before, g] [after]).symm

/-- **Fixed texts put around a text** may as well be sampled before and after it. -/
theorem alike_enclose (before after : Text) (g : Gen ρ) :
    (map (.enclose before after) g).Alike (between g (.literal before) (.literal after)) where
  check := by
    rw [check_between]
    exact (and_iff_left ⟨rfl, rfl⟩).symm
  run call c := by
    simp only [run, concat, Change.apply, pure_bind, bind_assoc, List.append_nil, List.append_assoc]

/-- **Two changes are one.** -/
theorem alike_map_map (first second : Change) (g : Gen ρ) :
    (map second (map first g)).Alike (map (.other (second.apply ∘ first.apply)) g) where
  check := Iff.rfl
  run call c := by
    simp only [run, bind_assoc, pure_bind]
    rfl

/-! ## Generators that are checked when they run -/

/-- **What passes the check need not be delayed.** -/
theorem alike_delayed {g : Gen ρ} (hg : g.check = .ok ()) : (delayed g).Alike g where
  check := iff_of_true rfl hg
  run call c := by
    rw [run, hg]

/-- **What does not pass the check fails with its fault when it is reached**, and leaves the context
as it was. -/
theorem run_delayed_of_error [Source σ] {g : Gen ρ} {e : GenError} (hg : g.check = .error e)
    (call : ρ → Sampler σ Text) (c : Context σ) :
    (delayed g).run call c = (.error (.illFormed e), c) := by
  rw [run, hg]
  rfl

/-- A reference to a rule is its body, checked when it is reached, with a unit of fuel less. -/
theorem run_ref_rule [Source σ] (G : Grammar σ τ ν) (fuel : Nat) (r : ν) :
    (ref (.rule r)).run (G.call (fuel + 1)) = (delayed (G.body r)).run (G.call fuel) := rfl

/-! ## The laws -/

/-- **The laws of generators**, all of them as equality of behaviour.

* A row in a row may be written out; so one after another is associative, and the empty text is its
  unit on both sides.
* One of two is a choice of two, and a repetition of a number of texts above zero a row of copies.
* Separators that are empty leave a plain repetition.
* A text between two others is a row of three, and one in parentheses stands between two of them.
* Two changes in turn are one.
* A delayed generator that passes the check is that generator. One that does not fails with the
  fault of the check and leaves the context as it was. The same holds of references to rules. -/
theorem combinator_laws :
    (∀ xs ys zs : List (Gen ρ), (seq (xs ++ [seq ys] ++ zs)).Alike (seq (xs ++ ys ++ zs))) ∧
    (∀ f g h : Gen ρ, ((f.followedBy g).followedBy h).Alike (f.followedBy (g.followedBy h))) ∧
    (∀ g : Gen ρ, (empty.followedBy g).Alike g ∧ (g.followedBy empty).Alike g) ∧
    (∀ f g : Gen ρ, (either f g).Alike (choice [f, g])) ∧
    (∀ (n : Nat) (g : Gen ρ), 0 < n → (count n g).Alike (seq (List.replicate n g))) ∧
    (∀ g : Gen ρ, (sepBy g empty).Alike (many g) ∧ (sepBy1 g empty).Alike (many1 g)) ∧
    (∀ g before after : Gen ρ,
      (between g before after).Alike ((before.followedBy g).followedBy after)) ∧
    (∀ g : Gen ρ, g.parens.Alike (between g (lit "(") (lit ")"))) ∧
    (∀ (g : Gen ρ) (first second : Change),
      (map second (map first g)).Alike (map (.other (second.apply ∘ first.apply)) g)) ∧
    (∀ g : Gen ρ, g.check = .ok () → (delayed g).Alike g) ∧
    (∀ (σ : Type) [Source σ] (call : ρ → Sampler σ Text) (c : Context σ) (g : Gen ρ) (e : GenError),
      g.check = .error e → (delayed g).run call c = (.error (.illFormed e), c)) ∧
    ∀ (σ τ ν : Type) [Source σ] (G : Grammar σ τ ν) (fuel : Nat) (r : ν) (c : Context σ),
      ((G.body r).check = .ok () →
        (ref (.rule r)).run (G.call (fuel + 1)) c = (G.body r).run (G.call fuel) c) ∧
      ∀ e, (G.body r).check = .error e →
        (ref (.rule r)).run (G.call (fuel + 1)) c = (.error (.illFormed e), c) := by
  refine ⟨alike_splice, alike_followedBy_assoc,
    fun g => ⟨alike_empty_followedBy g, alike_followedBy_empty g⟩, alike_either,
    fun n g hn => alike_count hn g, fun g => ⟨alike_sepBy_empty g, alike_sepBy1_empty g⟩,
    alike_between, alike_enclose ['('] [')'], fun g first second => alike_map_map first second g,
    fun g hg => alike_delayed hg, fun σ _ call c g e hg => run_delayed_of_error hg call c,
    fun σ τ ν _ G fuel r c => ⟨fun hr => ?_, fun e hr => ?_⟩⟩
  · rw [run_ref_rule]
    exact (alike_delayed hr).run (G.call fuel) c
  · rw [run_ref_rule]
    exact run_delayed_of_error hr (G.call fuel) c

/-- A row that draws a word and then fails: in parentheses or between two of them, once delayed or
three times over, its fault is the same. -/
theorem combinator_laws_failing :
    let broken : Gen (Symbol Lexeme Rule) := .seq [.optional (.lit "x"), .count 0 (.lit "y")]
    let fault : Fault := .illFormed (.nonPositiveCount 0)
    (broken.run (sml.call 1) zeroStart).1 = .error fault ∧
    broken.parens.Alike (between broken (lit "(") (lit ")")) ∧
    (0 < 3 ∧ (count 3 broken).Alike (seq [broken, broken, broken])) ∧
    (broken.check = .ok () ∧ (delayed broken).Alike broken) ∧
    (choice [] : Gen (Symbol Lexeme Rule)).check = .error .emptyChoice ∧
    (delayed (choice [])).run (sml.call 1) zeroStart
      = (.error (.illFormed .emptyChoice), zeroStart) := by
  intro broken fault
  have hbroken : broken.check = .ok () := rfl
  have hchoice : (choice [] : Gen (Symbol Lexeme Rule)).check = .error .emptyChoice := rfl
  obtain ⟨-, -, -, -, hcount, -, -, hparens, -, hdelayed, herror, -⟩ :=
    combinator_laws (ρ := Symbol Lexeme Rule)
  exact ⟨by rfl, hparens broken, ⟨by decide, hcount 3 broken (by decide)⟩,
    ⟨hbroken, hdelayed broken hbroken⟩, hchoice,
    herror Tape (sml.call 1) zeroStart (choice []) .emptyChoice hchoice⟩

end Gen

end SmlSynth
