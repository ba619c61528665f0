import Mathlib.Data.List.Count
import SmlSynth.Proofs.Plan
import SmlSynth.Proofs.Success

/-!
# What identifiers look like

A name is redrawn while the core language reserves it, and marked with an underscore if the module
language does. The mark makes no new reserved word, so no name reads as a keyword of either.

* `IsIdentifier`, `IsName`, `IsLongName`, `IsLabel`, `IsSymbol`, `IsTypeVar`: the forms, character
  by character.
* `isName_of_form`: names are reserved in neither language.
* `AlwaysYields`, `alwaysYields_of_draws`: phrases whose runs fail for want of patience only, and
  otherwise yield texts of a form.
* `identifiers_sound`: the phrases for identifiers yield such texts.
-/

namespace SmlSynth

open Sampler Phrase

/-! ## Forms -/

/-- What an identifier may go on with: a letter or a digit, an underscore or a prime. -/
def continuesIdentifier (c : Char) : Bool := c.isAlphanum || c == '_' || c == '\x27'

/-- **An identifier of at most `n` characters**, the first of which is of some kind. -/
structure IsIdentifier (starts : Char → Bool) (n : Nat) (t : Text) : Prop where
  first : t.head?.any starts = true
  rest : ∀ c ∈ t.tail, continuesIdentifier c = true
  short : t.length ≤ n

/-- **A name of a value or a type**: a lower-case identifier of at most four characters that is
reserved neither in the core language nor in the module language. -/
structure IsName (t : Text) : Prop extends IsIdentifier Char.isLower 4 t where
  notCore : isCoreReserved t = false
  notModule : isModuleReserved t = false

/-- **A name that may be qualified**: a name, or a capitalised identifier of at most five
characters, the only point, and a name. -/
def IsLongName (t : Text) : Prop :=
  IsName t ∨ t.count '.' = 1 ∧
    ∃ qualifier name, t = qualifier ++ '.' :: name ∧
      IsIdentifier Char.isUpper 5 qualifier ∧ IsName name

/-- **A label**: a name or a decimal number from one to ten. -/
def IsLabel (t : Text) : Prop := IsName t ∨ ∃ n, 1 ≤ n ∧ n ≤ 10 ∧ t = Nat.toDigits 10 n

/-- **A symbolic identifier**: one to three symbolic characters that are no punctuation. -/
structure IsSymbol (t : Text) : Prop where
  nonempty : 1 ≤ t.length
  short : t.length ≤ 3
  chars : ∀ c ∈ t, c ∈ symbolicChars
  free : isSymbolicReserved t = false

/-- **A type variable**: one or two primes, a letter and at most ten identifier characters. -/
def IsTypeVar (t : Text) : Prop :=
  ∃ primes rest, t = primes ++ rest ∧ (primes = ['\x27'] ∨ primes = ['\x27', '\x27']) ∧
    IsIdentifier Char.isAlpha 11 rest

/-! ## Lexemes have these forms -/

theorem isIdentifier_of {alphabet : List Char} {starts : Char → Bool} {n : Nat} {t : Text}
    (h : Identifier alphabet n t) (hstarts : alphabet.all starts = true) :
    IsIdentifier starts (n + 1) t := by
  have hcontinues : identifierChars.all continuesIdentifier = true := by decide
  cases h with
  | mk head tail short =>
    refine ⟨List.all_eq_true.1 hstarts _ head, ?_, ?_⟩
    · intro c hc
      exact List.all_eq_true.1 hcontinues c (tail c hc)
    · rw [List.length_cons]
      omega

theorem IsIdentifier.mono {starts : Char → Bool} {n m : Nat} {t : Text}
    (h : IsIdentifier starts n t) (hnm : n ≤ m) : IsIdentifier starts m t :=
  ⟨h.first, h.rest, Nat.le_trans h.short hnm⟩

/-- An identifier may go on with one more character. -/
theorem IsIdentifier.snoc {starts : Char → Bool} {n : Nat} {t : Text} {c : Char}
    (h : IsIdentifier starts n t) (hc : continuesIdentifier c = true) :
    IsIdentifier starts (n + 1) (t ++ [c]) := by
  obtain ⟨hfirst, hrest, hshort⟩ := h
  cases t with
  | nil => cases hfirst
  | cons a rest =>
    refine ⟨hfirst, ?_, ?_⟩
    · intro d hd
      rcases List.mem_append.1 hd with hd | hd
      · exact hrest d hd
      · rw [List.mem_singleton.1 hd]
        exact hc
    · rw [List.length_append, List.length_singleton]
      omega

/-- **Short words that are marked are not reserved**, in either language. -/
theorem marked_free {t : Text} (h : isModuleReserved t = true) (hshort : t.length ≤ 3) :
    isCoreReserved (t ++ ['_']) = false ∧ isModuleReserved (t ++ ['_']) = false := by
  have hwords : ∀ w ∈ texts moduleReserved, w.length ≤ 3 →
      isCoreReserved (w ++ ['_']) = false ∧ isModuleReserved (w ++ ['_']) = false := by decide
  exact hwords t (List.contains_iff_mem.1 h) hshort

/-- **No name is reserved.** -/
theorem isName_of_form {t : Text} (h : Lexeme.Form .name t) : IsName t := by
  have hlower : lowerLetters.all Char.isLower = true := by decide
  cases h with
  | name h free free' => exact ⟨(isIdentifier_of h hlower).mono (by omega), free, free'⟩
  | markedName h marked =>
    have hid := isIdentifier_of h hlower
    obtain ⟨hcore, hmodule⟩ := marked_free marked hid.short
    exact ⟨hid.snoc rfl, hcore, hmodule⟩

theorem isSymbol_of_form {t : Text} (h : Lexeme.Form .symbolic t) : IsSymbol t := by
  cases h with
  | symbolic h free => exact ⟨List.length_pos_iff.2 h.nonempty, h.short, h.chars, free⟩

/-- There is no point in an identifier. -/
theorem IsIdentifier.notMem_point {starts : Char → Bool} {n : Nat} {t : Text}
    (h : IsIdentifier starts n t) (hstarts : starts '.' = false) : '.' ∉ t := by
  obtain ⟨hfirst, hrest, -⟩ := h
  cases t with
  | nil => exact List.not_mem_nil
  | cons c rest =>
    intro hmem
    rcases List.mem_cons.1 hmem with rfl | hmem
    · rw [List.head?_cons, Option.any_some, hstarts] at hfirst
      cases hfirst
    · have hpoint := hrest '.' hmem
      revert hpoint
      decide

theorem isLongName_of_parts {qualifier name : Text} (hq : IsIdentifier Char.isUpper 5 qualifier)
    (hname : IsName name) : IsLongName (qualifier ++ '.' :: name) := by
  have hbefore : qualifier.count '.' = 0 := List.count_eq_zero.2 (hq.notMem_point (by decide))
  have hafter : name.count '.' = 0 :=
    List.count_eq_zero.2 (hname.toIsIdentifier.notMem_point (by decide))
  refine .inr ⟨?_, qualifier, name, rfl, hq, hname⟩
  rw [List.count_append, List.count_cons_self, hbefore, hafter]

/-! ## What phrases draw -/

section Draws

variable {σ ρ : Type} [Source σ] {call : ρ → Sampler σ Text} {P Q : Text → Prop}

/-- What all options draw, a choice among them draws. -/
theorem draws_weighted {options : List (Float × Gen ρ)}
    (h : ∀ o ∈ options, Draws (o.2.run call) P) : Draws ((Gen.weighted options).run call) P := by
  intro c t ht
  rw [Gen.run, Gen.runOptions_eq_map] at ht
  obtain ⟨o, ho, c', -, hrun⟩ := byWeight_ok ht
  obtain ⟨o', ho', rfl⟩ := List.mem_map.1 ho
  exact h o' ho' c' t hrun

/-- A row draws what its first part does, and then what the others do. -/
theorem draws_seq_cons {g : Gen ρ} {gs : List (Gen ρ)} (h : Draws (g.run call) P)
    (h' : Draws ((Gen.seq gs).run call) Q) :
    Draws ((Gen.seq (g :: gs)).run call) fun t => ∃ u v, t = u ++ v ∧ P u ∧ Q v := by
  show Draws (concat (g.run call :: Gen.runAll call gs)) _
  refine draws_bind h fun u hu => draws_bind h' fun v hv => draws_pure ?_
  exact ⟨u, v, rfl, hu, hv⟩

theorem draws_seq_single {g : Gen ρ} (h : Draws (g.run call) P) :
    Draws ((Gen.seq [g]).run call) P := by
  show Draws (concat [g.run call]) P
  rw [concat_single]
  exact h

theorem draws_lit (s : String) : Draws ((Gen.lit s).run call) (· = s.toList) := draws_pure rfl

/-- A lexeme of a phrase has a form of its kind. -/
theorem draws_lexeme (fuel : Nat) (l : Lexeme) :
    Draws ((lexeme l).run ((sml (σ := σ)).call fuel)) l.Form := by
  rw [run_lexeme]
  exact l.draws_form

theorem draws_name (fuel : Nat) : Draws (name.run ((sml (σ := σ)).call fuel)) IsName :=
  (draws_lexeme fuel .name).mono fun _ => isName_of_form

theorem draws_longName (fuel : Nat) :
    Draws (longName.run ((sml (σ := σ)).call fuel)) IsLongName := by
  have hupper : upperLetters.all Char.isUpper = true := by decide
  have hqualifier : Draws (capitalName.run ((sml (σ := σ)).call fuel))
      (IsIdentifier Char.isUpper 5) := by
    refine (draws_lexeme fuel .capitalName).mono fun t ht => ?_
    cases ht with
    | capitalName h => exact isIdentifier_of h hupper
  refine draws_weighted (List.forall_mem_cons.2 ⟨?_, List.forall_mem_singleton.2 ?_⟩)
  · exact (draws_name fuel).mono fun t ht => .inl ht
  · have hparts := draws_seq_cons hqualifier
      (draws_seq_cons (draws_lit ".") (draws_seq_single (draws_name fuel)))
    refine hparts.mono ?_
    rintro t ⟨qualifier, rest, rfl, hq, point, name, rfl, rfl, hname⟩
    exact isLongName_of_parts hq hname

theorem draws_label (fuel : Nat) : Draws (label.run ((sml (σ := σ)).call fuel)) IsLabel := by
  refine draws_weighted (List.forall_mem_cons.2 ⟨?_, List.forall_mem_singleton.2 ?_⟩)
  · exact (draws_name fuel).mono fun t ht => .inl ht
  · refine (draws_lexeme fuel .numericLabel).mono fun t ht => ?_
    cases ht with
    | @numericLabel n pos le => exact .inr ⟨n, pos, le, rfl⟩

/-- A type variable with as many primes in front as are given. -/
theorem draws_primed (fuel : Nat) {primes : String}
    (hprimes : primes.toList = ['\x27'] ∨ primes.toList = ['\x27', '\x27']) :
    Draws ((Gen.seq [Gen.lit primes, lexeme .identifier]).run ((sml (σ := σ)).call fuel))
      IsTypeVar := by
  have hletters : letters.all Char.isAlpha = true := by decide
  have hparts := draws_seq_cons (draws_lit primes)
    (draws_seq_single (draws_lexeme (σ := σ) fuel .identifier))
  refine hparts.mono ?_
  rintro t ⟨front, rest, rfl, rfl, hrest⟩
  cases hrest with
  | identifier h => exact ⟨_, rest, rfl, hprimes, isIdentifier_of h hletters⟩

theorem draws_plainTypeVar (fuel : Nat) :
    Draws (plainTypeVar.run ((sml (σ := σ)).call fuel)) IsTypeVar :=
  draws_primed fuel (.inl rfl)

theorem draws_equalityTypeVar (fuel : Nat) :
    Draws (equalityTypeVar.run ((sml (σ := σ)).call fuel)) IsTypeVar :=
  draws_primed fuel (.inr rfl)

theorem draws_typeVar (fuel : Nat) :
    Draws (typeVar.run ((sml (σ := σ)).call fuel)) IsTypeVar :=
  draws_weighted (List.forall_mem_cons.2
    ⟨draws_plainTypeVar fuel, List.forall_mem_singleton.2 (draws_equalityTypeVar fuel)⟩)

end Draws

/-! ## Every run that ends -/

/-- **What a phrase always yields.** A run redraws until its patience is at an end, or it yields a
text with the property; and on a source on which the redraw loops stop, all runs that are patient
enough yield one such text. -/
structure AlwaysYields (σ : Type) [Source σ] (p : Phrase) (P : Text → Prop) : Prop where
  ended : ∀ c : Context σ,
    (p.sample c).1 = .error .outOfPatience ∨ ∃ t, (p.sample c).1 = .ok t ∧ P t
  patient : ∀ c : Context σ, Settles c.source → Succeeds (fun m => (p.sample (c.patient m)).1) P

variable {σ : Type} [Source σ]

/-- **A well-formed phrase always yields what it draws.** -/
theorem alwaysYields_of_draws {p : Phrase} {P : Text → Prop} (hp : p.WellFormed)
    (h : ∀ fuel, Draws (p.run ((sml (σ := σ)).call fuel)) P) : AlwaysYields σ p P := by
  refine ⟨fun c => ?_, fun c hsource => ?_⟩
  · cases hr : (p.sample c).1 with
    | ok t => exact .inr ⟨t, rfl, h (fuelFor c) c t hr⟩
    | error e =>
      rcases robust_run hp (fuelFor c) c e hr with rfl | rfl
      · exact .inl rfl
      -- the fuel of a sample is enough
      · exact absurd hr (sample_fuel p c (Nat.le_refl _)).2
  · obtain ⟨n, t, -, hn⟩ := sample_succeeds hp c hsource
    exact ⟨n, t, h _ (c.patient n) t (hn n (Nat.le_refl n)), hn⟩

/-- **Identifiers are sound.** All runs that end, of the phrases for names, qualified names, labels,
symbolic identifiers and type variables, yield texts of these forms. -/
theorem identifiers_sound :
    AlwaysYields σ name IsName ∧ AlwaysYields σ label IsLabel ∧
    AlwaysYields σ longName IsLongName ∧ AlwaysYields σ (lexeme .symbolic) IsSymbol ∧
    AlwaysYields σ plainTypeVar IsTypeVar ∧ AlwaysYields σ equalityTypeVar IsTypeVar ∧
    AlwaysYields σ typeVar IsTypeVar := by
  have hsymbol : ∀ fuel, Draws ((lexeme .symbolic).run ((sml (σ := σ)).call fuel)) IsSymbol :=
    fun fuel => (draws_lexeme fuel .symbolic).mono fun _ => isSymbol_of_form
  refine ⟨alwaysYields_of_draws ?_ draws_name, alwaysYields_of_draws ?_ draws_label,
    alwaysYields_of_draws ?_ draws_longName, alwaysYields_of_draws ?_ hsymbol,
    alwaysYields_of_draws ?_ draws_plainTypeVar, alwaysYields_of_draws ?_ draws_equalityTypeVar,
    alwaysYields_of_draws ?_ draws_typeVar⟩
  -- none of these phrases has a fault in any part
  all_goals exact Gen.wellFormed_of_all (by decide +kernel)

end SmlSynth
