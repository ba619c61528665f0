import SmlSynth.Grammar.Comment
import SmlSynth.Proofs.Marks

/-!
# Comments

* `sanitize_safe`: what `sanitize` makes of a text is safe between comment brackets.
* `clean_enclose`: a comment is clean, and it is the only comment found in it.
* `marks_enclose`: of a comment only the first character is seen in the program.
-/

namespace SmlSynth.Comment

variable {t u : Text}

/-! ## One round -/

theorem dropBrackets_sublist (kept : Option Char) (t : Text) : (dropBrackets kept t).Sublist t := by
  induction t generalizing kept with
  | nil => exact .slnil
  | cons c rest ih =>
    unfold dropBrackets
    split
    · exact (ih kept).cons c
    · exact (ih (some c)).cons_cons c

theorem trimStart_sublist (t : Text) : (trimStart t).Sublist t := List.dropWhile_sublist _

theorem trimEnd_sublist (t : Text) : (trimEnd t).Sublist t := by
  have h := (List.dropWhile_sublist (l := t.reverse) fun c => c == '(' || c == '*').reverse
  rw [List.reverse_reverse] at h
  exact h

theorem head?_trimStart {c : Char} (h : (trimStart t).head? = some c) : c ≠ '*' ∧ c ≠ ')' := by
  have hnot := List.head?_dropWhile_not (fun c => c == '*' || c == ')') t
  unfold trimStart at h
  rw [h] at hnot
  simpa using hnot

theorem getLast?_trimEnd {c : Char} (h : (trimEnd t).getLast? = some c) : c ≠ '(' ∧ c ≠ '*' := by
  have hnot := List.head?_dropWhile_not (fun c => c == '(' || c == '*') t.reverse
  unfold trimEnd at h
  rw [List.getLast?_reverse] at h
  rw [h] at hnot
  simpa using hnot

/-- Where nothing is dropped, no two neighbours form a bracket. -/
theorem inside_of_dropBrackets {kept : Option Char} (h : dropBrackets kept t = t)
    {before after : Text} {a b : Char} (ht : kept.toList ++ t = before ++ a :: b :: after) :
    isBracket a b = false := by
  induction t generalizing kept before with
  | nil =>
    -- there is at most the kept character, and not two
    have hlen := congrArg List.length ht
    simp only [List.append_nil, List.length_append, List.length_cons] at hlen
    have hkept : kept.toList.length ≤ 1 := by cases kept <;> simp
    omega
  | cons c rest ih =>
    unfold dropBrackets at h
    split at h
    · -- a dropped character would leave fewer than there are
      have hlen := (dropBrackets_sublist kept rest).length_le
      rw [h, List.length_cons] at hlen
      omega
    · rename_i hany
      have hrest : dropBrackets (some c) rest = rest := (List.cons.inj h).2
      cases kept with
      | none => exact ih hrest ht
      | some k =>
        cases before with
        | nil =>
          obtain ⟨hk, htail⟩ := List.cons.inj ht
          obtain ⟨hc, -⟩ := List.cons.inj htail
          rw [← hk, ← hc]; simpa using hany
        | cons k' before => exact ih hrest (List.cons.inj ht).2

/-- **What a round leaves as it is is safe.** -/
theorem safe_of_round (h : round t = t) : SafeBody t := by
  have hx := trimEnd_sublist (trimStart (dropBrackets none t))
  have hy := trimStart_sublist (dropBrackets none t)
  have hz := dropBrackets_sublist none t
  have hx' : t.Sublist (trimStart (dropBrackets none t)) := by
    unfold round at h; rw [h] at hx; exact hx
  have hdrop : dropBrackets none t = t := hz.eq_of_length_le (hx'.trans hy).length_le
  have hstart : trimStart t = t := by
    rw [hdrop] at hx' hy; exact hy.eq_of_length_le hx'.length_le
  have hend : trimEnd t = t := by
    unfold round at h; rw [hdrop, hstart] at h; exact h
  exact
    { inside := fun before a b after ht => inside_of_dropBrackets hdrop ht
      start := fun c hc => head?_trimStart (t := t) (by rw [hstart]; exact hc)
      stop := fun c hc => getLast?_trimEnd (t := t) (by rw [hend]; exact hc) }

/-! ## All rounds -/

theorem round_of_settle {rounds : Nat} (h : settle rounds t = some u) : round u = u := by
  induction rounds generalizing t with
  | zero => cases h
  | succ rounds ih =>
    unfold settle at h
    split at h
    · rename_i hround
      rw [← Option.some.inj h]; exact hround
    · exact ih h

/-- **The sanitized text is safe.** -/
theorem sanitize_safe (t : Text) : SafeBody (sanitize t) := by
  unfold sanitize
  cases h : settle (t.length + 1) t with
  | some u => exact safe_of_round (round_of_settle h)
  | none => exact safe_of_round rfl

/-! ## Scanning a comment -/

open Scan

theorem not_brackets {a b : Char} (h : isBracket a b = false) :
    ¬ (a = '(' ∧ b = '*') ∧ ¬ (a = '*' ∧ b = ')') := by
  unfold isBracket at h
  rw [Bool.or_eq_false_iff] at h
  constructor
  · rintro ⟨rfl, rfl⟩
    cases h.1
  · rintro ⟨rfl, rfl⟩
    cases h.2

/-- A step in the body of a comment whose neighbours form no bracket. -/
theorem step_body {place : Nat} {read : Text} {stack : List Char} {found : List Text} {c : Char}
    {ahead : Option Char} (h : ∀ d, ahead = some d → isBracket c d = false) :
    step true place ⟨.comment read, stack, found⟩ c ahead
      = .ok ⟨.comment (read ++ [c]), stack, found⟩ := by
  have hpair : ¬ (c = '(' ∧ ahead = some '*') ∧ ¬ (c = '*' ∧ ahead = some ')') :=
    ⟨fun hc => (not_brackets (h _ hc.2)).1 ⟨hc.1, rfl⟩,
      fun hc => (not_brackets (h _ hc.2)).2 ⟨hc.1, rfl⟩⟩
  simp only [step]
  rw [if_neg hpair.1, if_neg hpair.2]

/-- **A scan goes through the body of a comment**, and sees nothing of it in the program. The star
after it belongs to the closing bracket, so only a parenthesis at the end of the body could meet
it. -/
theorem run_body {place : Nat} {read : Text} {stack : List Char} {found : List Text}
    (hinside : ∀ before a b after, t = before ++ a :: b :: after → isBracket a b = false)
    (hstop : ∀ c, t.getLast? = some c → c ≠ '(') :
    run true (some '*') place ⟨.comment read, stack, found⟩ t
        = .ok ⟨.comment (read ++ t), stack, found⟩ ∧
      marks ⟨.comment read, [], []⟩ t = t.map .hidden := by
  induction t generalizing place read with
  | nil => rw [List.append_nil]; exact ⟨rfl, rfl⟩
  | cons c rest ih =>
    have hrest : run true (some '*') (place + 1) ⟨.comment (read ++ [c]), stack, found⟩ rest
          = .ok ⟨.comment (read ++ [c] ++ rest), stack, found⟩ ∧
        marks ⟨.comment (read ++ [c]), [], []⟩ rest = rest.map .hidden :=
      ih (fun before a b after hr => hinside (c :: before) a b after (by rw [hr]; rfl))
        fun d hd => hstop d (by rw [List.getLast?_cons, hd]; rfl)
    rw [List.append_assoc] at hrest
    -- neither the next character nor the star after the body forms a bracket with this one
    have hpair : ∀ d, rest.head?.or (some '*') = some d → isBracket c d = false := by
      intro d hd
      cases rest with
      | nil =>
        have hne : c ≠ '(' := hstop c rfl
        rw [← Option.some.inj hd]
        simp [isBracket, hne]
      | cons e rest =>
        rw [← Option.some.inj hd]
        exact hinside [] c e rest rfl
    refine ⟨?_, ?_⟩
    · unfold run
      rw [step_body hpair]
      exact hrest.1
    · have hstep : step true 0 ⟨.comment read, [], []⟩ c rest.head?
          = .ok ⟨.comment (read ++ [c]), [], []⟩ :=
        step_body fun d hd => hpair d (by rw [hd]; rfl)
      rw [marks_cons (step_of_strict hstep), hrest.2]
      rfl

/-- **A comment is clean**, and it is what a scan finds in it. -/
theorem clean_enclose (t : Text) : Clean (enclose t) [enclose t] := by
  intro after place stack found _
  have hsafe := sanitize_safe t
  have hbody : run true (some '*') (place + 1 + 1) ⟨.comment ['(', '*'], stack, found⟩ (sanitize t)
      = .ok ⟨.comment (['(', '*'] ++ sanitize t), stack, found⟩ :=
    (run_body hsafe.inside fun c hc => (hsafe.stop c hc).1).1
  have hopen : run true (some '*') place ⟨.code, stack, found⟩ ('(' :: '*' :: sanitize t)
      = .ok ⟨.comment ('(' :: '*' :: sanitize t), stack, found⟩ := hbody
  unfold enclose
  rw [run_append, List.head?_cons, Option.some_or, hopen]
  -- what is left are the two characters of the closing bracket
  have hclose : run true after (place + ('(' :: '*' :: sanitize t).length)
      ⟨.comment ('(' :: '*' :: sanitize t), stack, found⟩ ['*', ')']
        = .ok ⟨.code, stack, found ++ [('(' :: '*' :: sanitize t ++ ['*']) ++ [')']]⟩ := rfl
  rw [List.append_assoc] at hclose
  exact hclose

/-- **Of a comment only the first character is seen in the program.** -/
theorem marks_enclose (t : Text) :
    marks {} (enclose t) = .bare '(' :: ('*' :: sanitize t ++ ['*', ')']).map .hidden := by
  have hsafe := sanitize_safe t
  obtain ⟨hrun, hmarks⟩ :
      run true (some '*') 0 ⟨.comment ['(', '*'], [], []⟩ (sanitize t)
          = .ok ⟨.comment (['(', '*'] ++ sanitize t), [], []⟩ ∧
        marks ⟨.comment ['(', '*'], [], []⟩ (sanitize t) = (sanitize t).map .hidden :=
    run_body hsafe.inside fun c hc => (hsafe.stop c hc).1
  have hbody : marks ⟨.comment ['(', '*'], [], []⟩ (sanitize t ++ ['*', ')'])
      = (sanitize t ++ ['*', ')']).map .hidden := by
    rw [marks_append (u := ['*', ')']) (run_of_strict hrun), hmarks, List.map_append]
    rfl
  exact congrArg (Mark.bare '(' :: Mark.hidden '*' :: ·) hbody

end SmlSynth.Comment
