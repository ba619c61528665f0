import SmlSynth.Text.Classes

/-!
# Scanning a program text

A scanner goes through a text one character at a time and looks at the character after it. It
passes over string constants and comments, keeps the open brackets on a stack and collects the
comments. A strict one also faults at a closing comment bracket that closes nothing.

* `scan`: whether brackets match outside of constants and comments, every constant and comment
  that opens is closed, and no comment opens inside another.
* `comments`: the comments of a text in which comment brackets stand around comments only.
* `run_append`: a scan of two texts is one after the other.
* `infix_of_comments`: what is found stands in the text.
* `Clean`: texts that a scan passes, with their comments, wherever they stand. They can be put
  one after another and between brackets.
-/

namespace SmlSynth

/-- **What is wrong with a text**, with the place where it shows. -/
inductive ScanError where
  | unbalanced (place : Nat)
  | unterminatedString
  | unterminatedComment
  | nestedComment (place : Nat)
  | strayClosing (place : Nat)
deriving Repr, DecidableEq

namespace Scan

/-! ## The scanner -/

/-- **Where a character stands**: in the program, in a string constant, after a backslash there,
or in a gap between two backslashes; as the second character of an opening comment bracket, in
a comment, or as the second character of a closing bracket, with what has been read of it. -/
inductive Mode where
  | code
  | string
  | escape
  | gap
  | opening (read : Text)
  | comment (read : Text)
  | closing (read : Text)
deriving Repr, DecidableEq

/-- What is missing where a text ends. -/
def Mode.unfinished : Mode → Option ScanError
  | code => none
  | string | escape | gap => some .unterminatedString
  | opening _ | comment _ | closing _ => some .unterminatedComment

/-- The bracket that a character closes. -/
def opener? : Char → Option Char
  | ')' => some '('
  | ']' => some '['
  | '}' => some '\x7b'
  | _ => none

/-- Whether a character is an opening bracket. -/
def isOpener (c : Char) : Bool := c == '(' || c == '[' || c == '\x7b'

/-- The open brackets after a character; none if it closes a bracket that is not the last open
one. -/
def bracket (c : Char) (stack : List Char) : Option (List Char) :=
  if isOpener c then some (c :: stack)
  else
    match opener? c with
    | none => some stack
    | some o => if stack.head? = some o then some stack.tail else none

/-- **The state of a scan**: where the next character stands, the open brackets from the innermost
on, and the comments so far. -/
structure State where
  mode : Mode := .code
  stack : List Char := []
  comments : List Text := []

/-- **One step of a scan**, at a character and the one after it. -/
def step (strict : Bool) (place : Nat) (s : State) (c : Char) (ahead : Option Char) :
    Except ScanError State :=
  match s.mode with
  | .code =>
    if c = '\x22' then .ok { s with mode := .string }
    else if c = '(' ∧ ahead = some '*' then .ok { s with mode := .opening [c] }
    else if strict ∧ c = '*' ∧ ahead = some ')' then .error (.strayClosing place)
    else
      match bracket c s.stack with
      | some stack => .ok { s with stack := stack }
      | none => .error (.unbalanced place)
  | .string =>
    if c = '\x22' then .ok { s with mode := .code }
    else if c = '\\' then
      .ok { s with mode := if ahead.any isWhiteSpace then .gap else .escape }
    else .ok s
  | .escape => .ok { s with mode := .string }
  | .gap => if c = '\\' then .ok { s with mode := .string } else .ok s
  | .opening read => .ok { s with mode := .comment (read ++ [c]) }
  | .comment read =>
    if c = '(' ∧ ahead = some '*' then .error (.nestedComment place)
    else if c = '*' ∧ ahead = some ')' then .ok { s with mode := .closing (read ++ [c]) }
    else .ok { s with mode := .comment (read ++ [c]) }
  | .closing read => .ok { s with mode := .code, comments := s.comments ++ [read ++ [c]] }

/-- The steps through a text from a place on, where `after` follows the text. -/
def run (strict : Bool) (after : Option Char) (place : Nat) (s : State) :
    Text → Except ScanError State
  | [] => .ok s
  | c :: rest =>
    match step strict place s c (rest.head?.or after) with
    | .ok s' => run strict after (place + 1) s' rest
    | .error e => .error e

/-- The state after a whole text. -/
def whole (strict : Bool) (t : Text) : Except ScanError State :=
  match run strict none 0 {} t with
  | .error e => .error e
  | .ok s =>
    match s.mode.unfinished with
    | some e => .error e
    | none => if s.stack = [] then .ok s else .error (.unbalanced t.length)

end Scan

/-- **Checks a text**: brackets, constants and comments. -/
def scan (t : Text) : Except ScanError Unit := (Scan.whole false t).map fun _ => ()

/-- **The comments of a text**, read strictly. -/
def comments (t : Text) : Except ScanError (List Text) := (Scan.whole true t).map (·.comments)

example : scan "val s = \"(\\\"[\" (* \x7b *) ()".toList = .ok () := rfl

example : scan "(1, [2)".toList = .error (.unbalanced 6) := rfl

example : scan "(* a (* b *) *)".toList = .error (.nestedComment 5) := rfl

example : comments "op * (* a *) \"*)\"".toList = .ok ["(* a *)".toList] := rfl

namespace Scan

variable {strict : Bool} {place : Nat} {s s' : State} {c : Char} {ahead after : Option Char}
  {t u : Text}

/-! ## One text after another -/

/-- **A scan of two texts is one after the other**; the first one sees the start of the second. -/
theorem run_append (s : State) (t u : Text) :
    run strict after place s (t ++ u) =
      match run strict (u.head?.or after) place s t with
      | .ok s' => run strict after (place + t.length) s' u
      | .error e => .error e := by
  induction t generalizing place s with
  | nil => rfl
  | cons c rest ih =>
    -- only the last character of the first text looks at the second
    have hahead : (rest ++ u).head?.or after = rest.head?.or (u.head?.or after) := by
      cases rest <;> simp
    simp only [List.cons_append, run, hahead]
    cases step strict place s c (rest.head?.or (u.head?.or after)) with
    | error e => rfl
    | ok s' =>
      have hplace : place + (c :: rest).length = place + 1 + rest.length := by
        rw [List.length_cons]; omega
      rw [hplace]
      exact ih s'

/-! ## Steps in the program -/

theorem step_quote (strict : Bool) (place : Nat) (stack : List Char) (found : List Text)
    (ahead : Option Char) :
    step strict place ⟨.code, stack, found⟩ '\x22' ahead = .ok ⟨.string, stack, found⟩ := rfl

/-- **A step over a character of the program** that starts no constant and no comment. -/
theorem step_code {stack stack' : List Char} {found : List Text} (hquote : c ≠ '\x22')
    (hopen : ¬ (c = '(' ∧ ahead = some '*')) (hstray : ¬ (strict ∧ c = '*' ∧ ahead = some ')'))
    (h : bracket c stack = some stack') :
    step strict place ⟨.code, stack, found⟩ c ahead = .ok ⟨.code, stack', found⟩ := by
  simp only [step]
  rw [if_neg hquote, if_neg hopen, if_neg hstray, h]

/-- **What a step in the program has been.** -/
theorem of_step_code {stack : List Char} {found : List Text}
    (h : step strict place ⟨.code, stack, found⟩ c ahead = .ok s') :
    (c = '\x22' ∧ s' = ⟨.string, stack, found⟩) ∨
      (c = '(' ∧ ahead = some '*' ∧ s' = ⟨.opening ['('], stack, found⟩) ∨
      (c ≠ '\x22' ∧ ¬ (c = '(' ∧ ahead = some '*') ∧ ¬ (strict ∧ c = '*' ∧ ahead = some ')') ∧
        ∃ stack', bracket c stack = some stack' ∧ s' = ⟨.code, stack', found⟩) := by
  simp only [step] at h
  split at h
  · rename_i hc; exact .inl ⟨hc, (Except.ok.inj h).symm⟩
  split at h
  · rename_i hc
    obtain ⟨rfl, ha⟩ := hc
    exact .inr (.inl ⟨rfl, ha, (Except.ok.inj h).symm⟩)
  split at h
  · cases h
  split at h
  · rename_i stack' hb
    exact .inr (.inr ⟨‹_›, ‹_›, ‹_›, stack', hb, (Except.ok.inj h).symm⟩)
  · cases h

/-- **A strict step that passes is a step that passes.** -/
theorem step_of_strict (h : step true place s c ahead = .ok s') :
    step false place s c ahead = .ok s' := by
  obtain ⟨mode, stack, found⟩ := s
  cases mode with
  | code =>
    rcases of_step_code h with ⟨rfl, rfl⟩ | ⟨rfl, rfl, rfl⟩ | ⟨hquote, hopen, -, stack', hb, rfl⟩
    · rfl
    · rfl
    · exact step_code hquote hopen (by simp) hb
  | _ => exact h

theorem run_of_strict (h : run true after place s t = .ok s') :
    run false after place s t = .ok s' := by
  induction t generalizing place s with
  | nil => exact h
  | cons c rest ih =>
    unfold run at h ⊢
    split at h
    · rw [step_of_strict ‹_›]; exact ih h
    · cases h

/-! ## A scan inside another -/

/-- The state with more open brackets outside, and more comments before. -/
def State.under (s : State) (stack : List Char) (found : List Text) : State :=
  ⟨s.mode, s.stack ++ stack, found ++ s.comments⟩

theorem bracket_append {stack stack' : List Char} (h : bracket c stack = some stack')
    (outer : List Char) : bracket c (stack ++ outer) = some (stack' ++ outer) := by
  unfold bracket at h ⊢
  split at h
  · rw [if_pos ‹_›, ← Option.some.inj h]; rfl
  rw [if_neg ‹_›]
  split at h
  · rw [Option.some.inj h]
  split at h
  · rename_i ho
    cases stack with
    | nil => cases ho
    | cons top rest => rw [← Option.some.inj h]; exact if_pos ho
  · cases h

/-- A step does not look at the brackets outside. -/
theorem step_under (h : step strict place s c ahead = .ok s') (place' : Nat) (stack : List Char)
    (found : List Text) :
    step strict place' (s.under stack found) c ahead = .ok (s'.under stack found) := by
  obtain ⟨mode, inner, cs⟩ := s
  cases mode with
  | code =>
    rcases of_step_code h with ⟨rfl, rfl⟩ | ⟨rfl, rfl, rfl⟩ | ⟨hquote, hopen, hstray, stack', hb, rfl⟩
    · rfl
    · rfl
    · exact step_code hquote hopen hstray (bracket_append hb stack)
  | escape => rw [← Except.ok.inj h]; rfl
  | opening read => rw [← Except.ok.inj h]; rfl
  | closing read =>
    rw [← Except.ok.inj h]
    simp only [step, State.under, List.append_assoc]
  | string =>
    simp only [step] at h ⊢
    simp only [State.under]
    split at h
    · rw [if_pos ‹_›, ← Except.ok.inj h]
    rw [if_neg ‹_›]
    split at h
    · rw [if_pos ‹_›, ← Except.ok.inj h]
    · rw [if_neg ‹_›, ← Except.ok.inj h]
  | gap =>
    simp only [step] at h ⊢
    simp only [State.under]
    split at h
    · rw [if_pos ‹_›, ← Except.ok.inj h]
    · rw [if_neg ‹_›, ← Except.ok.inj h]
  | comment read =>
    simp only [step] at h ⊢
    simp only [State.under]
    split at h
    · cases h
    rw [if_neg ‹_›]
    split at h
    · rw [if_pos ‹_›, ← Except.ok.inj h]
    · rw [if_neg ‹_›, ← Except.ok.inj h]

theorem run_under (h : run strict after place s t = .ok s') (place' : Nat) (stack : List Char)
    (found : List Text) :
    run strict after place' (s.under stack found) t = .ok (s'.under stack found) := by
  induction t generalizing place place' s with
  | nil => rw [Except.ok.inj h]; rfl
  | cons c rest ih =>
    unfold run at h ⊢
    split at h
    · rw [step_under ‹_›]; exact ih h _
    · cases h

/-! ## A scan before another -/

/-- A last step that ends in the program, with no open bracket, looks ahead only at a star. -/
theorem step_before (h : step strict place s c none = .ok s') (hmode : s'.mode = .code)
    (hstack : s'.stack = []) (hlast : c = '*' → after ≠ some ')') :
    step strict place s c after = .ok s' := by
  obtain ⟨mode, stack, found⟩ := s
  cases mode with
  | code =>
    rcases of_step_code h with ⟨-, rfl⟩ | ⟨-, ha, -⟩ | ⟨hquote, -, -, stack', hb, rfl⟩
    · cases hmode
    · cases ha
    · -- an opening parenthesis would still be open
      have hparen : c ≠ '(' := by
        rintro rfl
        have hpush : '(' :: stack = stack' := Option.some.inj hb
        rw [← hpush] at hstack
        cases hstack
      exact step_code hquote (fun hc => hparen hc.1) (fun hc => hlast hc.2.1 hc.2.2) hb
  | closing read => exact h
  | string =>
    simp only [step] at h ⊢
    split at h
    · rw [if_pos ‹_›]; exact h
    · split at h <;> rw [← Except.ok.inj h] at hmode <;> cases hmode
  | gap =>
    simp only [step] at h
    split at h <;> rw [← Except.ok.inj h] at hmode <;> cases hmode
  | comment read =>
    simp only [step] at h
    split at h
    · cases h
    · split at h <;> rw [← Except.ok.inj h] at hmode <;> cases hmode
  | _ => rw [← Except.ok.inj h] at hmode; cases hmode

/-- **A scan that ends in the program** with no open bracket passes before any other text, unless
a star and a parenthesis meet there. -/
theorem run_before (h : run strict none place s t = .ok s') (hmode : s'.mode = .code)
    (hstack : s'.stack = []) (hlast : t.getLast? = some '*' → after ≠ some ')') :
    run strict after place s t = .ok s' := by
  induction t generalizing place s with
  | nil => exact h
  | cons c rest ih =>
    unfold run at h ⊢
    cases rest with
    | cons d rest =>
      rw [List.getLast?_cons_cons] at hlast
      simp only [List.head?_cons, Option.some_or] at h ⊢
      split at h
      · exact ih h hlast
      · cases h
    | nil =>
      simp only [List.head?_nil, Option.none_or] at h ⊢
      split at h
      · rename_i s₁ hs
        obtain rfl : s₁ = s' := Except.ok.inj h
        rw [step_before hs hmode hstack fun hc => hlast (by rw [hc]; rfl)]
        rfl
      · cases h

/-! ## What a scan collects -/

/-- What has been read of an open comment. -/
def Mode.read : Mode → Text
  | opening read | comment read | closing read => read
  | _ => []

/-- What is collected from a text `t`: the open comment stands at its end, and the comments found
stand in it. -/
structure Within (t : Text) (s : State) : Prop where
  read : s.mode.read <:+ t
  found : ∀ x ∈ s.comments, x <:+: t

theorem suffix_snoc {x : Text} (h : x <:+ t) (c : Char) : x ++ [c] <:+ t ++ [c] := by
  obtain ⟨p, rfl⟩ := h
  exact ⟨p, by rw [List.append_assoc]⟩

theorem within_step (hs : Within t s) (h : step strict place s c ahead = .ok s') :
    Within (t ++ [c]) s' := by
  have hnil : [] <:+ t ++ [c] := List.nil_suffix
  have hkept : ∀ x ∈ s.comments, x <:+: t ++ [c] := fun x hx =>
    (hs.found x hx).trans (List.prefix_append t [c]).isInfix
  have hmore : s.mode.read ++ [c] <:+ t ++ [c] := suffix_snoc hs.read c
  obtain ⟨mode, stack, found⟩ := s
  cases mode with
  | code =>
    rcases of_step_code h with ⟨-, rfl⟩ | ⟨rfl, -, rfl⟩ | ⟨-, -, -, stack', -, rfl⟩
    · exact ⟨hnil, hkept⟩
    · exact ⟨hmore, hkept⟩
    · exact ⟨hnil, hkept⟩
  | escape => rw [← Except.ok.inj h]; exact ⟨hnil, hkept⟩
  | opening read => rw [← Except.ok.inj h]; exact ⟨hmore, hkept⟩
  | closing read =>
    rw [← Except.ok.inj h]
    refine ⟨hnil, fun x hx => ?_⟩
    rcases List.mem_append.1 hx with hx | hx
    · exact hkept x hx
    · rw [List.mem_singleton.1 hx]; exact hmore.isInfix
  | string =>
    simp only [step] at h
    split at h
    · rw [← Except.ok.inj h]; exact ⟨hnil, hkept⟩
    split at h
    · rw [← Except.ok.inj h]
      refine ⟨?_, hkept⟩
      show Mode.read (if _ then _ else _) <:+ _
      split <;> exact hnil
    · rw [← Except.ok.inj h]; exact ⟨hnil, hkept⟩
  | gap =>
    simp only [step] at h
    split at h <;> rw [← Except.ok.inj h] <;> exact ⟨hnil, hkept⟩
  | comment read =>
    simp only [step] at h
    split at h
    · cases h
    · split at h <;> rw [← Except.ok.inj h] <;> exact ⟨hmore, hkept⟩

theorem within_run (hs : Within t s) (h : run strict after place s u = .ok s') :
    Within (t ++ u) s' := by
  induction u generalizing t place s with
  | nil => rw [List.append_nil, ← Except.ok.inj h]; exact hs
  | cons c rest ih =>
    unfold run at h
    split at h
    · have hrest := ih (within_step hs ‹_›) h
      rw [List.append_assoc] at hrest
      exact hrest
    · cases h

theorem whole_ok (h : whole strict t = .ok s) :
    run strict none 0 {} t = .ok s ∧ s.mode = .code ∧ s.stack = [] := by
  unfold whole at h
  split at h
  · cases h
  · rename_i s' hrun
    split at h
    · cases h
    · rename_i hmode
      split at h
      · rename_i hstack
        obtain rfl : s' = s := Except.ok.inj h
        refine ⟨hrun, ?_, hstack⟩
        revert hmode
        cases s'.mode <;> simp [Mode.unfinished]
      · cases h

/-- **The comments of a text stand in it.** -/
theorem infix_of_comments {cs : List Text} (h : comments t = .ok cs) : ∀ x ∈ cs, x <:+: t := by
  unfold comments at h
  cases hw : whole true t with
  | error e => rw [hw] at h; cases h
  | ok s =>
    rw [hw] at h
    obtain rfl : s.comments = cs := Except.ok.inj h
    have hstart : Within [] {} := ⟨List.nil_suffix, fun x hx => by cases hx⟩
    exact (within_run hstart (whole_ok hw).1).found

/-! ## Texts that a scan passes -/

/-- **A clean text**: a strict scan passes it wherever it stands in the program, as long as no
parenthesis comes right after a star at its end. It leaves the open brackets as they are and finds
the comments `cs`. -/
def Clean (t : Text) (cs : List Text) : Prop :=
  ∀ after place stack found, (t.getLast? = some '*' → after ≠ some ')') →
    run true after place ⟨.code, stack, found⟩ t = .ok ⟨.code, stack, found ++ cs⟩

/-- A text whose comments can be read is clean. -/
theorem clean_of_comments {cs : List Text} (h : comments t = .ok cs) : Clean t cs := by
  intro after place stack found hlast
  unfold comments at h
  cases hw : whole true t with
  | error e => rw [hw] at h; cases h
  | ok s =>
    rw [hw] at h
    obtain ⟨mode, inner, found'⟩ := s
    obtain ⟨hrun, rfl, rfl⟩ := whole_ok hw
    obtain rfl : found' = cs := Except.ok.inj h
    have hunder := run_under (run_before hrun rfl rfl hlast) place stack found
    simpa only [State.under, List.nil_append, List.append_nil] using hunder

theorem Clean.whole {cs : List Text} (h : Clean t cs) : Scan.whole true t = .ok ⟨.code, [], cs⟩ := by
  unfold Scan.whole
  have hrun : run true none 0 {} t = .ok ⟨.code, [], cs⟩ := h none 0 [] [] fun _ => by simp
  rw [hrun]
  rfl

/-- The comments of a clean text. -/
theorem Clean.comments {cs : List Text} (h : Clean t cs) : comments t = .ok cs := by
  unfold SmlSynth.comments; rw [h.whole]; rfl

/-- **A clean text is accepted.** -/
theorem Clean.scan {cs : List Text} (h : Clean t cs) : scan t = .ok () := by
  have hrun : run true none 0 {} t = .ok ⟨.code, [], cs⟩ := h none 0 [] [] fun _ => by simp
  unfold SmlSynth.scan Scan.whole
  rw [run_of_strict hrun]
  rfl

/-- A clean text does not start with a closing bracket. -/
theorem Clean.head?_ne {cs : List Text} (h : Clean t cs) : t.head? ≠ some ')' := by
  cases t with
  | nil => simp
  | cons c rest =>
    rintro hc
    obtain rfl : c = ')' := Option.some.inj hc
    have hrun := h none 0 [] [] fun _ => by simp
    unfold run at hrun
    cases hrun

theorem clean_nil : Clean [] [] := fun _ _ _ _ _ => by rw [List.append_nil]; rfl

/-- **Clean texts make a clean text**, one after the other. -/
theorem Clean.append {cs ds : List Text} (h : Clean t cs) (h' : Clean u ds) :
    Clean (t ++ u) (cs ++ ds) := by
  intro after place stack found hlast
  cases u with
  | nil =>
    -- an empty text is scanned without a step, so no comment is found in it
    have hds : ds = [] := by
      have hrun := h' none 0 [] [] fun _ => by simp
      have := Except.ok.inj hrun
      simpa using (congrArg State.comments this).symm
    rw [List.append_nil] at hlast ⊢
    rw [hds, List.append_nil]
    exact h after place stack found hlast
  | cons c rest =>
    -- a star at the end of the first text does not meet a closing parenthesis
    have hne := h'.head?_ne
    rw [List.head?_cons] at hne
    rw [run_append, List.head?_cons, Option.some_or, h _ _ _ _ fun _ => hne]
    rw [← List.append_assoc]
    exact h' _ _ _ _ fun hl => hlast (by rw [List.getLast?_append, hl]; rfl)

/-- Characters that a scan of the program passes without a change. -/
def plain (c : Char) : Bool := c != '\x22' && !isOpener c && (opener? c).isNone

theorem clean_char (h : plain c = true) : Clean [c] [] := by
  intro after place stack found hlast
  unfold plain at h
  simp only [Bool.and_eq_true, bne_iff_ne, Bool.not_eq_true', Option.isNone_iff_eq_none] at h
  obtain ⟨⟨hquote, hopener⟩, hcloser⟩ := h
  have hb : bracket c stack = some stack := by
    unfold bracket; rw [if_neg (by rw [hopener]; simp), hcloser]
  have hparen : c ≠ '(' := by rintro rfl; cases hopener
  have hstep : step true place ⟨.code, stack, found⟩ c after = .ok ⟨.code, stack, found⟩ := by
    refine step_code hquote (fun hc => hparen hc.1) (fun hc => ?_) hb
    exact hlast (by rw [hc.2.1]; rfl) hc.2.2
  rw [List.append_nil]
  simp only [run, List.head?_nil, Option.none_or, hstep]

theorem clean_of_plain (h : ∀ c ∈ t, plain c = true) : Clean t [] := by
  induction t with
  | nil => exact clean_nil
  | cons c rest ih =>
    have hrest := ih fun d hd => h d (List.mem_cons_of_mem _ hd)
    exact (clean_char (h c (List.mem_cons_self ..))).append hrest

theorem of_opener? {o d : Char} (h : opener? d = some o) :
    (d = ')' ∧ o = '(') ∨ (d = ']' ∧ o = '[') ∨ (d = '}' ∧ o = '\x7b') := by
  unfold opener? at h
  split at h
  · exact .inl ⟨rfl, (Option.some.inj h).symm⟩
  · exact .inr (.inl ⟨rfl, (Option.some.inj h).symm⟩)
  · exact .inr (.inr ⟨rfl, (Option.some.inj h).symm⟩)
  · cases h

/-- **A step over an opening bracket** that starts no comment. -/
theorem step_open {o d : Char} (hd : opener? d = some o) (hahead : o = '(' → ahead ≠ some '*')
    (stack : List Char) (found : List Text) :
    step strict place ⟨.code, stack, found⟩ o ahead = .ok ⟨.code, o :: stack, found⟩ := by
  have hne : o ≠ '\x22' ∧ o ≠ '*' ∧ isOpener o = true := by
    rcases of_opener? hd with ⟨-, rfl⟩ | ⟨-, rfl⟩ | ⟨-, rfl⟩ <;> decide
  refine step_code hne.1 (fun hc => hahead hc.1 hc.2) (fun hc => hne.2.1 hc.2.1) ?_
  unfold bracket; rw [if_pos hne.2.2]

/-- What comes after the opening bracket is no star, if the text in the brackets starts with none. -/
theorem ahead_open {o d : Char} (hd : opener? d = some o) (hfirst : o = '(' → t.head? ≠ some '*')
    (ho : o = '(') : (t ++ [d]).head? ≠ some '*' := by
  cases t with
  | cons c rest => exact hfirst ho
  | nil => rcases of_opener? hd with ⟨rfl, -⟩ | ⟨rfl, -⟩ | ⟨rfl, -⟩ <;> decide

/-- **A clean text in brackets is clean**, if no star touches a parenthesis. -/
theorem Clean.enclose {cs : List Text} {o d : Char} (h : Clean t cs) (hd : opener? d = some o)
    (hfirst : o = '(' → t.head? ≠ some '*') (hlast : d = ')' → t.getLast? ≠ some '*') :
    Clean (o :: t ++ [d]) cs := by
  intro after place stack found _
  have hopen : step true place ⟨.code, stack, found⟩ o ((t ++ [d]).head?.or after)
      = .ok ⟨.code, o :: stack, found⟩ := by
    refine step_open hd (fun ho => ?_) stack found
    have hahead := ahead_open hd hfirst ho
    cases t <;> exact hahead
  have hclose : step true (place + 1 + t.length) ⟨.code, o :: stack, found ++ cs⟩ d after
      = .ok ⟨.code, stack, found ++ cs⟩ := by
    rcases of_opener? hd with ⟨rfl, rfl⟩ | ⟨rfl, rfl⟩ | ⟨rfl, rfl⟩ <;> rfl
  -- inside, the text stands on one more open bracket and before its closing one
  have hinner : run true (some d) (place + 1) ⟨.code, o :: stack, found⟩ t
      = .ok ⟨.code, o :: stack, found ++ cs⟩ :=
    h _ _ _ _ fun hl hc => hlast (Option.some.inj hc) hl
  simp only [List.cons_append, run, hopen]
  rw [run_append, List.head?_cons, Option.some_or, hinner]
  simp only [run, List.head?_nil, Option.none_or, hclose]

/-! ## String constants -/

/-- **A part of a string constant**: a scan passes it and stays in the constant. -/
def Part (t : Text) : Prop :=
  ∀ after place stack found,
    run true after place ⟨.string, stack, found⟩ t = .ok ⟨.string, stack, found⟩

theorem part_nil : Part [] := fun _ _ _ _ => rfl

theorem Part.append (h : Part t) (h' : Part u) : Part (t ++ u) := by
  intro after place stack found
  rw [run_append, h]
  exact h' _ _ _ _

theorem part_char (hquote : c ≠ '\x22') (hslash : c ≠ '\\') : Part [c] := by
  intro after place stack found
  simp only [run, step]
  rw [if_neg hquote, if_neg hslash]

/-- A backslash takes the next character with it, unless that is white space. -/
theorem part_escape (h : isWhiteSpace c = false) : Part ['\\', c] := by
  intro after place stack found
  have hstep : step true place ⟨.string, stack, found⟩ '\\' (some c)
      = .ok ⟨.escape, stack, found⟩ := by
    simp only [step, Option.any_some, h]
    rfl
  simp only [run, List.head?_cons, Option.some_or, hstep]
  rfl

/-- **A string constant is clean**, whatever its parts. -/
theorem clean_string (h : Part t) : Clean ('\x22' :: t ++ ['\x22']) [] := by
  intro after place stack found _
  simp only [List.cons_append, run, step_quote]
  rw [run_append, h, List.append_nil]
  rfl

end Scan

end SmlSynth
