import SmlSynth.Proofs.Scan

/-!
# What a scan sees of a text

At each character a scan knows whether it stands in the program, and how many brackets are open.
What is seen of clean texts is put together as they are: one after the other, and a bracket higher
between brackets. Of constants and comments only the first character is seen in the program.

* `Scan.Mark`, `Scan.marks`: the characters of a text as a scan sees them.
* `nesting`, `programText`: the greatest number of open brackets, and what stands in the program.
* `Clean.marks_append`, `Clean.marks_enclose`: the marks of clean texts put together.
* `Hidden`, `marks_string`: the parts of string constants, of which nothing is seen.
-/

namespace SmlSynth

namespace Scan

/-! ## Marks -/

/-- **A character as a scan sees it**: whether it stands in the program, and how many brackets are
open before it. -/
structure Mark where
  char : Char
  code : Bool
  height : Nat
deriving Repr, DecidableEq

namespace Mark

/-- A character of the program, outside of brackets. -/
def bare (c : Char) : Mark := ⟨c, true, 0⟩

/-- A character of a constant or a comment, outside of brackets. -/
def hidden (c : Char) : Mark := ⟨c, false, 0⟩

/-- The same character within more brackets. -/
def raise (n : Nat) (m : Mark) : Mark := { m with height := m.height + n }

end Mark

/-- How a scan sees a character. -/
def State.mark (s : State) (c : Char) : Mark := ⟨c, decide (s.mode = .code), s.stack.length⟩

/-- **The characters of a text as a scan sees them**, as far as it comes. -/
def marks (s : State) : Text → List Mark
  | [] => []
  | c :: rest =>
    s.mark c ::
      match step false 0 s c rest.head? with
      | .ok s' => marks s' rest
      | .error _ => []

/-- The greatest number of brackets that are open before one of some characters. -/
def peak (ms : List Mark) : Nat := ms.foldr (fun m n => max m.height n) 0

/-- What stands in the program, and blanks for the rest. -/
def shown (ms : List Mark) : Text := ms.map fun m => if m.code then m.char else ' '

end Scan

/-- **The nesting of a text**: the greatest number of brackets that are open at once in a scan. -/
def nesting (t : Text) : Nat :=
  max (Scan.peak (Scan.marks {} t))
    (match Scan.run false none 0 {} t with
    | .ok s => s.stack.length
    | .error _ => 0)

/-- **What stands in the program** of a text, with blanks for constants and comments. -/
def programText (t : Text) : Text := Scan.shown (Scan.marks {} t)

example : nesting "f (a, [b, \"(((\"]) ()".toList = 2 := rfl

example : programText "val s = \"in\" (* end *)".toList = "val s = \"    (        ".toList := rfl

namespace Scan

variable {strict : Bool} {place : Nat} {s s' : State} {c : Char} {after : Option Char}
  {t u : Text} {cs ds : List Text}

/-! ## One text after another -/

theorem marks_single (s : State) (c : Char) : marks s [c] = [s.mark c] := by
  unfold marks
  split <;> rfl

theorem marks_cons (h : step false 0 s c t.head? = .ok s') :
    marks s (c :: t) = s.mark c :: marks s' t := by
  rw [marks, h]

/-- The place of a step shows only where it fails. -/
theorem step_place (h : step strict place s c after = .ok s') (place' : Nat) :
    step strict place' s c after = .ok s' := by
  have hunder := step_under h place' [] []
  simpa only [State.under, List.append_nil, List.nil_append] using hunder

/-- **The marks of two texts are those of one and then of the other**, where the scan of the first
one passes. -/
theorem marks_append (h : run false u.head? place s t = .ok s') :
    marks s (t ++ u) = marks s t ++ marks s' u := by
  induction t generalizing place s with
  | nil => rw [Except.ok.inj h]; rfl
  | cons c rest ih =>
    have hahead : (rest ++ u).head? = rest.head?.or u.head? := by cases rest <;> simp
    unfold run at h
    split at h
    · rename_i s₁ hstep
      simp only [List.cons_append, marks, hahead, step_place hstep 0, ih h]
      cases rest with
      -- the last character of the first text looks at the second, but nothing is seen after it
      | nil => split <;> rfl
      | cons d rest =>
        simp only [List.head?_cons, Option.some_or] at hstep ⊢
        rw [step_place hstep 0]
    · cases h

/-- What a scan that passes does at a character with another one after it. -/
theorem of_run_cons {d : Char} (h : run false after place s (c :: d :: t) = .ok s') :
    ∃ s₁, step false 0 s c (some d) = .ok s₁ ∧ run false after (place + 1) s₁ (d :: t) = .ok s' ∧
      marks s (c :: d :: t) = s.mark c :: marks s₁ (d :: t) := by
  unfold run at h
  simp only [List.head?_cons, Option.some_or] at h
  split at h
  · rename_i s₁ hstep
    have hstep' := step_place hstep 0
    exact ⟨s₁, hstep', h, marks_cons hstep'⟩
  · cases h

/-- Where a scan passes, every character is seen. -/
theorem length_marks (h : run false after place s t = .ok s') : (marks s t).length = t.length := by
  induction t generalizing place s with
  | nil => rfl
  | cons c rest ih =>
    cases rest with
    | nil => rw [marks_single]; rfl
    | cons d rest =>
      obtain ⟨s₁, -, hrest, hmarks⟩ := of_run_cons h
      rw [hmarks, List.length_cons, ih hrest]
      rfl

/-! ## A scan inside another -/

/-- **Within more brackets the same is seen**, as much higher. -/
theorem marks_under (h : run false after place s t = .ok s') (stack : List Char)
    (found : List Text) :
    marks (s.under stack found) t = (marks s t).map (·.raise stack.length) := by
  have hmark : ∀ (s : State) c, (s.under stack found).mark c = (s.mark c).raise stack.length := by
    intro s c
    exact congrArg (Mark.mk c (decide (s.mode = .code))) List.length_append
  induction t generalizing place s with
  | nil => rfl
  | cons c rest ih =>
    cases rest with
    | nil => rw [marks_single, marks_single, hmark]; rfl
    | cons d rest =>
      obtain ⟨s₁, hstep, hrest, hmarks⟩ := of_run_cons h
      have hunder := step_under hstep 0 stack found
      rw [hmarks, marks_cons hunder, ih hrest, hmark]
      rfl

/-! ## Clean texts -/

/-- A scan of a clean text from within the program, before another clean text. -/
theorem Clean.run_head (h : Clean t cs) (h' : Clean u ds) (found : List Text) :
    run false u.head? 0 ⟨.code, [], found⟩ t = .ok ⟨.code, [], found ++ cs⟩ :=
  run_of_strict (h u.head? 0 [] found fun _ => h'.head?_ne)

/-- **A clean text looks the same wherever it stands**, but for the brackets around it. -/
theorem Clean.marks_under (h : Clean t cs) (stack : List Char) (found : List Text) :
    marks ⟨.code, stack, found⟩ t = (marks {} t).map (·.raise stack.length) := by
  have hrun : run false none 0 {} t = .ok ⟨.code, [], cs⟩ := h.run_head clean_nil []
  have hunder := Scan.marks_under hrun stack found
  simpa only [State.under, List.nil_append, List.append_nil] using hunder

theorem map_raise_zero (ms : List Mark) : ms.map (·.raise 0) = ms := List.map_id ms

theorem Clean.marks_append (h : Clean t cs) (h' : Clean u ds) :
    marks {} (t ++ u) = marks {} t ++ marks {} u := by
  rw [Scan.marks_append (h.run_head h' []), h'.marks_under]
  exact congrArg _ (map_raise_zero _)

/-- **Brackets lift what is seen between them.** -/
theorem Clean.marks_enclose {o d : Char} (h : Clean t cs) (hd : opener? d = some o)
    (hfirst : o = '(' → t.head? ≠ some '*') (hlast : d = ')' → t.getLast? ≠ some '*') :
    marks {} (o :: t ++ [d])
      = .bare o :: ((marks {} t).map (·.raise 1) ++ [(Mark.bare d).raise 1]) := by
  have hopen : step false 0 {} o (t ++ [d]).head? = .ok ⟨.code, [o], []⟩ :=
    step_open hd (ahead_open hd hfirst) [] []
  have hinner : run false ([d] : Text).head? 0 ⟨.code, [o], []⟩ t = .ok ⟨.code, [o], [] ++ cs⟩ :=
    run_of_strict (h (some d) 0 [o] [] fun hl hc => hlast (Option.some.inj hc) hl)
  rw [List.cons_append, marks_cons hopen, Scan.marks_append hinner, marks_single, h.marks_under]
  rfl

/-- All of a plain text is seen. -/
theorem marks_plain (h : ∀ c ∈ t, plain c = true) : marks {} t = t.map .bare := by
  induction t with
  | nil => rfl
  | cons c rest ih =>
    have hc := clean_char (h c (List.mem_cons_self ..))
    have hrest : ∀ d ∈ rest, plain d = true := fun d hd => h d (List.mem_cons_of_mem _ hd)
    have happend := hc.marks_append (clean_of_plain hrest)
    rw [List.singleton_append, marks_single, ih hrest] at happend
    exact happend

/-- Every character of a clean text stands in the program or is blanked out. -/
theorem Clean.length_programText (h : Clean t cs) : (programText t).length = t.length := by
  have hrun : run false none 0 {} t = .ok ⟨.code, [], cs⟩ := h.run_head clean_nil []
  exact (List.length_map _).trans (length_marks hrun)

/-- The nesting of a clean text shows at its characters. -/
theorem Clean.nesting (h : Clean t cs) : nesting t = peak (marks {} t) := by
  have hrun : run false none 0 {} t = .ok ⟨.code, [], cs⟩ := h.run_head clean_nil []
  unfold SmlSynth.nesting
  rw [hrun]
  exact Nat.max_eq_left (Nat.zero_le _)

/-! ## String constants -/

/-- **A part of a string constant** of which nothing is seen in the program. -/
structure Hidden (t : Text) : Prop where
  part : Part t
  marks : marks ⟨.string, [], []⟩ t = t.map .hidden

theorem hidden_nil : Hidden [] := ⟨part_nil, rfl⟩

theorem Hidden.append (h : Hidden t) (h' : Hidden u) : Hidden (t ++ u) where
  part := h.part.append h'.part
  marks := by
    have hrun : run false u.head? 0 ⟨.string, [], []⟩ t = .ok ⟨.string, [], []⟩ :=
      run_of_strict (h.part _ _ _ _)
    rw [marks_append hrun, h.marks, h'.marks, List.map_append]

theorem hidden_char (hquote : c ≠ '\x22') (hslash : c ≠ '\\') : Hidden [c] :=
  ⟨part_char hquote hslash, marks_single _ c⟩

theorem hidden_escape (h : isWhiteSpace c = false) : Hidden ['\\', c] where
  part := part_escape h
  marks := by
    have hstep : step false 0 ⟨.string, [], []⟩ '\\' (some c) = .ok ⟨.escape, [], []⟩ := by
      simp only [step, Option.any_some, h]
      rfl
    rw [marks_cons hstep, marks_single]
    rfl

theorem hidden_flatten {ts : List Text} (h : ∀ t ∈ ts, Hidden t) : Hidden ts.flatten := by
  induction ts with
  | nil => exact hidden_nil
  | cons t rest ih =>
    exact (h t (List.mem_cons_self ..)).append (ih fun u hu => h u (List.mem_cons_of_mem _ hu))

/-- **Of a string constant only the first quote is seen in the program.** -/
theorem marks_string (h : Hidden t) :
    marks {} ('\x22' :: t ++ ['\x22']) = .bare '\x22' :: (t ++ ['\x22']).map .hidden := by
  have hrun : run false ['\x22'].head? 0 ⟨.string, [], []⟩ t = .ok ⟨.string, [], []⟩ :=
    run_of_strict (h.part _ _ _ _)
  have hrest : marks ⟨.string, [], []⟩ (t ++ ['\x22']) = (t ++ ['\x22']).map .hidden := by
    rw [marks_append hrun, h.marks, marks_single, List.map_append]
    rfl
  exact congrArg (Mark.bare '\x22' :: ·) hrest

end Scan

end SmlSynth
