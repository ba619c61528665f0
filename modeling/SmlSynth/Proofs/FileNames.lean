import SmlSynth.Command.Run
import SmlSynth.Proofs.Places

/-!
# What the name of a file says

The file of a fixture is named by its number, its length and the seed of the batch, between
underscores. No number has an underscore in it, so all three can be read back from the name.

* `Text.pieces_append`, `Text.pieces_eq_self`: the pieces of a text.
* `Digits.natural?_toDigits`, `Arguments.integer?_toString`: numbers that are written and read
  again.
* `Run.readFileName?`: the number, the length and the seed in a name.
* `Run.readFileName?_fileName`: they are those of the file, so that names of different files differ.
* `Run.plain_fileName`: a file's name stays in its directory.
-/

namespace SmlSynth

/-! ## Pieces -/

namespace Text

variable {separator : Char} {xs : Text}

theorem pieces_append (h : separator ∉ xs) (ys : Text) :
    pieces separator (xs ++ separator :: ys) = xs :: pieces separator ys := by
  induction xs with
  | nil => rw [List.nil_append, pieces, if_pos rfl]
  | cons c cs ih =>
    rw [List.mem_cons, not_or] at h
    obtain ⟨hc, hcs⟩ := h
    rw [List.cons_append, pieces, if_neg (Ne.symm hc), ih hcs]

theorem pieces_eq_self (h : separator ∉ xs) : pieces separator xs = [xs] := by
  induction xs with
  | nil => rfl
  | cons c cs ih =>
    rw [List.mem_cons, not_or] at h
    obtain ⟨hc, hcs⟩ := h
    rw [pieces, if_neg (Ne.symm hc), ih hcs]

end Text

/-! ## Numbers -/

theorem isDigit_of_mem_toDigits {n : Nat} {c : Char} (h : c ∈ Nat.toDigits 10 n) :
    c.isDigit = true := Nat.isDigit_of_mem_toDigits (by decide) (by decide) h

theorem notMem_toDigits {c : Char} (hc : c.isDigit = false) (n : Nat) : c ∉ Nat.toDigits 10 n := by
  intro h
  rw [isDigit_of_mem_toDigits h] at hc
  cases hc

theorem toList_toString (n : Nat) : (toString n).toList = Nat.toDigits 10 n := by
  rw [Nat.toString_eq_ofList_toDigits, String.toList_ofList]

/-- **A number that is written is read back.** -/
theorem Digits.natural?_toDigits (n : Nat) : natural? (Nat.toDigits 10 n) = some n := by
  have hdigits : (Nat.toDigits 10 n).all Char.isDigit = true :=
    List.all_eq_true.2 fun c hc => isDigit_of_mem_toDigits hc
  unfold natural?
  rw [if_pos ⟨Nat.toDigits_ne_nil, hdigits⟩, Nat.ofDigitChars_ten_toDigits]

theorem int64?_toInt (x : Int64) : int64? x.toInt = some x := by
  have hlow := x.le_toInt
  have hhigh := x.toInt_lt
  unfold int64?
  rw [if_pos (by omega), Int64.ofInt_toInt]

theorem toList_toString_negSucc (n : Nat) :
    (toString (Int.negSucc n)).toList = '-' :: Nat.toDigits 10 (n + 1) := by
  show ("-" ++ toString (n + 1)).toList = _
  rw [String.toList_append, toList_toString]
  rfl

namespace Arguments

variable {s : String} {n : Nat}

/-- What starts with a digit has no sign. -/
theorem integer?_of_digits (h : s.toList = Nat.toDigits 10 n) : integer? s = int64? n := by
  have hsign : ∀ c, c.isDigit = false → ∀ cs, Nat.toDigits 10 n ≠ c :: cs := by
    rintro c hc cs htext
    exact notMem_toDigits hc n (htext ▸ List.mem_cons_self ..)
  unfold integer?
  rw [h]
  split
  · rename_i htext; exact absurd htext (hsign '-' (by decide) _)
  · rename_i htext; exact absurd htext (hsign '+' (by decide) _)
  · simp only [Digits.natural?_toDigits, Option.bind_some]

theorem integer?_of_minus (h : s.toList = '-' :: Nat.toDigits 10 n) :
    integer? s = int64? (-(n : Int)) := by
  unfold integer?
  rw [h]
  simp only [Digits.natural?_toDigits, Option.bind_some]

/-- **A seed that is written is read back.** -/
theorem integer?_toString (x : Int64) : integer? (toString x.toInt) = some x := by
  have hx := int64?_toInt x
  cases hi : x.toInt with
  | ofNat n =>
    rw [hi] at hx
    exact (integer?_of_digits (toList_toString n)).trans hx
  | negSucc n =>
    rw [hi, Int.negSucc_eq] at hx
    exact (integer?_of_minus (toList_toString_negSucc n)).trans hx

end Arguments

/-! ## Names -/

namespace Run

/-- **What the name of a file says**: the number of the fixture, its length, and the seed of its
batch. -/
def readFileName? (name : String) : Option (Nat × Nat × Int64) :=
  match Text.pieces '_' name.toList with
  | [_, number, length, last] => do
    return (← Digits.natural? number, ← Digits.natural? length,
      ← Arguments.integer? (String.ofList (last.takeWhile (· ≠ '.'))))
  | _ => none

/-- The characters of a file's name. -/
theorem toList_fileName (seed : Int64) (f : Fixture) :
    (fileName seed f).toList = "Program".toList ++ '_' :: (Nat.toDigits 10 (f.index + 1) ++
      '_' :: (Nat.toDigits 10 f.text.length ++
        '_' :: ((toString seed.toInt).toList ++ ".sml".toList))) := by
  have hhead : "Program_".toList = "Program".toList ++ ['_'] := by decide
  have hbar : "_".toList = ['_'] := by decide
  simp only [fileName, String.toList_append, toList_toString, hhead, hbar, List.append_assoc,
    List.cons_append, List.nil_append]

theorem notMem_toString {c : Char} (hc : c.isDigit = false) (hsign : c ≠ '-') (i : Int) :
    c ∉ (toString i).toList := by
  cases i with
  | ofNat n => exact (toList_toString n).symm ▸ notMem_toDigits hc n
  | negSucc n =>
    rw [toList_toString_negSucc, List.mem_cons, not_or]
    exact ⟨hsign, notMem_toDigits hc _⟩

/-- **The name of a file says what it is the file of.** -/
theorem readFileName?_fileName (seed : Int64) (f : Fixture) :
    readFileName? (fileName seed f) = some (f.index + 1, f.text.length, seed) := by
  have hdigits : ∀ n, '_' ∉ Nat.toDigits 10 n := notMem_toDigits (by decide)
  have hlast : '_' ∉ (toString seed.toInt).toList ++ ".sml".toList := by
    rw [List.mem_append, not_or]
    exact ⟨notMem_toString (by decide) (by decide) _, by decide⟩
  have hpieces : Text.pieces '_' (fileName seed f).toList =
      ["Program".toList, Nat.toDigits 10 (f.index + 1), Nat.toDigits 10 f.text.length,
        (toString seed.toInt).toList ++ ".sml".toList] := by
    rw [toList_fileName, Text.pieces_append (by decide), Text.pieces_append (hdigits _),
      Text.pieces_append (hdigits _), Text.pieces_eq_self hlast]
  -- the seed ends at the first point
  have hseed : ((toString seed.toInt).toList ++ ".sml".toList).takeWhile (· ≠ '.')
      = (toString seed.toInt).toList := by
    rw [List.takeWhile_append_of_pos fun c hc => ?_]
    · exact List.append_nil _
    · have hpoint : '.' ∉ (toString seed.toInt).toList :=
        notMem_toString (by decide) (by decide) _
      simp only [ne_eq, decide_eq_true_eq]
      rintro rfl
      exact hpoint hc
  unfold readFileName?
  rw [hpieces]
  simp only [hseed, Digits.natural?_toDigits, String.ofList_toList, Arguments.integer?_toString]
  rfl

/-- **Files of different fixtures have different names**, and so have those of different seeds. -/
theorem fileName_inj {seed seed' : Int64} {f f' : Fixture}
    (h : fileName seed f = fileName seed' f') :
    f.index = f'.index ∧ f.text.length = f'.text.length ∧ seed = seed' := by
  have hread := congrArg readFileName? h
  rw [readFileName?_fileName, readFileName?_fileName] at hread
  simpa using hread

theorem fileName_ne_manifest (seed : Int64) (f : Fixture) :
    fileName seed f ≠ Manifest.fileName := by
  intro h
  have hnone : readFileName? Manifest.fileName = none := by decide
  rw [← h, readFileName?_fileName] at hnone
  cases hnone

theorem plain_fileName (seed : Int64) (f : Fixture) : Path.Plain (fileName seed f) := by
  have hhead : (fileName seed f).toList.head? = some 'P' := by rw [toList_fileName]; rfl
  have hne : ∀ name : String, name.toList.head? ≠ some 'P' → fileName seed f ≠ name := by
    rintro name hname rfl
    exact hname hhead
  refine ⟨hne _ (by decide), ?_, hne _ (by decide), hne _ (by decide)⟩
  have hdigits : ∀ n, '/' ∉ Nat.toDigits 10 n := notMem_toDigits (by decide)
  have hseed : '/' ∉ (toString seed.toInt).toList := notMem_toString (by decide) (by decide) _
  rw [toList_fileName]
  simp only [List.mem_append, List.mem_cons, hdigits, hseed, false_or]
  decide

theorem plain_manifest : Path.Plain Manifest.fileName :=
  ⟨by decide, by decide, by decide, by decide⟩

end Run

end SmlSynth
