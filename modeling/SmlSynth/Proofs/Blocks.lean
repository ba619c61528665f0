import SmlSynth.Proofs.Marks

/-!
# Words and blocks

The words of a text are its maximal runs of word characters. Ten of them open, go on with and close
blocks, which a stack of frames keeps track of.

* `words`, `words_append`: the words of a text, and of two texts that do not grow together.
* `Keyword`, `Frame`, `Keyword.step`: what the keywords do to the open blocks.
* `keywords`, `follow`: the keywords of a text, and what they do one after another.
* `follow_under`: keywords that leave the blocks outside alone do the same within them.
-/

namespace SmlSynth

/-! ## Words -/

/-- Whether a character belongs to words. -/
def isWordChar (c : Char) : Bool := c.isAlphanum || c == '_' || c == '\x27'

/-- **The words of a text**: its maximal runs of letters, digits, underscores and primes. -/
def words (t : Text) : List Text := (t.splitOnP fun c => !isWordChar c).filter (· ≠ [])

section Words

variable {t u w : Text} {c : Char}

theorem words_nil : words [] = [] := rfl

/-- **Words end at every other character.** -/
theorem words_break (hc : isWordChar c = false) (t u : Text) :
    words (t ++ c :: u) = words t ++ words u := by
  unfold words
  rw [List.splitOnP_append_cons t u (by rw [hc]; rfl), List.filter_append]

theorem words_after_break (hc : isWordChar c = false) (t : Text) : words (c :: t) = words t :=
  words_break hc [] t

theorem words_before_break (hc : isWordChar c = false) (t : Text) : words (t ++ [c]) = words t := by
  rw [words_break hc, words_nil, List.append_nil]

/-- A run of word characters is a word. -/
theorem words_eq_self (hne : t ≠ []) (h : ∀ c ∈ t, isWordChar c = true) : words t = [t] := by
  unfold words
  rw [List.splitOnP_eq_singleton fun c hc => by rw [h c hc]; rfl]
  exact List.filter_cons_of_pos (decide_eq_true hne)

/-- **The words of two texts** are those of both, unless the last word of one and the first of the
other grow together. -/
theorem words_append (h : t.getLast?.any isWordChar = true → u.head?.any isWordChar = false) :
    words (t ++ u) = words t ++ words u := by
  cases hu : u.head?.any isWordChar with
  | false =>
    cases u with
    | nil => rw [List.append_nil, words_nil, List.append_nil]
    | cons c rest => rw [words_break hu, words_after_break hu]
  | true =>
    have ht : ¬ t.getLast?.any isWordChar = true := fun ht => by rw [h ht] at hu; cases hu
    rcases List.eq_nil_or_concat t with rfl | ⟨rest, c, rfl⟩
    · rfl
    · rw [List.concat_eq_append, List.getLast?_concat] at ht
      have hc : isWordChar c = false := Bool.eq_false_iff.2 ht
      rw [List.concat_eq_append, List.append_assoc, List.singleton_append, words_break hc,
        words_before_break hc]

theorem subset_of_mem_splitOnP {p : Char → Bool} (h : w ∈ t.splitOnP p) : w ⊆ t := by
  induction t generalizing w with
  | nil =>
    rw [List.splitOnP_nil, List.mem_singleton] at h
    rw [h]; exact List.Subset.refl _
  | cons c rest ih =>
    obtain ⟨first, ws, hws⟩ := List.exists_cons_of_ne_nil (List.splitOnP_ne_nil p rest)
    rw [List.splitOnP_cons_eq_if_modifyHead, hws] at h
    split at h
    · rcases List.mem_cons.1 h with rfl | h
      · exact List.nil_subset _
      · exact List.subset_cons_of_subset c (ih (hws ▸ h))
    · rcases List.mem_cons.1 h with rfl | h
      · exact List.cons_subset_cons c (ih (hws ▸ List.mem_cons_self ..))
      · exact List.subset_cons_of_subset c (ih (hws ▸ List.mem_cons_of_mem _ h))

/-- The characters of words stand in the text. -/
theorem subset_of_mem_words (h : w ∈ words t) : w ⊆ t :=
  subset_of_mem_splitOnP (List.mem_filter.1 h).1

end Words

/-! ## Keywords -/

/-- **The keywords of blocks.** -/
inductive Keyword where
  /-- `let` or `local`, which open a block. -/
  | scope
  /-- `in`, after the declarations of a block. -/
  | within
  /-- `end`, after the rest of it. -/
  | finish
  /-- `if` -/
  | test
  /-- `then` -/
  | accept
  /-- `else` -/
  | reject
  /-- `while` -/
  | loop
  /-- `do` -/
  | perform
  /-- `case` -/
  | select
  /-- `of`, after what a case selects on. It also stands before the type of a constructor. -/
  | arms
deriving Repr, DecidableEq

/-- The words that are keywords of blocks. -/
def blockWords : List (String × Keyword) :=
  [("let", .scope), ("local", .scope), ("in", .within), ("end", .finish), ("if", .test),
    ("then", .accept), ("else", .reject), ("while", .loop), ("do", .perform), ("case", .select),
    ("of", .arms)]

/-- The keyword that a word is. -/
def keyword? (w : Text) : Option Keyword :=
  (blockWords.find? fun k => k.1.toList == w).map (·.2)

/-- **The keywords of a text**, in order. -/
def keywords (t : Text) : List Keyword := (words t).filterMap keyword?

theorem keywords_append {t u : Text}
    (h : t.getLast?.any isWordChar = true → u.head?.any isWordChar = false) :
    keywords (t ++ u) = keywords t ++ keywords u := by
  unfold keywords
  rw [words_append h, List.filterMap_append]

/-- A word that is a keyword is spelled as one. -/
theorem exists_of_keyword? {w : Text} {k : Keyword} (h : keyword? w = some k) :
    ∃ b ∈ blockWords, b.1.toList = w := by
  obtain ⟨b, hb, -⟩ := Option.map_eq_some_iff.1 h
  have hspelled := List.find?_some hb
  exact ⟨b, List.mem_of_find?_eq_some hb, eq_of_beq hspelled⟩

/-- No keyword is spelled with the characters of an alphabet if each has another character. -/
theorem keywords_eq_nil {t : Text} {alphabet : List Char} (ht : t ⊆ alphabet)
    (h : ∀ b ∈ blockWords, b.1.toList.all alphabet.contains = false) : keywords t = [] := by
  refine List.filterMap_eq_nil_iff.2 fun w hw => ?_
  cases hk : keyword? w with
  | none => rfl
  | some k =>
    obtain ⟨b, hb, hspelled⟩ := exists_of_keyword? hk
    have hall : w.all alphabet.contains = true :=
      List.all_eq_true.2 fun c hc => List.contains_iff_mem.2 (ht (subset_of_mem_words hw hc))
    have hno := h b hb
    rw [hspelled, hall] at hno
    cases hno

/-- A run of word characters that is spelled otherwise is no keyword. -/
theorem keywords_of_run {t : Text} (ht : ∀ c ∈ t, isWordChar c = true)
    (h : ∀ b ∈ blockWords, b.1.toList ≠ t) : keywords t = [] := by
  refine List.filterMap_eq_nil_iff.2 fun w hw => ?_
  have hne : t ≠ [] := by rintro rfl; cases hw
  rw [words_eq_self hne ht, List.mem_singleton] at hw
  cases hk : keyword? w with
  | none => rfl
  | some k =>
    obtain ⟨b, hb, hspelled⟩ := exists_of_keyword? hk
    exact absurd (hspelled.trans hw) (h b hb)

/-! ## Blocks -/

/-- **An open block.** -/
inductive Frame where
  /-- A block without its `in`. -/
  | scope
  /-- A block with its `in`. -/
  | body
  /-- An `if` without its `then`. -/
  | test
  /-- A `then` without its `else`. -/
  | accepted
  /-- A `while` without its `do`. -/
  | loop
  /-- A `case` without its `of`. -/
  | choice
deriving Repr, DecidableEq

/-- **What a keyword does to the open blocks**, from the innermost on; nothing if it does not belong
there. An `of` that belongs to no `case` is ignored. -/
def Keyword.step : Keyword → List Frame → Option (List Frame)
  | .scope, s => some (.scope :: s)
  | .within, .scope :: s => some (.body :: s)
  | .finish, .body :: s => some s
  | .test, s => some (.test :: s)
  | .accept, .test :: s => some (.accepted :: s)
  | .reject, .accepted :: s => some s
  | .loop, s => some (.loop :: s)
  | .perform, .loop :: s => some s
  | .select, s => some (.choice :: s)
  | .arms, .choice :: s => some s
  | .arms, s => some s
  | _, _ => none

/-- **The open blocks after keywords.** -/
def follow (ks : List Keyword) (s : List Frame) : Option (List Frame) :=
  ks.foldlM (fun s k => k.step s) s

example : follow (keywords (programText "case if a then b else c of x' => y".toList)) []
    = some [] := by decide +kernel

example : follow (keywords (programText "let val s = \"in\" end".toList)) [] = none := by
  decide +kernel

section Follow

variable {ks ls : List Keyword} {s s' base : List Frame} {k : Keyword}

theorem follow_nil : follow [] s = some s := rfl

theorem follow_cons : follow (k :: ks) s = (k.step s).bind (follow ks) := rfl

theorem follow_append : follow (ks ++ ls) s = (follow ks s).bind (follow ls) := List.foldlM_append

/-- Keywords that leave another block than a `case` on top. -/
def Keyword.covers : Keyword → Bool
  | .scope | .within | .test | .accept | .loop => true
  | _ => false

theorem step_covers (hk : k.covers = true) (h : k.step s = some s') :
    s'.head? ≠ some .choice := by
  unfold Keyword.step at h
  split at h
  all_goals first
    | exact absurd hk (by decide)
    | (rw [← Option.some.inj h, List.head?_cons]; decide)
    | cases h

/-- No `case` is on top after keywords of which the last one leaves another block there. -/
theorem follow_covers (hks : ks.getLast?.all Keyword.covers = true)
    (hs : ks = [] → s.head? ≠ some .choice) (h : follow ks s = some s') :
    s'.head? ≠ some .choice := by
  rcases List.eq_nil_or_concat ks with rfl | ⟨ls, k, rfl⟩
  · rw [← Option.some.inj h]
    exact hs rfl
  · rw [List.concat_eq_append] at hks h
    rw [List.getLast?_concat] at hks
    obtain ⟨s₁, -, hstep⟩ := Option.bind_eq_some_iff.1 (follow_append.symm.trans h)
    obtain ⟨s₂, hk, hnil⟩ := Option.bind_eq_some_iff.1 hstep
    rw [← Option.some.inj hnil]
    exact step_covers hks hk

/-- A step that does not look below the blocks that are given. If it is `idle` it may ignore an `of`
that belongs to none of them. -/
def Keyword.stepAbove (idle : Bool) (k : Keyword) (s : List Frame) : Option (List Frame) :=
  if k = .arms ∧ s = [] ∧ idle = false then none else k.step s

/-- The open blocks after keywords that do not look below. -/
def followAbove (idle : Bool) (ks : List Keyword) (s : List Frame) : Option (List Frame) :=
  ks.foldlM (fun s k => k.stepAbove idle s) s

theorem step_under {idle : Bool} (h : k.stepAbove idle s = some s')
    (hbase : idle = true → base.head? ≠ some .choice) : k.step (s ++ base) = some (s' ++ base) := by
  unfold Keyword.stepAbove at h
  split at h
  · cases h
  rename_i hidle
  cases s with
  | cons f rest => cases k <;> cases f <;> cases h <;> rfl
  | nil =>
    cases k with
    | arms =>
      obtain rfl := Option.some.inj h
      have hi : idle = true := by
        cases idle
        · exact absurd ⟨rfl, rfl, rfl⟩ hidle
        · rfl
      cases base with
      | nil => rfl
      | cons f rest =>
        cases f with
        | choice => exact absurd rfl (hbase hi)
        | _ => rfl
    | _ => cases h <;> rfl

/-- **Keywords that do not look below the blocks they open** do the same within any blocks; an `of`
that is ignored must not meet a `case`. -/
theorem follow_under {idle : Bool} (h : followAbove idle ks s = some s')
    (hbase : idle = true → base.head? ≠ some .choice) :
    follow ks (s ++ base) = some (s' ++ base) := by
  induction ks generalizing s with
  | nil => rw [Option.some.inj h]; rfl
  | cons k ks ih =>
    obtain ⟨s₁, hstep, hrest⟩ := Option.bind_eq_some_iff.1 h
    rw [follow_cons, step_under hstep hbase]
    exact ih hrest

end Follow

end SmlSynth
