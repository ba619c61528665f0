import SmlSynth.Proofs.Lexemes
import SmlSynth.Proofs.Reading

/-!
# Outlines of texts

An outline says of a text what decides whether it stays clean next to other texts: whether it may
be empty and whether it may have a star at either end. It also says how many comments the text may
hold, and whether it starts with one.

* `Outline`, `Outline.reading`: outlines, and how they are put together along a generator.
* `Outline.Fits`: a clean text with its comments fits an outline.
* `Outline.sound`: the reading is sound, so a generator with an outline yields clean texts.
-/

namespace SmlSynth

open Scan

/-- **An outline of texts**: whether they may be empty, whether they may have a star at either end,
and whether all open with a comment. Their comments are at most as many as are `fixed`, and as
many more as are `repeated` for each repetition that the bound allows. -/
structure Outline where
  vanishes : Bool
  starFirst : Bool
  starLast : Bool
  opens : Bool
  fixed : Nat
  repeated : Nat
deriving Repr, DecidableEq

namespace Outline

/-! ## Putting outlines together -/

/-- The outline of a fixed text, if it is clean and holds no comment. -/
def literal (t : Text) : Option Outline :=
  match comments t with
  | .ok [] => some ⟨t.isEmpty, t.head? == some '*', t.getLast? == some '*', false, 0, 0⟩
  | _ => none

/-- One text after another. -/
def append (a b : Outline) : Outline where
  vanishes := a.vanishes && b.vanishes
  starFirst := a.starFirst || (a.vanishes && b.starFirst)
  starLast := b.starLast || (b.vanishes && a.starLast)
  opens := a.opens
  fixed := a.fixed + b.fixed
  repeated := a.repeated + b.repeated

/-- One of two texts. -/
def either (a b : Outline) : Outline where
  vanishes := a.vanishes || b.vanishes
  starFirst := a.starFirst || b.starFirst
  starLast := a.starLast || b.starLast
  opens := a.opens && b.opens
  fixed := max a.fixed b.fixed
  repeated := max a.repeated b.repeated

/-- Texts in a row, as many as the bound allows; none if they are such rows themselves and hold
comments. -/
def many (a : Outline) : Option Outline :=
  if a.repeated = 0 then some ⟨true, a.starFirst, a.starLast, false, 0, a.fixed⟩ else none

/-- A text in brackets. A parenthesis must not meet a star. -/
def enclose (o : Char) (a : Outline) : Option Outline :=
  if o = '(' && (a.starFirst || a.starLast) then none
  else some ⟨false, false, false, false, a.fixed, a.repeated⟩

/-- Both outlines together. -/
def both (f : Outline → Outline → Outline) : Option Outline → Option Outline → Option Outline
  | some a, some b => some (f a b)
  | _, _ => none

/-- A text after a change: brackets around it, with fixed texts inside them, or a space after it. -/
def change (a : Outline) : Change → Option Outline
  | .enclose (o :: before) after =>
    match after.reverse with
    | d :: rest =>
      if opener? d = some o then
        (both append (literal before) (both append (some a) (literal rest.reverse))).bind (enclose o)
      else none
    | [] => none
  | .padAfter c => some { a with starLast := a.starLast && c != '*' }
  | _ => none

/-- **Reading an outline off a generator.** Where nothing is known there is none. -/
def reading : Reading (Option Outline) where
  literal := literal
  append := both append
  either := both either
  many a := a.bind many
  further a := a.bind many
  change f a := a.bind (change · f)
  gate := both either

/-! ## Texts that fit -/

/-- **A text that fits an outline**, with its comments. -/
structure Fits (limit : Nat) (o : Outline) (t : Text) (cs : List Text) : Prop where
  clean : Clean t cs
  count : cs.length ≤ o.fixed + o.repeated * limit
  vanishes : t = [] → o.vanishes = true
  first : t.head? = some '*' → o.starFirst = true
  last : t.getLast? = some '*' → o.starLast = true
  opens : o.opens = true → ∃ x rest, cs = x :: rest ∧ x <+: t

/-- **What an outline says of a text**: it fits, and its comments are made as comments are. -/
def Describes (limit : Nat) (Made : Text → Prop) (_level : Nat) : Option Outline → Text → Prop
  | none, _ => True
  | some o, t => ∃ cs, Fits limit o t cs ∧ ∀ x ∈ cs, Made x

variable {limit : Nat} {a b : Outline} {t u : Text} {cs ds : List Text}

theorem Fits.append (h : Fits limit a t cs) (h' : Fits limit b u ds) :
    Fits limit (append a b) (t ++ u) (cs ++ ds) := by
  refine ⟨h.clean.append h'.clean, ?_, fun he => ?_, fun hf => ?_, fun hl => ?_, fun ho => ?_⟩
  · have h1 := h.count
    have h2 := h'.count
    rw [List.length_append]
    show _ ≤ a.fixed + b.fixed + (a.repeated + b.repeated) * limit
    rw [Nat.add_mul]; omega
  · obtain ⟨ht, hu⟩ := List.append_eq_nil_iff.1 he
    show (a.vanishes && b.vanishes) = true
    rw [h.vanishes ht, h'.vanishes hu]; rfl
  · show (a.starFirst || (a.vanishes && b.starFirst)) = true
    cases t with
    -- where the first text is empty the start is that of the second
    | nil => rw [h.vanishes rfl, h'.first hf]; simp
    | cons c rest => rw [h.first hf]; rfl
  · show (b.starLast || (b.vanishes && a.starLast)) = true
    cases u with
    | nil =>
      rw [List.append_nil] at hl
      rw [h'.vanishes rfl, h.last hl]; simp
    | cons c rest =>
      rw [List.getLast?_append, List.getLast?_cons] at hl
      rw [h'.last (by rw [List.getLast?_cons]; exact hl)]; rfl
  · obtain ⟨x, rest, rfl, hx⟩ := h.opens ho
    exact ⟨x, rest ++ ds, rfl, hx.trans (List.prefix_append t u)⟩

/-- A text that fits an outline fits one that says less. -/
theorem Fits.mono (h : Fits limit a t cs) (hv : a.vanishes = true → b.vanishes = true)
    (hf : a.starFirst = true → b.starFirst = true) (hl : a.starLast = true → b.starLast = true)
    (ho : b.opens = true → a.opens = true)
    (hcount : a.fixed + a.repeated * limit ≤ b.fixed + b.repeated * limit) : Fits limit b t cs :=
  ⟨h.clean, Nat.le_trans h.count hcount, fun he => hv (h.vanishes he), fun hs => hf (h.first hs),
    fun hs => hl (h.last hs), fun hs => h.opens (ho hs)⟩

theorem Fits.left (h : Fits limit a t cs) (b : Outline) : Fits limit (either a b) t cs := by
  have hmul : a.repeated * limit ≤ max a.repeated b.repeated * limit :=
    Nat.mul_le_mul_right _ (Nat.le_max_left _ _)
  refine h.mono (fun hv => ?_) (fun hf => ?_) (fun hl => ?_) (fun ho => ?_) ?_
  · show (a.vanishes || b.vanishes) = true; rw [hv]; rfl
  · show (a.starFirst || b.starFirst) = true; rw [hf]; rfl
  · show (a.starLast || b.starLast) = true; rw [hl]; rfl
  · have hboth : (a.opens && b.opens) = true := ho
    exact (Bool.and_eq_true_iff.1 hboth).1
  · show _ ≤ max a.fixed b.fixed + max a.repeated b.repeated * limit
    omega

theorem either_comm (a b : Outline) : either a b = either b a := by
  simp only [either, Bool.or_comm, Bool.and_comm, Nat.max_comm]

theorem fits_literal (h : literal t = some a) : Fits limit a t [] := by
  unfold literal at h
  split at h
  · rename_i hcs
    rw [← Option.some.inj h]
    refine ⟨clean_of_comments hcs, Nat.zero_le _, fun he => ?_, fun hf => ?_, fun hl => ?_,
      fun ho => by cases ho⟩
    · rw [he]; rfl
    · show (t.head? == some '*') = true
      rw [hf]; rfl
    · show (t.getLast? == some '*') = true
      rw [hl]; rfl
  · cases h

/-- Texts in a row have together at most as many comments as each may have, for each of them. -/
theorem fits_flatten {Made : Text → Prop} (ha : a.repeated = 0) {ts : List Text}
    (h : ∀ t ∈ ts, ∃ cs, Fits limit a t cs ∧ ∀ x ∈ cs, Made x) :
    ∃ cs, Fits limit ⟨true, a.starFirst, a.starLast, false, ts.length * a.fixed, 0⟩ ts.flatten cs ∧
      ∀ x ∈ cs, Made x := by
  induction ts with
  | nil =>
    refine ⟨[], ⟨clean_nil, Nat.zero_le _, fun _ => rfl, ?_, ?_, ?_⟩, fun x hx => by cases hx⟩
    · intro hf; cases hf
    · intro hl; cases hl
    · intro ho; cases ho
  | cons t rest ih =>
    obtain ⟨cs, hcs, hmade⟩ := h t (List.mem_cons_self ..)
    obtain ⟨ds, hds, hmade'⟩ := ih fun u hu => h u (List.mem_cons_of_mem _ hu)
    refine ⟨cs ++ ds, ?_, fun x hx => (List.mem_append.1 hx).elim (hmade x) (hmade' x)⟩
    -- the first text adds its comments to those of the others
    refine (hcs.append hds).mono (fun _ => rfl) (fun hf => ?_) (fun hl => ?_)
      (fun ho => by cases ho) ?_
    · simp only [append, Bool.or_eq_true, Bool.and_eq_true] at hf
      exact hf.elim id And.right
    · simp only [append, Bool.or_eq_true, Bool.and_eq_true] at hl
      exact hl.elim id And.right
    · simp only [append, ha, List.length_cons, Nat.add_mul, Nat.zero_mul]
      omega

/-- Where brackets have an outline, no star touches a parenthesis inside. -/
theorem Fits.untouched {o d : Char} (h : Fits limit a t cs) (hd : opener? d = some o)
    (ho : enclose o a = some b) :
    (o = '(' → t.head? ≠ some '*') ∧ (d = ')' → t.getLast? ≠ some '*') := by
  unfold Outline.enclose at ho
  split at ho
  · cases ho
  · rename_i hstar
    rw [Bool.and_eq_true, Bool.or_eq_true, decide_eq_true_eq, not_and, not_or] at hstar
    -- a closing parenthesis is for an opening one
    have hparen : d = ')' → o = '(' := by
      rcases of_opener? hd with ⟨rfl, rfl⟩ | ⟨rfl, rfl⟩ | ⟨rfl, rfl⟩ <;> decide
    exact ⟨fun ho hf => (hstar ho).1 (h.first hf), fun hc hl => (hstar (hparen hc)).2 (h.last hl)⟩

theorem Fits.enclose {o d : Char} (h : Fits limit a t cs) (hd : opener? d = some o)
    (ho : enclose o a = some b) : Fits limit b (o :: t ++ [d]) cs := by
  obtain ⟨hfirst, hlast⟩ := h.untouched hd ho
  -- no bracket is a star
  have hne : o ≠ '*' ∧ d ≠ '*' := by
    rcases of_opener? hd with ⟨rfl, rfl⟩ | ⟨rfl, rfl⟩ | ⟨rfl, rfl⟩ <;> decide
  unfold Outline.enclose at ho
  split at ho
  · cases ho
  · rw [← Option.some.inj ho]
    refine ⟨h.clean.enclose hd hfirst hlast, h.count, fun he => ?_, fun hf => ?_, fun hl => ?_,
      fun ho => by cases ho⟩
    · cases he
    · exact absurd (Option.some.inj hf) hne.1
    · rw [List.getLast?_append] at hl
      exact absurd (Option.some.inj hl) hne.2

theorem of_both {f : Outline → Outline → Outline} {x y : Option Outline} {o : Outline}
    (h : both f x y = some o) : ∃ a b, x = some a ∧ y = some b ∧ f a b = o := by
  cases x with
  | none => cases h
  | some a =>
    cases y with
    | none => cases h
    | some b => exact ⟨a, b, rfl, rfl, Option.some.inj h⟩

theorem apply_enclose (o d : Char) (before rest t : Text) :
    (Change.enclose (o :: before) (rest ++ [d])).apply t = o :: (before ++ (t ++ rest)) ++ [d] := by
  simp only [Change.apply, List.cons_append, List.append_assoc]

/-- **A space after a star keeps it from what follows.** -/
theorem Fits.padAfter (h : Fits limit a t cs) (c : Char) :
    Fits limit { a with starLast := a.starLast && c != '*' } ((Change.padAfter c).apply t) cs := by
  by_cases hc : t.getLast? = some c
  · have hspace : Fits limit ⟨false, false, false, false, 0, 0⟩ [' '] [] := fits_literal rfl
    have hpadded := h.append hspace
    rw [List.append_nil] at hpadded
    have happly : (Change.padAfter c).apply t = t ++ [' '] := if_pos hc
    rw [happly]
    refine hpadded.mono (fun hv => ?_) (fun hf => ?_) (fun hl => ?_) id (Nat.le_refl _)
    · simp [Outline.append] at hv
    · simpa [Outline.append] using hf
    · simp [Outline.append] at hl
  · have happly : (Change.padAfter c).apply t = t := if_neg hc
    rw [happly]
    refine ⟨h.clean, h.count, h.vanishes, h.first, fun hl => ?_, h.opens⟩
    show (a.starLast && c != '*') = true
    rw [h.last hl, Bool.true_and, bne_iff_ne]
    rintro rfl
    exact hc hl

/-- **What has an outline after brackets are put around it**: a bracket, the text between two fixed
ones, and the bracket that closes the first. -/
theorem of_change_enclose {before after : Text} (h : change a (.enclose before after) = some b) :
    ∃ o d before' after' x z, before = o :: before' ∧ after = after' ++ [d] ∧ opener? d = some o ∧
      literal before' = some x ∧ literal after' = some z ∧
      enclose o (append x (append a z)) = some b := by
  cases before with
  | nil => cases h
  | cons o before' =>
    simp only [Outline.change] at h
    split at h
    · rename_i d rest hreverse
      split at h
      · rename_i hd
        obtain ⟨inner, hinner, hb⟩ := Option.bind_eq_some_iff.1 h
        obtain ⟨x, y, hx, hy, rfl⟩ := of_both hinner
        obtain ⟨a', z, ha', hz, rfl⟩ := of_both hy
        obtain rfl : a = a' := Option.some.inj ha'
        refine ⟨o, d, before', rest.reverse, x, z, rfl, ?_, hd, hx, hz, hb⟩
        rw [← List.reverse_reverse after, hreverse, List.reverse_cons]
      · cases h
    · cases h

/-- **A change keeps the comments** of a text, where anything is known of what it makes. -/
theorem Fits.change {f : Change} (h : Fits limit a t cs) (hf : change a f = some b) :
    Fits limit b (f.apply t) cs := by
  cases f with
  | enclose before after =>
    obtain ⟨o, d, before, after, x, z, rfl, rfl, hd, hx, hz, hb⟩ := of_change_enclose hf
    -- the fixed texts inside the brackets count as a part of what they enclose
    have hfits := ((fits_literal hx).append (h.append (fits_literal hz))).enclose hd hb
    rw [List.append_nil, List.nil_append] at hfits
    rw [apply_enclose]
    exact hfits
  | padAfter c =>
    rw [← Option.some.inj hf]
    exact h.padAfter c
  | other f => cases hf

/-! ## The reading is sound -/

variable {Made : Text → Prop}

theorem describes_left {d e : Nat} {x : Option Outline} (h : Describes limit Made d x t)
    (y : Option Outline) : Describes limit Made e (both either x y) t := by
  cases x with
  | none => trivial
  | some a =>
    cases y with
    | none => trivial
    | some b =>
      obtain ⟨cs, hcs, hmade⟩ := h
      exact ⟨cs, hcs.left b, hmade⟩

theorem describes_right {d e : Nat} {y : Option Outline} (h : Describes limit Made d y t)
    (x : Option Outline) : Describes limit Made e (both either x y) t := by
  have hcomm : both either x y = both either y x := by
    cases x <;> cases y <;> simp only [both, either_comm]
  rw [hcomm]
  exact describes_left h x

theorem describes_many {d : Nat} {x : Option Outline} {ts : List Text} (hlen : ts.length ≤ limit)
    (h : ∀ t ∈ ts, Describes limit Made d x t) :
    Describes limit Made d (x.bind many) ts.flatten := by
  cases x with
  | none => trivial
  | some a =>
    show Describes limit Made d (many a) ts.flatten
    unfold many
    split
    · rename_i ha
      obtain ⟨cs, hcs, hmade⟩ := fits_flatten ha h
      refine ⟨cs, hcs.mono id id id id ?_, hmade⟩
      -- there are at most as many texts as the bound allows
      have hmul : ts.length * a.fixed ≤ limit * a.fixed := Nat.mul_le_mul_right _ hlen
      rw [Nat.mul_comm limit] at hmul
      simpa using hmul
    · trivial

/-- **What the reading says of a generator's texts is true**, whatever is true of comments. -/
theorem sound (limit : Nat) (Made : Text → Prop) : reading.Sound limit (Describes limit Made) where
  literal _ t := by
    show Describes limit Made _ (literal t) t
    cases h : literal t with
    | none => trivial
    | some o => exact ⟨[], fits_literal h, fun x hx => by cases hx⟩
  append {d x y t u} h h' := by
    cases x with
    | none => trivial
    | some a =>
      cases y with
      | none => trivial
      | some b =>
        obtain ⟨cs, hcs, hmade⟩ := h
        obtain ⟨ds, hds, hmade'⟩ := h'
        exact ⟨cs ++ ds, hcs.append hds,
          fun x hx => (List.mem_append.1 hx).elim (hmade x) (hmade' x)⟩
  left b h := describes_left h b
  right a h := describes_right h a
  many hlen h := describes_many hlen h
  further hlen h := describes_many (Nat.le_trans hlen (Nat.sub_le _ _)) h
  change {d x t} f h := by
    cases x with
    | none => trivial
    | some a =>
      show Describes limit Made _ (change a f) _
      cases hf : change a f with
      | none => trivial
      | some b =>
        obtain ⟨cs, hcs, hmade⟩ := h
        exact ⟨cs, hcs.change hf, hmade⟩
  terminal b h := describes_left h b
  recursive a h := describes_right h a

end Outline

end SmlSynth
