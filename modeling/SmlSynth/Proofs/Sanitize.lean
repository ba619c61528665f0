import SmlSynth.Proofs.Comments

/-!
# Sanitizing as a retraction

A round shortens a text or leaves it as it is, so the rounds end, and what they end in is a part of
the text. A round leaves exactly the safe texts as they are, so `sanitize` maps every text to a
safe one and every safe text to itself.

One round is already enough. What is left of a text when brackets are dropped holds none, and the
ends are trimmed off it without putting new neighbours together; so a second round changes nothing,
and only finds that out.

* `round_eq_self_iff`: the texts that a round leaves as they are.
* `settle_length`: as many rounds as the text has characters, and one more, are enough.
* `bracket_enclosed`: where a safe text between comment brackets has neighbours that form one.
* `sanitize_retraction`: the whole, with the brackets of a comment.
* `SettlesIn`: how many rounds there are when nothing bounds their number.
* `safe_round`: after one round a text is safe.
* `settles_in_two`: there are one or two rounds, and the first one makes the text.
-/

namespace SmlSynth.Comment

variable {t u : Text}

/-! ## What a round leaves as it is -/

/-- Nothing is dropped where no two neighbours form a bracket. -/
theorem dropBrackets_of_inside {kept : Option Char}
    (h : ∀ before a b after, kept.toList ++ t = before ++ a :: b :: after →
      isBracket a b = false) : dropBrackets kept t = t := by
  induction t generalizing kept with
  | nil => rfl
  | cons c rest ih =>
    have hc : kept.any (isBracket · c) = false := by
      cases kept with
      | none => rfl
      | some k => exact h [] k c rest rfl
    have hrest : dropBrackets (some c) rest = rest := by
      refine ih fun before a b after heq => h (kept.toList ++ before) a b after ?_
      rw [List.append_assoc, ← heq]
      rfl
    unfold dropBrackets
    rw [hc, if_neg Bool.false_ne_true, hrest]

theorem trimStart_of_head (h : ∀ c, t.head? = some c → c ≠ '*' ∧ c ≠ ')') : trimStart t = t := by
  cases t with
  | nil => rfl
  | cons c rest =>
    obtain ⟨hstar, hparen⟩ := h c rfl
    exact List.dropWhile_cons_of_neg (by simp [hstar, hparen])

theorem trimEnd_of_last (h : ∀ c, t.getLast? = some c → c ≠ '(' ∧ c ≠ '*') : trimEnd t = t := by
  have hreverse : (t.reverse.dropWhile fun c => c == '(' || c == '*') = t.reverse := by
    cases hr : t.reverse with
    | nil => rfl
    | cons c rest =>
      have hlast : t.getLast? = some c := by rw [List.getLast?_eq_head?_reverse, hr]; rfl
      obtain ⟨hparen, hstar⟩ := h c hlast
      exact List.dropWhile_cons_of_neg (by simp [hstar, hparen])
  unfold trimEnd
  rw [hreverse, List.reverse_reverse]

/-- **A round leaves exactly the safe texts as they are.** -/
theorem round_eq_self_iff : round t = t ↔ SafeBody t := by
  refine ⟨safe_of_round, fun h => ?_⟩
  have hdrop : dropBrackets none t = t := dropBrackets_of_inside h.inside
  unfold round
  rw [hdrop, trimStart_of_head h.start, trimEnd_of_last h.stop]

/-! ## The rounds -/

theorem round_sublist (t : Text) : (round t).Sublist t :=
  (trimEnd_sublist _).trans ((trimStart_sublist _).trans (dropBrackets_sublist none t))

theorem length_round_lt (h : round t ≠ t) : (round t).length < t.length := by
  have hle := (round_sublist t).length_le
  have hne : (round t).length ≠ t.length := fun heq => h ((round_sublist t).eq_of_length heq)
  omega

theorem settle_sublist {rounds : Nat} (h : settle rounds t = some u) : u.Sublist t := by
  induction rounds generalizing t with
  | zero => cases h
  | succ rounds ih =>
    unfold settle at h
    split at h
    · obtain rfl := Option.some.inj h
      exact List.Sublist.refl t
    · exact (ih h).trans (round_sublist t)

/-- **The rounds end**: each of them but the last makes the text shorter. -/
theorem settle_ends {rounds : Nat} (h : t.length < rounds) : ∃ u, settle rounds t = some u := by
  induction rounds generalizing t with
  | zero => omega
  | succ rounds ih =>
    unfold settle
    split
    · exact ⟨t, rfl⟩
    · rename_i hround
      have hlt := length_round_lt hround
      exact ih (by omega)

theorem settle_length (t : Text) : settle (t.length + 1) t = some (sanitize t) := by
  obtain ⟨u, hu⟩ := settle_ends (Nat.lt_succ_self t.length)
  unfold sanitize
  rw [hu]
  rfl

theorem sanitize_eq_self_iff : sanitize t = t ↔ SafeBody t := by
  refine ⟨fun h => h ▸ sanitize_safe t, fun h => ?_⟩
  have hsettle := settle_length t
  unfold settle at hsettle
  rw [if_pos (round_eq_self_iff.2 h)] at hsettle
  exact (Option.some.inj hsettle).symm

/-! ## Between brackets -/

/-- Behind a safe text only the closing bracket is one. -/
theorem bracket_before_close (h : SafeBody u) {before after : Text} {a b : Char}
    (heq : u ++ ['*', ')'] = before ++ a :: b :: after) (hab : isBracket a b = true) :
    before = u ∧ after = [] := by
  rcases List.append_eq_append_iff.1 heq with ⟨past, hbefore, htail⟩ | ⟨rest, hu, htail⟩
  · -- there is room for nothing between the text and the pair
    have hlen := congrArg List.length htail
    simp only [List.length_append, List.length_cons, List.length_nil] at hlen
    obtain rfl : past = [] := List.eq_nil_of_length_eq_zero (by omega)
    obtain rfl : after = [] := List.eq_nil_of_length_eq_zero (by omega)
    exact ⟨by rw [hbefore, List.append_nil], rfl⟩
  · rcases rest with _ | ⟨c, _ | ⟨d, rest⟩⟩
    · obtain ⟨-, hrest⟩ := List.cons.inj htail
      obtain ⟨-, hafter⟩ := List.cons.inj hrest
      exact ⟨by rw [hu, List.append_nil], hafter⟩
    · -- the last character of the text and the star
      obtain ⟨rfl, hrest⟩ := List.cons.inj htail
      obtain ⟨rfl, -⟩ := List.cons.inj hrest
      have hlast : u.getLast? = some a := by rw [hu]; simp
      have hparen : a ≠ '(' := (h.stop a hlast).1
      simp [isBracket, hparen] at hab
    · -- two neighbours in the text
      obtain ⟨rfl, hrest⟩ := List.cons.inj htail
      obtain ⟨rfl, -⟩ := List.cons.inj hrest
      rw [h.inside before a b rest hu] at hab
      cases hab

/-- **A safe text between comment brackets has no brackets but these two.** -/
theorem bracket_enclosed (h : SafeBody u) {before after : Text} {a b : Char}
    (heq : '(' :: '*' :: u ++ ['*', ')'] = before ++ a :: b :: after)
    (hab : isBracket a b = true) :
    (before = [] ∧ after = u ++ ['*', ')']) ∨ (before = '(' :: '*' :: u ∧ after = []) := by
  rcases before with _ | ⟨x, _ | ⟨y, before⟩⟩
  · obtain ⟨-, hrest⟩ := List.cons.inj heq
    obtain ⟨-, hafter⟩ := List.cons.inj hrest
    exact .inl ⟨rfl, hafter.symm⟩
  · -- the star of the opening bracket and what follows it
    obtain ⟨-, hrest⟩ := List.cons.inj heq
    obtain ⟨rfl, htail⟩ := List.cons.inj hrest
    cases u with
    | nil =>
      obtain ⟨rfl, -⟩ := List.cons.inj htail
      simp [isBracket] at hab
    | cons c rest =>
      obtain ⟨rfl, -⟩ := List.cons.inj htail
      have hparen : c ≠ ')' := (h.start c rfl).2
      simp [isBracket, hparen] at hab
  · obtain ⟨rfl, hrest⟩ := List.cons.inj heq
    obtain ⟨rfl, htail⟩ := List.cons.inj hrest
    obtain ⟨rfl, rfl⟩ := bracket_before_close h htail hab
    exact .inr ⟨rfl, rfl⟩

/-- **`sanitize` is a retraction onto the safe texts.** Its rounds end, and what is left of a text
is a safe part of it, all of it exactly if it was safe. So another time changes nothing, and of a
comment the first two characters are the only opening bracket and the last two the only closing
one. -/
theorem sanitize_retraction (t : Text) :
    settle (t.length + 1) t = some (sanitize t) ∧
    SafeBody (sanitize t) ∧ (sanitize t).Sublist t ∧ (sanitize t = t ↔ SafeBody t) ∧
    sanitize (sanitize t) = sanitize t ∧
    (∀ before after, enclose t = before ++ '(' :: '*' :: after ↔
      before = [] ∧ after = sanitize t ++ ['*', ')']) ∧
    (∀ before after, enclose t = before ++ '*' :: ')' :: after ↔
      before = '(' :: '*' :: sanitize t ∧ after = []) := by
  have hsafe := sanitize_safe t
  refine ⟨settle_length t, hsafe, settle_sublist (settle_length t), sanitize_eq_self_iff,
    sanitize_eq_self_iff.2 hsafe, fun before after => ⟨fun h => ?_, ?_⟩,
    fun before after => ⟨fun h => ?_, ?_⟩⟩
  · rcases bracket_enclosed hsafe h rfl with hopen | ⟨rfl, rfl⟩
    · exact hopen
    · -- the pair at the end is not an opening bracket
      have hpair : ['*', ')'] = ['(', '*'] :=
        List.append_cancel_left (show ('(' :: '*' :: sanitize t) ++ _ = _ from h)
      cases hpair
  · rintro ⟨rfl, rfl⟩
    rfl
  · rcases bracket_enclosed hsafe h rfl with ⟨rfl, -⟩ | hclose
    · cases h
    · exact hclose
  · rintro ⟨rfl, rfl⟩
    rfl

/-! ## One round is enough -/

/-- A drop pass leaves nothing for another one: each character was compared with the same kept one
before. -/
theorem dropBrackets_dropBrackets (kept : Option Char) (t : Text) :
    dropBrackets kept (dropBrackets kept t) = dropBrackets kept t := by
  induction t generalizing kept with
  | nil => rfl
  | cons c rest ih =>
    by_cases hc : kept.any (isBracket · c) = true
    · have hdrop : dropBrackets kept (c :: rest) = dropBrackets kept rest := if_pos hc
      rw [hdrop]
      exact ih kept
    · have hkeep : ∀ u, dropBrackets kept (c :: u) = c :: dropBrackets (some c) u :=
        fun u => if_neg hc
      rw [hkeep, hkeep, ih (some c)]

theorem trimStart_suffix (t : Text) : trimStart t <:+ t := List.dropWhile_suffix _

theorem trimEnd_prefix (t : Text) : trimEnd t <+: t := by
  have h := List.reverse_prefix.2
    (List.dropWhile_suffix (l := t.reverse) fun c => c == '(' || c == '*')
  rw [List.reverse_reverse] at h
  exact h

/-- **After one round a text is safe.** Trimming takes a connected part of the text without
brackets, and to trim its end leaves its start. -/
theorem safe_round (t : Text) : SafeBody (round t) := by
  have hprefix : round t <+: trimStart (dropBrackets none t) := trimEnd_prefix _
  have hinfix : round t <:+: dropBrackets none t :=
    hprefix.isInfix.trans (trimStart_suffix _).isInfix
  refine ⟨fun before a b after hround => ?_, fun c hc => ?_, fun c hc => getLast?_trimEnd hc⟩
  · obtain ⟨front, back, hdropped⟩ := hinfix
    have hneighbours : dropBrackets none t = (front ++ before) ++ a :: b :: (after ++ back) := by
      rw [← hdropped, hround]
      simp
    exact inside_of_dropBrackets (dropBrackets_dropBrackets none t) hneighbours
  · obtain ⟨back, htrimmed⟩ := hprefix
    have hhead : (trimStart (dropBrackets none t)).head? = some c := by
      rw [← htrimmed, List.head?_append, hc, Option.some_or]
    exact head?_trimStart hhead

theorem round_round (t : Text) : round (round t) = round t := round_eq_self_iff.2 (safe_round t)

/-! ## The number of rounds -/

/-- **How many rounds there are** until one changes nothing, and what they end in. Nothing bounds
their number. -/
inductive SettlesIn : Nat → Text → Text → Prop where
  /-- A round that changes nothing is the last one. -/
  | last {t : Text} (same : round t = t) : SettlesIn 1 t t
  /-- After a round that changes something there is another one. -/
  | again {n : Nat} {t u : Text} (changed : round t ≠ t) (rest : SettlesIn n (round t) u) :
    SettlesIn (n + 1) t u

/-- **A bound on the rounds that is large enough makes no difference.** -/
theorem settle_eq_some_iff {limit : Nat} :
    settle limit t = some u ↔ ∃ n ≤ limit, SettlesIn n t u := by
  induction limit generalizing t with
  | zero =>
    constructor
    · intro h
      cases h
    · rintro ⟨n, hn, h⟩
      cases h <;> omega
  | succ limit ih =>
    unfold settle
    by_cases hround : round t = t
    · rw [if_pos hround]
      constructor
      · intro h
        obtain rfl := Option.some.inj h
        exact ⟨1, by omega, .last hround⟩
      · rintro ⟨n, -, h⟩
        cases h with
        | last _ => rfl
        | again changed _ => exact absurd hround changed
    · rw [if_neg hround, ih]
      constructor
      · rintro ⟨n, hn, h⟩
        exact ⟨n + 1, by omega, .again hround h⟩
      · rintro ⟨n, hn, h⟩
        cases h with
        | last same => exact absurd same hround
        | @again n _ _ _ rest => exact ⟨n, by omega, rest⟩

/-- **There are one or two rounds, and the first one makes the text.** -/
theorem settlesIn_iff {n : Nat} :
    SettlesIn n t u ↔ u = round t ∧ n = if round t = t then 1 else 2 := by
  constructor
  · intro h
    cases h with
    | last same => exact ⟨same.symm, (if_pos same).symm⟩
    | again changed rest =>
      rw [if_neg changed]
      cases rest with
      | last _ => exact ⟨rfl, rfl⟩
      | again changed' _ => exact absurd (round_round t) changed'
  · rintro ⟨rfl, rfl⟩
    by_cases hround : round t = t
    · rw [if_pos hround, hround]
      exact .last hround
    · rw [if_neg hround]
      exact .again hround (.last (round_round t))

/-- **Rounds end at the second one, at the latest.** After the first round another one changes
nothing. So where nothing bounds their number there are one or two, and they end in what the first
one made; a bound of two or more changes nothing about that. -/
theorem settles_in_two (t : Text) :
    round (round t) = round t ∧
    (∀ n u, SettlesIn n t u ↔ u = round t ∧ n = if round t = t then 1 else 2) ∧
    (∀ limit, settle (limit + 2) t = some (round t)) ∧ sanitize t = round t := by
  have hbound : (if round t = t then 1 else 2) ≤ 2 := by split <;> omega
  refine ⟨round_round t, fun n u => settlesIn_iff, fun limit => ?_, ?_⟩
  · exact settle_eq_some_iff.2 ⟨_, by omega, settlesIn_iff.2 ⟨rfl, rfl⟩⟩
  · -- the rounds that `sanitize` allows are enough for some end, and there is only this one
    obtain ⟨n, -, hends⟩ := settle_eq_some_iff.1 (settle_length t)
    exact (settlesIn_iff.1 hends).1

/-- Brackets inside and marks at both ends go in one round. -/
example : round ")*a(*b*)c(*".toList = "a(b*c".toList := by decide

end SmlSynth.Comment
