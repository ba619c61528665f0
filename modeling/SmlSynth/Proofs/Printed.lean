import SmlSynth.Json.Printer
import SmlSynth.Json.Reader
import SmlSynth.Proofs.FileNames

/-!
# Printed JSON is read back

The pretty text of a value is read as that value, if its numbers are integers and its strings and
keys have texts. What follows the text is left alone, so the argument goes through items and members
one after the other. The reader's fuel is never short: two for each character is enough.

* `stringBody_escape`: an escaped character is read as itself.
* `exists_numeral_int`: an integer's numeral is read up to its end.
* `Exact`: the values that are read back.
* `Exact.readsBack`: the text of a value is read at the front of a text; `read?_pretty`: and on its
  own.
-/

namespace SmlSynth.Json

/-! ## Blanks -/

theorem skipBlanks_append {blanks : Text} (h : ∀ c ∈ blanks, isBlank c = true) (cs : Text) :
    skipBlanks (blanks ++ cs) = skipBlanks cs := List.dropWhile_append_of_pos h

theorem skipBlanks_cons {c : Char} (h : isBlank c = false) (cs : Text) :
    skipBlanks (c :: cs) = c :: cs := List.dropWhile_cons_of_neg (by simp [h])

theorem isBlank_of_mem_newLine {level : Nat} {c : Char} (h : c ∈ newLine level) :
    isBlank c = true := by
  rcases List.mem_cons.1 h with rfl | h
  · rfl
  · rw [List.eq_of_mem_replicate h]
    rfl

/-! ## Strings -/

/-- The four digits of a control character. -/
theorem hexUnit?_control : ∀ n < 32,
    hexUnit? '0' '0' (hexDigitChar (n / 16)) (hexDigitChar (n % 16)) = some n := by decide

/-- A backslash and a letter are read as the character that they stand for. -/
theorem stringBody_letter {c e : Char} (h : escaped? c = some e) (cs : Text) :
    stringBody none ('\\' :: c :: cs) = (stringBody none cs).map (prepend e) := by
  have hc : c ≠ 'u' := by rintro rfl; cases h
  rw [stringBody, h]
  · cases stringBody none cs <;> rfl
  · rintro _ _ _ _ _ rfl
    exact fun _ => hc rfl

/-- A character by its number, where that has a first digit of at most one. -/
theorem stringBody_control {c : Char} (h : c < ' ') (cs : Text) :
    stringBody none ('\\' :: 'u' :: '0' :: '0' :: hexDigitChar (c.toNat / 16) ::
      hexDigitChar (c.toNat % 16) :: cs) = (stringBody none cs).map (prepend c) := by
  have hnumber : c.toNat < 32 := h
  rw [stringBody, hexUnit?_control _ hnumber]
  simp only [Option.bind_eq_bind, Option.bind_some]
  rw [if_neg (by omega), if_neg (by omega), Char.ofNat_toNat]
  cases stringBody none cs <;> rfl

/-- A character that needs no escape. -/
theorem stringBody_self {c : Char} (hquote : c ≠ '\x22') (hbackslash : c ≠ '\\')
    (hcontrol : ¬ c < ' ') (cs : Text) : stringBody none (c :: cs) = (stringBody none cs).map (prepend c) := by
  rw [stringBody, if_neg hquote, if_neg (not_or.2 ⟨hcontrol, hbackslash⟩)]
  · rfl
  · exact fun _ _ _ _ _ h _ => hbackslash h
  · exact fun _ _ h _ => hbackslash h

/-- **An escaped character is read as itself.** -/
theorem stringBody_escape (c : Char) (cs : Text) :
    stringBody none (escape c ++ cs) = (stringBody none cs).map (prepend c) := by
  unfold escape
  split_ifs with hquote hbackslash hback hfeed hline hreturn htab hcontrol
  · subst hquote; exact stringBody_letter rfl cs
  · subst hbackslash; exact stringBody_letter rfl cs
  · subst hback; exact stringBody_letter rfl cs
  · subst hfeed; exact stringBody_letter rfl cs
  · subst hline; exact stringBody_letter rfl cs
  · subst hreturn; exact stringBody_letter rfl cs
  · subst htab; exact stringBody_letter rfl cs
  · exact stringBody_control hcontrol cs
  · exact stringBody_self hquote hbackslash hcontrol cs

/-- **A string is read back**, with what follows it left alone. -/
theorem stringBody_quoted (t rest : Text) :
    stringBody none (t.flatMap escape ++ '\x22' :: rest) = some (some t, rest) := by
  induction t with
  | nil => rw [List.flatMap_nil, List.nil_append, stringBody, if_pos rfl] <;> simp [afterHalf]
  | cons c t ih =>
    rw [List.flatMap_cons, List.append_assoc, stringBody_escape, ih]
    rfl

/-! ## Numbers -/

/-- A text that goes on with no number. -/
def EndsNumber (rest : Text) : Prop :=
  ∀ c ∈ rest.head?, c.isDigit = false ∧ c ≠ '.' ∧ c ≠ 'e' ∧ c ≠ 'E'

theorem digits1_append {ds rest : Text} (hne : ds ≠ []) (hds : ∀ c ∈ ds, c.isDigit = true)
    (hrest : EndsNumber rest) : digits1 (ds ++ rest) = some (ds, rest) := by
  have hstop : rest.takeWhile Char.isDigit = [] ∧ rest.dropWhile Char.isDigit = rest := by
    cases rest with
    | nil => exact ⟨rfl, rfl⟩
    | cons c cs =>
      have hc : ¬ c.isDigit = true := by simp [(hrest c rfl).1]
      exact ⟨List.takeWhile_cons_of_neg hc, List.dropWhile_cons_of_neg hc⟩
  rw [digits1, List.takeWhile_append_of_pos hds, List.dropWhile_append_of_pos hds, hstop.1,
    hstop.2, List.append_nil]
  simp [hne]

/-- The digits of a number start with a zero only if it is zero. -/
theorem head?_toDigits {n : Nat} (h : (Nat.toDigits 10 n).head? = some '0') : n = 0 := by
  induction n using Nat.strongRecOn with
  | _ n ih =>
    by_cases hn : n < 10
    · rw [Nat.toDigits_of_lt_base hn] at h
      exact Nat.digitChar_eq_zero.1 (Option.some.inj h)
    · -- the first digit is that of the number without its last one
      rw [Nat.toDigits_of_base_le (by decide) (Nat.le_of_not_lt hn),
        List.head?_append_of_ne_nil _ Nat.toDigits_ne_nil] at h
      have := ih (n / 10) (by omega) h
      omega

theorem wholePart_toDigits (n : Nat) {rest : Text} (hrest : EndsNumber rest) :
    wholePart (Nat.toDigits 10 n ++ rest) = some (Nat.toDigits 10 n, rest) := by
  by_cases hn : n = 0
  · subst hn
    rfl
  · rw [wholePart]
    · exact digits1_append Nat.toDigits_ne_nil (fun _ => isDigit_of_mem_toDigits) hrest
    · intro cs hcs
      refine hn (head?_toDigits ?_)
      rw [← List.head?_append_of_ne_nil _ Nat.toDigits_ne_nil, hcs]
      rfl

theorem unsignedNumeral_toDigits (n : Nat) {rest : Text} (hrest : EndsNumber rest) :
    unsignedNumeral (Nat.toDigits 10 n ++ rest) = some (Nat.toDigits 10 n, rest) := by
  have hfraction : fractionPart rest = some ([], rest) := by
    rw [fractionPart]
    rintro cs rfl
    exact (hrest _ rfl).2.1 rfl
  have hexponent : exponentPart rest = some ([], rest) := by
    cases rest with
    | nil => rfl
    | cons c cs => rw [exponentPart, if_neg (not_or.2 (hrest c rfl).2.2)]
  rw [unsignedNumeral, wholePart_toDigits n hrest]
  simp [hfraction, hexponent]

theorem numeral_of_ne {cs : Text} (h : ∀ ds, cs ≠ '-' :: ds) : numeral cs = unsignedNumeral cs := by
  rw [numeral]
  exact h

/-- **The numeral of an integer is read to its end.** It starts with a digit or a minus. -/
theorem exists_numeral_int (i : Int) : ∃ c ds, Value.int i = .number (c :: ds) ∧
    (c = '-' ∨ c.isDigit = true) ∧
    ∀ rest, EndsNumber rest → numeral (c :: ds ++ rest) = some (c :: ds, rest) := by
  cases i with
  | ofNat n =>
    obtain ⟨c, ds, hds⟩ := List.exists_cons_of_ne_nil (Nat.toDigits_ne_nil (n := n) (b := 10))
    have hc : c.isDigit = true := isDigit_of_mem_toDigits (n := n) (hds ▸ List.mem_cons_self ..)
    refine ⟨c, ds, congrArg Value.number hds, .inr hc, fun rest hrest => ?_⟩
    rw [numeral_of_ne, ← hds, unsignedNumeral_toDigits n hrest]
    rintro _ h
    cases h
    cases hc
  | negSucc n =>
    refine ⟨'-', _, rfl, .inl rfl, fun rest hrest => ?_⟩
    rw [List.cons_append, numeral, unsignedNumeral_toDigits _ hrest]
    rfl

/-- What starts with a digit or a minus is read as a number. -/
theorem readValue_number {c : Char} (hc : c = '-' ∨ c.isDigit = true) (fuel : Nat) (cs : Text) :
    readValue (fuel + 1) (c :: cs) =
      (numeral (c :: cs)).map fun r => (.number r.1, r.2) := by
  have hne : ∀ d, d.isDigit = false → d ≠ '-' → c ≠ d := by
    rintro d hd hsign rfl
    rcases hc with h | h
    · exact hsign h
    · rw [h] at hd; cases hd
  have hblank : isBlank c = false := by
    simp only [isBlank, Bool.or_eq_false_iff, beq_eq_false_iff_ne]
    exact ⟨⟨⟨hne _ rfl (by decide), hne _ rfl (by decide)⟩, hne _ rfl (by decide)⟩,
      hne _ rfl (by decide)⟩
  rw [readValue, skipBlanks_cons hblank]
  split
  case h_8 => rfl
  -- the values of all other kinds start with another character
  all_goals rename_i h
  · cases h
  all_goals exact absurd (List.cons.inj h).1 (hne _ rfl (by decide))

/-! ## Values -/

/-- **The values that are read back**: their numbers are integers, and their strings and keys have
texts. -/
inductive Exact : Value → Prop where
  | null : Exact .null
  | bool (b : Bool) : Exact (.bool b)
  | int (i : Int) : Exact (.int i)
  | text (t : Text) : Exact (.text t)
  | array {items : List Value} (h : ∀ v ∈ items, Exact v) : Exact (.array items)
  | object {members : List (Text × Value)} (h : ∀ m ∈ members, Exact m.2) :
      Exact (.object (members.map fun m => (some m.1, m.2)))

/-- **A value is read back** from its text at any level, with what follows it left alone. A step of
the reader that takes no character is followed by one that does, so two for each are enough. -/
def ReadsBack (v : Value) : Prop := ∀ level fuel rest, EndsNumber rest →
  2 * (prettyAt level v).length ≤ fuel →
  readValue fuel (prettyAt level v ++ rest) = some (v, rest)

theorem readValue_blanks {blanks : Text} (h : ∀ c ∈ blanks, isBlank c = true) (fuel : Nat)
    (cs : Text) : readValue fuel (blanks ++ cs) = readValue fuel cs := by
  cases fuel with
  | zero => rw [readValue, readValue]
  | succ fuel => rw [readValue, readValue, skipBlanks_append h]

theorem endsNumber_nil : EndsNumber [] := by
  rintro _ ⟨⟩

theorem endsNumber_newLine (level : Nat) (cs : Text) : EndsNumber (newLine level ++ cs) := by
  rintro _ ⟨⟩
  decide

theorem endsNumber_comma (cs : Text) : EndsNumber (',' :: cs) := by
  rintro _ ⟨⟩
  decide

theorem endsNumber_prettyItems (level : Nat) (vs : List Value) (rest : Text) :
    EndsNumber (prettyItems level vs ++ rest) := by
  cases vs with
  | nil => rw [prettyItems, List.append_assoc]; exact endsNumber_newLine level _
  | cons v vs => rw [prettyItems]; exact endsNumber_comma _

theorem endsNumber_prettyMembers (level : Nat) (ms : List (Option Text × Value)) (rest : Text) :
    EndsNumber (prettyMembers level ms ++ rest) := by
  cases ms with
  | nil => rw [prettyMembers, List.append_assoc]; exact endsNumber_newLine level _
  | cons m ms => rw [prettyMembers]; exact endsNumber_comma _

/-- A value that has one text at all levels is read back if a step reads it. -/
theorem readsBack_of {v : Value} {text : Text} (hpretty : ∀ level, prettyAt level v = text)
    (hne : text ≠ []) (h : ∀ fuel rest, EndsNumber rest →
      readValue (fuel + 1) (text ++ rest) = some (v, rest)) : ReadsBack v := by
  intro level fuel rest hrest hfuel
  have hlength := List.length_pos_iff.2 hne
  rw [hpretty] at hfuel ⊢
  obtain ⟨fuel, rfl⟩ : ∃ k, fuel = k + 1 := ⟨fuel - 1, by omega⟩
  exact h fuel rest hrest

theorem readsBack_null : ReadsBack .null := by
  have hpretty : ∀ level, prettyAt level .null = "null".toList := fun _ => by rw [prettyAt]
  refine readsBack_of hpretty (by decide) fun _ _ _ => ?_
  rw [readValue]
  rfl

theorem readsBack_bool (b : Bool) : ReadsBack (.bool b) := by
  have hpretty : ∀ level, prettyAt level (.bool b) = (if b then "true" else "false").toList :=
    fun _ => by rw [prettyAt]
  refine readsBack_of hpretty (by cases b <;> decide) fun _ _ _ => ?_
  rw [readValue]
  cases b <;> rfl

theorem readsBack_int (i : Int) : ReadsBack (.int i) := by
  obtain ⟨c, ds, hi, hc, hread⟩ := exists_numeral_int i
  rw [hi]
  refine readsBack_of (fun _ => by rw [prettyAt]) (List.cons_ne_nil _ _) fun _ rest hrest => ?_
  rw [List.cons_append, readValue_number hc, ← List.cons_append, hread rest hrest]
  rfl

/-- What starts with a quote is read as a string. -/
theorem readValue_quote (fuel : Nat) (cs : Text) : readValue (fuel + 1) ('\x22' :: cs) =
    (stringBody none cs).map fun r => (.string r.1, r.2) := by
  rw [readValue, skipBlanks_cons (by decide)]
  rfl

theorem quote_some (t : Text) : quote (some t) = '\x22' :: t.flatMap escape ++ ['\x22'] := rfl

theorem quote_append (t rest : Text) :
    quote (some t) ++ rest = '\x22' :: (t.flatMap escape ++ '\x22' :: rest) := by
  rw [quote_some, List.append_assoc, List.cons_append, List.singleton_append]

theorem readsBack_text (t : Text) : ReadsBack (.text t) := by
  have hpretty : ∀ level, prettyAt level (.text t) = quote (some t) := fun _ => by
    rw [Value.text, prettyAt]
  have hne : quote (some t) ≠ [] := by
    rw [quote_some]
    exact List.cons_ne_nil _ _
  refine readsBack_of hpretty hne fun _ rest _ => ?_
  rw [quote_append, readValue_quote, stringBody_quoted]
  rfl

/-! ## Items and members -/

/-- One item of an array is read, and what follows it decides whether there are more. -/
theorem readItems_first {v : Value} {cs : Text} (hv : ReadsBack v) (hcs : EndsNumber cs)
    {level fuel : Nat} (hfuel : 2 * (prettyAt (level + 1) v).length ≤ fuel) :
    readItems (fuel + 1) (newLine (level + 1) ++ (prettyAt (level + 1) v ++ cs)) =
      match skipBlanks cs with
      | ',' :: rest => (readItems fuel rest).map fun r => (v :: r.1, r.2)
      | ']' :: rest => some ([v], rest)
      | _ => none := by
  rw [readItems, readValue_blanks fun _ => isBlank_of_mem_newLine, hv _ _ _ hcs hfuel]
  rfl

/-- **The items of an array are read back**, if each is. The induction is on the items after the
first, as it is them that the printer puts commas before. -/
theorem readItems_pretty {v : Value} {vs : List Value} (h : ∀ w ∈ v :: vs, ReadsBack w)
    (level fuel : Nat) (rest : Text)
    (hfuel : 2 * (prettyAt (level + 1) v ++ prettyItems level vs).length ≤ fuel) :
    readItems fuel (newLine (level + 1) ++ (prettyAt (level + 1) v ++
      (prettyItems level vs ++ rest))) = some (v :: vs, rest) := by
  induction vs generalizing v fuel with
  | nil =>
    rw [prettyItems] at hfuel
    simp only [List.length_append, List.length_singleton] at hfuel
    obtain ⟨fuel, rfl⟩ : ∃ k, fuel = k + 1 := ⟨fuel - 1, by omega⟩
    rw [readItems_first (h v (List.mem_cons_self ..)) (endsNumber_prettyItems level _ rest)
      (by omega), prettyItems, List.append_assoc,
      skipBlanks_append fun _ => isBlank_of_mem_newLine, List.singleton_append,
      skipBlanks_cons (by decide)]
    rfl
  | cons w ws ih =>
    rw [prettyItems] at hfuel
    simp only [List.length_append, List.length_cons] at hfuel ih
    obtain ⟨fuel, rfl⟩ : ∃ k, fuel = k + 1 := ⟨fuel - 1, by omega⟩
    rw [readItems_first (h v (List.mem_cons_self ..)) (endsNumber_prettyItems level _ rest)
      (by omega), prettyItems]
    simp only [List.append_assoc, List.cons_append]
    rw [skipBlanks_cons (by decide)]
    show Option.map _ (readItems fuel _) = _
    rw [ih (fun x hx => h x (List.mem_cons_of_mem _ hx)) fuel (by omega)]
    rfl

/-- One member of an object is read, and what follows it decides whether there are more. -/
theorem readMembers_first {v : Value} {cs : Text} (key : Text) (hv : ReadsBack v)
    (hcs : EndsNumber cs) {level fuel : Nat}
    (hfuel : 2 * (prettyAt (level + 1) v).length ≤ fuel) :
    readMembers (fuel + 1) (newLine (level + 1) ++ (quote (some key) ++
        ':' :: ' ' :: (prettyAt (level + 1) v ++ cs))) =
      match skipBlanks cs with
      | ',' :: rest => (readMembers fuel rest).map fun r => ((some key, v) :: r.1, r.2)
      | '\x7d' :: rest => some ([(some key, v)], rest)
      | _ => none := by
  -- the value is read from the blank after the colon on
  have hblank : ∀ c ∈ [' '], isBlank c = true := fun c hc => by rw [List.mem_singleton.1 hc]; rfl
  have hvalue : readValue fuel (' ' :: (prettyAt (level + 1) v ++ cs)) = some (v, cs) :=
    (readValue_blanks hblank fuel _).trans (hv _ _ _ hcs hfuel)
  rw [readMembers, skipBlanks_append fun _ => isBlank_of_mem_newLine, quote_append,
    skipBlanks_cons (by decide)]
  simp only [stringBody_quoted, Option.bind_eq_bind, Option.bind_some]
  rw [skipBlanks_cons (by decide)]
  show (readValue fuel (' ' :: (prettyAt (level + 1) v ++ cs))).bind _ = _
  rw [hvalue]
  rfl

/-- **The members of an object are read back**, if each value is. -/
theorem readMembers_pretty {m : Text × Value} {ms : List (Text × Value)}
    (h : ∀ n ∈ m :: ms, ReadsBack n.2) (level fuel : Nat) (rest : Text)
    (hfuel : 2 * (prettyAt (level + 1) m.2 ++
      prettyMembers level (ms.map fun n => (some n.1, n.2))).length ≤ fuel) :
    readMembers fuel (newLine (level + 1) ++ (quote (some m.1) ++ ':' :: ' ' ::
      (prettyAt (level + 1) m.2 ++
        (prettyMembers level (ms.map fun n => (some n.1, n.2)) ++ rest)))) =
      some ((m :: ms).map fun n => (some n.1, n.2), rest) := by
  induction ms generalizing m fuel with
  | nil =>
    rw [List.map_nil, prettyMembers] at hfuel
    simp only [List.length_append, List.length_singleton] at hfuel
    obtain ⟨fuel, rfl⟩ : ∃ k, fuel = k + 1 := ⟨fuel - 1, by omega⟩
    rw [readMembers_first _ (h m (List.mem_cons_self ..)) (endsNumber_prettyMembers level _ rest)
      (by omega), List.map_nil, prettyMembers, List.append_assoc,
      skipBlanks_append fun _ => isBlank_of_mem_newLine, List.singleton_append,
      skipBlanks_cons (by decide)]
    rfl
  | cons n ns ih =>
    rw [List.map_cons, prettyMembers] at hfuel
    simp only [List.length_append, List.length_cons] at hfuel ih
    obtain ⟨fuel, rfl⟩ : ∃ k, fuel = k + 1 := ⟨fuel - 1, by omega⟩
    rw [readMembers_first _ (h m (List.mem_cons_self ..)) (endsNumber_prettyMembers level _ rest)
      (by omega), List.map_cons, prettyMembers]
    simp only [List.append_assoc, List.cons_append]
    rw [skipBlanks_cons (by decide)]
    show Option.map _ (readMembers fuel _) = _
    rw [ih (fun x hx => h x (List.mem_cons_of_mem _ hx)) fuel (by omega)]
    rfl

/-! ## Whole values -/

/-- An array has items unless its closing bracket comes at once, and no item starts with that. -/
theorem readValue_array {fuel : Nat} {cs : Text} {r : List Value × Text}
    (h : readItems fuel cs = some r) : readValue (fuel + 1) ('[' :: cs) = some (.array r.1, r.2) := by
  rw [readValue, skipBlanks_cons (by decide)]
  simp only
  split
  · rename_i hclosing
    -- an item would have to start with the bracket
    obtain _ | _ | fuel := fuel
    · rw [readItems] at h; cases h
    · rw [readItems, readValue] at h; cases h
    · rw [readItems, readValue, hclosing] at h; cases h
  · rw [h, Option.map_some]

/-- An object has members unless its closing brace comes at once, and no member starts with
that. -/
theorem readValue_object {fuel : Nat} {cs : Text} {r : List (Option Text × Value) × Text}
    (h : readMembers fuel cs = some r) :
    readValue (fuel + 1) ('\x7b' :: cs) = some (.object r.1, r.2) := by
  rw [readValue, skipBlanks_cons (by decide)]
  simp only
  split
  · rename_i hclosing
    obtain _ | fuel := fuel
    · rw [readMembers] at h; cases h
    · rw [readMembers, hclosing] at h; cases h
  · rw [h, Option.map_some]

theorem readsBack_array {items : List Value} (h : ∀ v ∈ items, ReadsBack v) :
    ReadsBack (.array items) := by
  cases items with
  | nil =>
    refine readsBack_of (fun _ => by rw [prettyAt]) (List.cons_ne_nil _ _) fun _ _ _ => ?_
    rw [readValue]
    rfl
  | cons v vs =>
    intro level fuel rest hrest hfuel
    rw [prettyAt] at hfuel ⊢
    simp only [List.cons_append, List.append_assoc, List.length_cons, List.length_append]
      at hfuel ⊢
    obtain ⟨fuel, rfl⟩ : ∃ k, fuel = k + 1 := ⟨fuel - 1, by omega⟩
    exact readValue_array (readItems_pretty h level fuel rest (by rw [List.length_append]; omega))

theorem readsBack_object {members : List (Text × Value)} (h : ∀ m ∈ members, ReadsBack m.2) :
    ReadsBack (.object (members.map fun m => (some m.1, m.2))) := by
  cases members with
  | nil =>
    refine readsBack_of (fun _ => by rw [List.map_nil, prettyAt]) (List.cons_ne_nil _ _)
      fun _ _ _ => ?_
    rw [readValue]
    rfl
  | cons m ms =>
    intro level fuel rest hrest hfuel
    rw [List.map_cons, prettyAt] at hfuel ⊢
    simp only [List.cons_append, List.append_assoc, List.length_cons, List.length_append]
      at hfuel ⊢
    obtain ⟨fuel, rfl⟩ : ∃ k, fuel = k + 1 := ⟨fuel - 1, by omega⟩
    exact readValue_object
      (readMembers_pretty h level fuel rest (by rw [List.length_append]; omega))

/-- **The pretty text of a value is read as that value**, with what follows it left alone. -/
theorem Exact.readsBack {v : Value} (h : Exact v) : ReadsBack v := by
  induction h with
  | null => exact readsBack_null
  | bool b => exact readsBack_bool b
  | int i => exact readsBack_int i
  | text t => exact readsBack_text t
  | array _ ih => exact readsBack_array ih
  | object _ ih => exact readsBack_object ih

/-- **Reading undoes printing.** -/
theorem read?_pretty {v : Value} (h : Exact v) : read? (pretty v) = some v := by
  have hread : readValue (2 * (pretty v).length + 1) (pretty v ++ []) = some (v, []) :=
    h.readsBack 0 _ [] endsNumber_nil (Nat.le_succ _)
  rw [List.append_nil] at hread
  rw [read?, hread]
  rfl

end SmlSynth.Json
