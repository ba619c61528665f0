import SmlSynth.Program.Budget
import SmlSynth.Proofs.Joints
import SmlSynth.Proofs.Selection
import SmlSynth.Proofs.Success
import SmlSynth.Random.ChaCha

/-!
# The rows of a record pattern

Standard ML admits the record wildcard once in a pattern, as its last row. The rows of a record
pattern are drawn one by one, without regard to their place.

* `recordRows`, `WildcardLast`: the rows of a run, and the law of the wildcard.
* `recordRows_single`: a bound of one repetition leaves one row.
* `exists_early_wildcard`: any greater bound admits a run with a wildcard before the last row.
* `wildcard_last_iff`: so the law holds of all runs only where the bound is at most one.
* `early_wildcard_fifteen`: a pattern that breaks the law.
-/

namespace SmlSynth

open Sampler Segment

/-- The comma between two rows. -/
def rowMark : Segment (Symbol Lexeme Rule) := .fixed ",".toList

/-- The record wildcard. -/
def recordWildcard : Segment (Symbol Lexeme Rule) := .fixed "...".toList

/-- **The rows of a record pattern**: its segments between the commas that the pattern itself puts.
The braces count to the rows beside them. -/
def recordRows (ss : List (Segment (Symbol Lexeme Rule))) :
    List (List (Segment (Symbol Lexeme Rule))) := ss.splitOnP fun s => s = rowMark

/-- **The law of the wildcard**: at most one row is a wildcard, and no row but the last. -/
structure WildcardLast (rows : List (List (Segment (Symbol Lexeme Rule)))) : Prop where
  once : rows.countP (fun row => recordWildcard ∈ row) ≤ 1
  last : ∀ row ∈ rows.dropLast, recordWildcard ∉ row

/-- A single row obeys the law. -/
theorem wildcardLast_single (row : List (Segment (Symbol Lexeme Rule))) : WildcardLast [row] :=
  ⟨List.countP_le_length, fun row' hrow => by cases hrow⟩

/-! ## One row -/

/-- A record pattern with a single row. -/
def loneRowPat : Phrase :=
  (Gen.seq [Phrase.optSpace, .seq [.delayed Phrase.patRow], Phrase.optSpace]).braces

/-- It puts no comma itself. -/
theorem rowMark_notMem : rowMark.kind ∉ (Joints.of loneRowPat).kinds := by decide +kernel

section Run

variable {σ : Type} [Source σ]

/-- **A bound of one repetition leaves one row.** -/
theorem recordRows_single {c : Context σ} (hc : c.bounds.maxRepeat ≤ 1)
    {ss : List (Segment (Symbol Lexeme Rule))} (hss : (Phrase.recordPat.layout c).1 = .ok ss) :
    recordRows ss = [ss] := by
  -- nothing needs to be known of what the symbols yield
  have hfits : ∀ g : Phrase, Draws (g.segments ((sml (σ := σ)).call (fuelFor c)))
      ((Joints.of g).Fits fun _ _ => True) := Joints.draws_segments fun _ _ _ _ => trivial
  obtain ⟨us, hus, hss⟩ := of_bind_ok hss
  obtain ⟨xs, hxs, hus⟩ := of_bind_ok hus
  obtain ⟨vs, hvs, hus⟩ := of_bind_ok hus
  obtain ⟨ys, hys, hvs⟩ := of_bind_ok hvs
  obtain ⟨zs, hzs, hvs⟩ := of_bind_ok hvs
  obtain ⟨n, hn, hys⟩ := of_bind_ok hys
  have hkept := Gen.steady_segments (steady_call (fuelFor c)) Phrase.optSpace c
  obtain ⟨hpos, hle⟩ := repeatCount_ok hn
  rw [hkept.bounds] at hle
  obtain rfl : n = 1 := by omega
  have hrow := Joints.draws_chain (.cons (hfits (.delayed Phrase.patRow)) .nil) _ ys hys
  have hlast := Joints.draws_chain (.cons (hfits Phrase.optSpace) .nil) _ zs hzs
  have hrows := (hfits Phrase.optSpace c xs hxs).append (hrow.append hlast)
  obtain rfl := Except.ok.inj hvs
  obtain rfl := Except.ok.inj hus
  obtain rfl := Except.ok.inj hss
  have hpat : (Joints.of loneRowPat).Fits (fun _ _ => True)
      ((Change.enclose ['{', ' '] [' ', '}']).segments (xs ++ (ys ++ zs))) :=
    hrows.change (.enclose ['{', ' '] [' ', '}'])
  refine List.splitOnP_eq_singleton fun s hs => ?_
  have hne : s ≠ rowMark := by
    rintro rfl
    exact rowMark_notMem (hpat.kind_mem hs)
  exact decide_eq_false hne

end Run

/-! ## Greatest words -/

/-- The greatest word. -/
def topWord : UInt64 := 0xFFFFFFFFFFFFFFFF

/-- **A sampler that a tape of greatest words leaves in place**, with what it yields there. -/
def Stays {α : Type} (s : Sampler Tape α) (a : α) : Prop :=
  ∀ c, c.source = Tape.constant topWord → s c = (.ok a, c)

section Stays

variable {α β : Type}

theorem stays_pure (a : α) : Stays (pure a) a := fun _ _ => rfl

theorem stays_bind {s : Sampler Tape α} {f : α → Sampler Tape β} {a : α} {b : β} (hs : Stays s a)
    (hf : Stays (f a) b) : Stays (s >>= f) b := by
  intro c hc
  have hstep := hs c hc
  rw [bind_of_ok (congrArg Prod.fst hstep), hstep]
  exact hf c hc

theorem word_top {c : Context Tape} (hc : c.source = Tape.constant topWord) :
    word c = (.ok topWord, c) := by
  obtain ⟨source, bounds, patience, depth, peak⟩ := c
  obtain rfl : source = Tape.constant topWord := hc
  rfl

/-- A fair coin looks at the top bit of a word. -/
theorem coin_eq {σ : Type} [Source σ] :
    (coin : Sampler σ Bool) = do return (← word) < (0x8000000000000000 : UInt64) := by
  have hlow : ¬ (0.5 : Float) < 0.0 := by decide +kernel
  have hhigh : ¬ (1.0 : Float) < 0.5 := by decide +kernel
  have hone : ((0.5 : Float) == 1.0) = false := by decide +kernel
  have hlt : (0.5 : Float) < 1.0 := by decide +kernel
  have hscaled : ((0.5 : Float) * 18446744073709551616.0).toUInt64 = 0x8000000000000000 := by
    decide +kernel
  unfold coin chance
  simp only [hlow, hhigh, hone, hlt, hscaled, if_true, if_false, Bool.false_eq_true]

theorem stays_coin : Stays coin false := by
  rw [coin_eq]
  exact stays_bind (fun c hc => word_top hc) (stays_pure _)

theorem stays_chain_nil : Stays (chain []) ([] : List α) := stays_pure []

theorem stays_chain_cons {s : Sampler Tape (List α)} {rest : List (Sampler Tape (List α))}
    {xs ys : List α} (hs : Stays s xs) (hrest : Stays (chain rest) ys) :
    Stays (chain (s :: rest)) (xs ++ ys) := fun c hc => chain_cons_of_ok (hs c hc) (hrest c hc)

theorem stays_pairs {s s' : Sampler Tape (List α)} {xs xs' : List α} (hs : Stays s xs)
    (hs' : Stays s' xs') (n : Nat) :
    ∃ ys, Stays (chain (List.replicate n [s, s']).flatten) ys := by
  induction n with
  | zero => exact ⟨[], stays_chain_nil⟩
  | succ n ih =>
    obtain ⟨ys, hys⟩ := ih
    exact ⟨_, stays_chain_cons hs (stays_chain_cons hs' hys)⟩

theorem stays_byWeight {options : List (Float × Sampler Tape α)} {ws : List Float} {i : Nat}
    {o : Float × Sampler Tape α} {a : α} (hws : options.map (·.1) = ws)
    (htotal : 0 < Weights.total ws)
    (hi : Weights.select ws (unitOfWord topWord * Weights.total ws) = i)
    (ho : options[i]? = some o) (h : Stays o.2 a) : Stays (byWeight options) a := by
  intro c hc
  have hunit : Stays unit (unitOfWord topWord) :=
    stays_bind (fun c hc => word_top hc) (stays_pure _)
  have hword : (Source.next c.source).1 = topWord := by rw [hc]; rfl
  have hchosen : byWeight options c = o.2 (unit c).2 := by
    refine byWeight_of_select (by rw [hws]; exact htotal) ?_
    rw [hword, hws, hi]
    exact ho
  rw [hchosen, hunit c hc]
  exact h c hc

variable (call : Symbol Lexeme Rule → Sampler Tape Text)

/-- A space that is left out is no segment. -/
theorem optSpace_of_coin {c c' : Context Tape} (h : coin c = (.ok false, c')) :
    Phrase.optSpace.segments call c = (.ok [], c') := by
  show (coin >>= _) c = _
  rw [bind_of_ok (congrArg Prod.fst h), h]
  rfl

theorem stays_optSpace : Stays (Phrase.optSpace.segments call) [] :=
  fun c hc => optSpace_of_coin call (stays_coin c hc)

theorem stays_comma : Stays (Phrase.comma.segments call) [rowMark] :=
  stays_chain_cons (stays_pure [rowMark]) (stays_chain_cons (stays_optSpace call) stays_chain_nil)

/-- **Where all words are the greatest one every row is a wildcard.** -/
theorem stays_row : Stays ((Gen.delayed Phrase.patRow).segments call) [recordWildcard] := by
  have hcheck : Phrase.patRow.check = .ok () := (Gen.wellFormed_of_all (by decide +kernel)).check
  unfold Gen.segments
  rw [hcheck]
  have hselect : Weights.select [0.7, 0.2, 0.1]
      (unitOfWord topWord * Weights.total [0.7, 0.2, 0.1]) = 2 := by decide +kernel
  have htotal : (0 : Float) < Weights.total [0.7, 0.2, 0.1] := by decide +kernel
  exact stays_byWeight (o := (0.1, pure [recordWildcard])) rfl htotal hselect rfl (stays_pure _)

theorem stays_rows (n : Nat) :
    ∃ rest, Stays (chain (alternating ((Gen.delayed Phrase.patRow).segments call)
      (Phrase.comma.segments call) (n + 2))) (recordWildcard :: rowMark :: rest) := by
  have hrow := stays_row call
  have hcomma := stays_comma call
  obtain ⟨ys, hys⟩ := stays_pairs hcomma hrow n
  exact ⟨_, stays_chain_cons hrow (stays_chain_cons hcomma (stays_chain_cons hrow hys))⟩

end Stays

/-! ## A wildcard before the last row -/

/-- The zone of acceptance has room for all remainders of the bound. -/
theorem pred_le_acceptZone (n : Nat) : n - 1 ≤ acceptZone n := by
  have hshift : n ≤ n <<< (63 - n.log2) := by
    rw [Nat.shiftLeft_eq]
    exact Nat.le_mul_of_pos_right n (Nat.two_pow_pos _)
  exact Nat.sub_le_sub_right hshift 1

/-- **A word that draws no zero**: below two or more it is accepted and gives another number. -/
theorem exists_positive_word {n : Nat} (hn : 2 ≤ n) :
    ∃ w : UInt64, w.toNat * n % wordCount ≤ acceptZone n ∧ 1 ≤ w.toNat * n / wordCount := by
  -- the least number whose product reaches the first multiple of the count of words
  obtain ⟨q, hq⟩ : ∃ q, q = (wordCount + n - 1) / n := ⟨_, rfl⟩
  have hdiv := Nat.div_add_mod (wordCount + n - 1) n
  have hmod := Nat.mod_lt (wordCount + n - 1) (by omega : 0 < n)
  rw [← hq, Nat.mul_comm] at hdiv
  have hreach : wordCount ≤ q * n := by omega
  have hnear : q * n - wordCount ≤ n - 1 := by omega
  have hq' : q < wordCount := by
    rw [hq]
    obtain ⟨m, rfl⟩ : ∃ m, n = m + 2 := ⟨n - 2, by omega⟩
    refine Nat.div_lt_of_lt_mul ?_
    unfold wordCount
    omega
  have htoNat : (UInt64.ofNat q).toNat = q := Nat.mod_eq_of_lt hq'
  refine ⟨UInt64.ofNat q, ?_, ?_⟩
  · rw [htoNat, Nat.mod_eq_sub_mod hreach]
    exact Nat.le_trans (Nat.mod_le _ _) (Nat.le_trans hnear (pred_le_acceptZone n))
  · rw [htoNat, Nat.le_div_iff_mul_le (by decide)]
    omega

/-- The number of a closed range that an accepted word draws. -/
theorem upTo_of_word {σ : Type} [Source σ] {low high : Nat} (h : low < high) {c : Context σ}
    {w : UInt64} (hw : (word c).1 = .ok w)
    (hzone : w.toNat * (high - low + 1) % wordCount ≤ acceptZone (high - low + 1)) :
    upTo low high c = (.ok (low + w.toNat * (high - low + 1) / wordCount), (word c).2) := by
  have hdraw : redrawing word (fun w => w.toNat * (high - low + 1) % wordCount
      ≤ acceptZone (high - low + 1)) c = (.ok w, (word c).2) :=
    redrawing_of_accept hw (decide_eq_true hzone)
  unfold upTo below
  rw [if_pos h, bind_assoc, bind_of_ok (congrArg Prod.fst hdraw), hdraw]
  rfl

/-- The tape on which a space is left out, a word `w` is drawn for a count, and every word after it
is the greatest one. -/
def countTape (w : UInt64) : Tape := ⟨fun i => if i = 1 then w else topWord⟩

theorem countTape_rest (w : UInt64) : (countTape w).tail.tail = Tape.constant topWord := by
  refine congrArg Tape.mk (funext fun i => ?_)
  show (if i + 1 + 1 = 1 then w else topWord) = topWord
  rw [if_neg (by omega)]

/-- The parts of a list, after the draw of how many there are. -/
theorem sepBy1_of_count {call : Symbol Lexeme Rule → Sampler Tape Text} {inner sep : Phrase}
    {n : Nat} {c c' c'' : Context Tape} {ss : List (Segment (Symbol Lexeme Rule))}
    (hcount : repeatCount 1 c = (.ok n, c'))
    (hparts : chain (alternating (inner.segments call) (sep.segments call) n) c' = (.ok ss, c'')) :
    (Gen.sepBy1 inner sep).segments call c = (.ok ss, c'') := by
  show (repeatCount 1 >>= _) c = _
  rw [bind_of_ok (congrArg Prod.fst hcount), hcount]
  exact hparts

/-- **A bound of two or more admits a wildcard before the last row.** -/
theorem exists_early_wildcard {b : Bounds} (hb : 2 ≤ b.maxRepeat) :
    ∃ c : Context Tape, c.bounds = b ∧ ∃ rest, (Phrase.recordPat.layout c).1
      = .ok (.fixed ['{', ' '] :: recordWildcard :: rowMark :: rest) := by
  obtain ⟨w, hzone, hpos⟩ := exists_positive_word (n := b.maxRepeat - 1 + 1) (by omega)
  let c : Context Tape := ⟨countTape w, b, 0, 0, 0⟩
  let c₁ : Context Tape := ⟨(countTape w).tail, b, 0, 0, 0⟩
  let c₂ : Context Tape := ⟨(countTape w).tail.tail, b, 0, 0, 0⟩
  let call := (sml (σ := Tape)).call (fuelFor c)
  have hrest : c₂.source = Tape.constant topWord := countTape_rest w
  -- no space after the brace
  have hcoin : coin c = (.ok false, c₁) := by rw [coin_eq]; rfl
  have hspace : Phrase.optSpace.segments call c = (.ok [], c₁) := optSpace_of_coin call hcoin
  -- two rows or more
  have hcount : repeatCount 1 c₁
      = (.ok (1 + w.toNat * (b.maxRepeat - 1 + 1) / wordCount), c₂) :=
    upTo_of_word (c := c₁) (w := w) (Nat.lt_of_succ_le hb) rfl hzone
  obtain ⟨n, hn⟩ : ∃ n, 1 + w.toNat * (b.maxRepeat - 1 + 1) / wordCount = n + 2 :=
    ⟨w.toNat * (b.maxRepeat - 1 + 1) / wordCount - 1, by omega⟩
  rw [hn] at hcount
  obtain ⟨rest, hrows⟩ := stays_rows call n
  have hrow : (Gen.sepBy1 (.delayed Phrase.patRow) Phrase.comma).segments call c₁
      = (.ok (recordWildcard :: rowMark :: rest), c₂) := sepBy1_of_count hcount (hrows c₂ hrest)
  have hlast : chain [Phrase.optSpace.segments call] c₂ = (.ok [], c₂) :=
    stays_chain_cons (stays_optSpace call) stays_chain_nil c₂ hrest
  have hparts : chain (Gen.segmentsAll call [Phrase.optSpace,
      .sepBy1 (.delayed Phrase.patRow) Phrase.comma, Phrase.optSpace]) c
      = (.ok (recordWildcard :: rowMark :: (rest ++ [])), c₂) :=
    chain_cons_of_ok hspace (chain_cons_of_ok hrow hlast)
  refine ⟨c, rfl, rest ++ [] ++ [.fixed [' ', '}']], ?_⟩
  show ((chain (Gen.segmentsAll call _) >>= _) c).1 = _
  rw [bind_of_ok (congrArg Prod.fst hparts), hparts]
  rfl

/-- A wildcard with a row after it breaks the law. -/
theorem not_wildcardLast (first rest : List (Segment (Symbol Lexeme Rule)))
    (hfirst : rowMark ∉ first) (hwild : recordWildcard ∈ first) :
    ¬ WildcardLast (recordRows (first ++ rowMark :: rest)) := by
  intro h
  have hsplit : recordRows (first ++ rowMark :: rest) = first :: recordRows rest := by
    have hwhole : ∀ s ∈ first, decide (s = rowMark) = false := by
      intro s hs
      refine decide_eq_false ?_
      rintro rfl
      exact hfirst hs
    unfold recordRows
    rw [List.splitOnP_append_cons first rest (decide_eq_true rfl),
      List.splitOnP_eq_singleton hwhole]
    rfl
  have hne : recordRows rest ≠ [] := List.splitOnP_ne_nil _ rest
  rw [hsplit] at h
  refine h.last first ?_ hwild
  rw [List.dropLast_cons_of_ne_nil hne]
  exact List.mem_cons_self

/-- **The bounds under which the wildcard is legal.** All runs of record patterns within some bounds
keep the wildcard for the last row if and only if the bounds allow one repetition at most: then
there is only one row. Under greater bounds there is a run with a wildcard before the last row,
whatever the depth limit is. -/
theorem wildcard_last_iff (b : Bounds) :
    (∀ (σ : Type) [Source σ] (c : Context σ) (t : Text), c.bounds = b →
      (Phrase.recordPat.sample c).1 = .ok t →
      ∃ ss, (Phrase.recordPat.layout c).1 = .ok ss ∧ join ss = t ∧ WildcardLast (recordRows ss)) ↔
    b.maxRepeat ≤ 1 := by
  constructor
  · intro h
    by_contra hb
    obtain ⟨c, hc, rest, hrun⟩ := exists_early_wildcard (b := b) (by omega)
    have hsample : (Phrase.recordPat.sample c).1 = .ok (join _) := Phrase.sample_of_layout hrun
    obtain ⟨ss, hss, -, hlast⟩ := h Tape c _ hc hsample
    obtain rfl := Except.ok.inj (hrun.symm.trans hss)
    exact not_wildcardLast [.fixed ['{', ' '], recordWildcard] rest (by decide) (by decide) hlast
  · intro hb σ _ c t hc ht
    obtain ⟨ss, hss, hjoin⟩ := Phrase.exists_layout ht
    refine ⟨ss, hss, hjoin, ?_⟩
    rw [recordRows_single (by rw [hc]; exact hb) hss]
    exact wildcardLast_single ss

/-- **A wildcard before another row**: the pattern `{ ..., k }` of seed fifteen. -/
theorem early_wildcard_fifteen :
    ∃ ss, (Phrase.recordPat.layout (Entropy.standard.context 15 ⟨0, 2⟩)).1 = .ok ss ∧
      join ss = "\x7b ..., k \x7d".toList ∧ ¬ WildcardLast (recordRows ss) := by
  have hrun : (Phrase.recordPat.layout (Entropy.standard.context 15 ⟨0, 2⟩)).1
      = .ok [.fixed ['{', ' '], recordWildcard, rowMark, .fixed " ".toList,
          .drawn (.terminal .name) "k".toList, .fixed [' ', '}']] :=
    ok_of_toOption (by decide +kernel)
  refine ⟨_, hrun, by decide, ?_⟩
  exact not_wildcardLast [.fixed ['{', ' '], recordWildcard]
    [.fixed " ".toList, .drawn (.terminal .name) "k".toList, .fixed [' ', '}']] (by decide)
    (by decide)

end SmlSynth
