import SmlSynth.Proofs.Batches
import SmlSynth.Proofs.Budgets

/-!
# What a run reports agrees with its result

The log of a search is a function of the attempts that it made: a line for each, in order, and
between two of them the line that says why the search went on. What follows the last attempt is the
line for the fallback, or nothing if the last attempt is the answer.

* `LogLine`: what is seen of an event; `attemptLine`, `degradingLine`, `fallbackLine`,
  `fixtureLine`: the lines by their wording.
* `searchLog`: the log of attempts.
* `IsSearch`: what the attempts of a search are; `searchFit_log`: a search has such attempts, and
  reports them.
* `Traced.log_inOrder`: runs in order report what each of them reports.
* `events_agree`: the log of a program and that of a batch.
-/

namespace SmlSynth

/-! ## Lines -/

/-- **A line of the log**: what is seen of an event. -/
structure LogLine where
  level : Level
  message : String
  fields : List (String × String)
deriving DecidableEq

def Event.line (e : Event) : LogLine := ⟨e.level, e.message, e.fields⟩

/-- The lines of the events of a run. -/
def Traced.log {α : Type} (run : Traced α) : List LogLine := run.events.map Event.line

def attemptLine (number : Nat) (tier : Tier) (seed : Int64) (length : Nat) : LogLine where
  level := .trace
  message := "attempt"
  fields := [("attempt", toString number), ("tier", tier.name), ("seed", toString seed.toInt),
    ("len", toString length)]

def degradingLine (source target : Tier) (length maxLength : Nat) : LogLine where
  level := .debug
  message := "over budget, degrading"
  fields := [("from", source.name), ("to", target.name), ("len", toString length),
    ("max_length", toString maxLength)]

def fallbackLine (seed : Int64) : LogLine where
  level := .debug
  message := "budget not met, using minimal fallback"
  fields := [("seed", toString seed.toInt)]

def fixtureLine (index : Nat) (tier : Tier) (seed : Int64) (length : Nat) : LogLine where
  level := .debug
  message := "fixture"
  fields := [("index", toString index), ("tier", tier.name), ("seed", toString seed.toInt),
    ("len", toString length)]

/-! ## Attempts -/

/-- **An attempt that was made**: its tier and its text. -/
structure Attempt where
  tier : Tier
  text : Text

/-- **The log of attempts**, numbered from `number` on: a line for each, and one between two of
them. -/
def searchLog (maxLength : Nat) (seed : Int64) (number : Nat) : List Attempt → List LogLine
  | [] => []
  | a :: rest =>
    attemptLine number a.tier (seed + Int64.ofNat number) a.text.length ::
      match rest with
      | [] => []
      | b :: _ =>
        degradingLine a.tier b.tier a.text.length maxLength ::
          searchLog maxLength seed (number + 1) rest

/-- **The attempts of a search** from a tier on, the first of which has a number: each is sampled at
the tier that is as many steps down as attempts came before it, and for the seed of its number. All
but the last were too long, and the last is not or is at the lowest tier. -/
structure IsSearch (once : Tier → Int64 → Except Fault Text) (maxLength : Nat) (seed : Int64)
    (number : Nat) (tier : Tier) (made : List Attempt) (last : Attempt) : Prop where
  sampled : ∀ k a, made[k]? = some a →
    tier.down k = some a.tier ∧ once a.tier (seed + Int64.ofNat (number + k)) = .ok a.text
  ends : made.getLast? = some last
  long : ∀ a ∈ made.dropLast, maxLength < a.text.length
  lowest : maxLength < last.text.length → last.tier = .minimal

/-! ## A search and its attempts -/

/-- The tiers below a tier are those of the next tier down, and this tier. -/
theorem Tier.down_of_lower {tier target : Tier} (h : tier.lower = some target) (k : Nat) :
    tier.down (k + 1) = target.down k := by
  induction k with
  | zero => exact h
  | succ k ih =>
    show (tier.down (k + 1)).bind lower = (target.down k).bind lower
    rw [ih]

section Search

variable {once : Tier → Int64 → Except Fault Text} {m : Nat} {seed : Int64} {left number : Nat}
  {tier target : Tier} {made : List Attempt} {last : Attempt} {t u : Text}

theorem IsSearch.single (h : once tier (seed + Int64.ofNat number) = .ok u)
    (hlowest : m < u.length → tier = .minimal) :
    IsSearch once m seed number tier [⟨tier, u⟩] ⟨tier, u⟩ where
  sampled k a hk := by
    cases k with
    | zero =>
      obtain rfl := Option.some.inj hk
      exact ⟨rfl, h⟩
    | succ k => cases hk
  ends := rfl
  long a ha := by cases ha
  lowest := hlowest

/-- **An attempt that was too long** comes before the attempts that are made a tier lower. -/
theorem IsSearch.cons (h : once tier (seed + Int64.ofNat number) = .ok u) (hlong : m < u.length)
    (hlower : tier.lower = some target)
    (hrest : IsSearch once m seed (number + 1) target made last) :
    IsSearch once m seed number tier (⟨tier, u⟩ :: made) last where
  sampled k a hk := by
    cases k with
    | zero =>
      obtain rfl := Option.some.inj hk
      exact ⟨rfl, h⟩
    | succ k =>
      have hnumber : number + (k + 1) = number + 1 + k := by omega
      rw [Tier.down_of_lower hlower, hnumber]
      exact hrest.sampled k a hk
  ends := by
    rw [List.getLast?_cons, hrest.ends]
    rfl
  long a ha := by
    have hne : made ≠ [] := by
      rintro rfl
      cases hrest.ends
    rw [List.dropLast_cons_of_ne_nil hne] at ha
    rcases List.mem_cons.1 ha with rfl | ha
    · exact hlong
    · exact hrest.long a ha
  lowest := hrest.lowest

/-- The first attempt of a search is at the tier that it starts from. -/
theorem IsSearch.exists_cons (h : IsSearch once m seed number tier made last) :
    ∃ a rest, made = a :: rest ∧ a.tier = tier := by
  cases made with
  | nil => cases h.ends
  | cons a rest => exact ⟨a, rest, rfl, (Option.some.inj (h.sampled 0 a rfl).1).symm⟩

/-- **A search makes attempts and reports them**, and then the fallback if the last one is too long.
If it is not, it is the answer. -/
theorem searchFit_log (hleft : tier.rank < left)
    (h : (searchFit once m seed left number tier).outcome = .ok t) :
    ∃ made last, IsSearch once m seed number tier made last ∧
      (searchFit once m seed left number tier).log =
        searchLog m seed number made ++
          (if last.text.length ≤ m then [] else [fallbackLine seed]) ∧
      (last.text.length ≤ m → last.text = t) := by
  induction left generalizing number tier with
  | zero => omega
  | succ left ih =>
    cases hr : once tier (seed + Int64.ofNat number) with
    | error e =>
      rw [searchFit_of_error hr] at h
      cases h
    | ok u =>
      rcases Nat.lt_or_ge m u.length with hlong | hfits
      · cases hlower : tier.lower with
        | some target =>
          have hrank := Tier.rank_lower hlower
          rw [searchFit_of_long hr hlong hlower] at h ⊢
          obtain ⟨made, last, hsearch, hlog, hanswer⟩ := ih (by omega) h
          refine ⟨⟨tier, u⟩ :: made, last, hsearch.cons hr hlong hlower, ?_, hanswer⟩
          -- the line between the attempts names the tier of the next
          obtain ⟨b, rest, rfl, rfl⟩ := hsearch.exists_cons
          simp only [Traced.log, Traced.after, List.map_cons] at hlog ⊢
          rw [hlog]
          rfl
        | none =>
          rw [searchFit_of_minimal hr hlong hlower]
          have hlowest := Tier.lower_eq_none.1 hlower
          refine ⟨[⟨tier, u⟩], ⟨tier, u⟩, .single hr fun _ => hlowest, ?_, fun hfits => ?_⟩
          · rw [if_neg (by simp only; omega)]
            rfl
          · simp only at hfits
            omega
      · rw [searchFit_of_fits hr hfits] at h ⊢
        refine ⟨[⟨tier, u⟩], ⟨tier, u⟩, .single hr fun hlong => by omega, ?_, fun _ => ?_⟩
        · rw [if_pos hfits]
          rfl
        · exact Except.ok.inj h

/-- The fallback is reported by no line of the attempts. -/
theorem fallbackLine_notMem (m number : Nat) (seed : Int64) (made : List Attempt) :
    fallbackLine seed ∉ searchLog m seed number made := by
  have hmessage : ∀ l ∈ searchLog m seed number made,
      l.message = "attempt" ∨ l.message = "over budget, degrading" := by
    intro l hl
    induction made generalizing number with
    | nil => cases hl
    | cons a rest ih =>
      rcases List.mem_cons.1 hl with rfl | hl
      · exact .inl rfl
      · cases rest with
        | nil => cases hl
        | cons b rest =>
          rcases List.mem_cons.1 hl with rfl | hl
          · exact .inr rfl
          · exact ih (number + 1) hl
  intro hmem
  have hfallback := hmessage _ hmem
  revert hfallback
  simp [fallbackLine]

/-- If the last attempt is too long, then all are. -/
theorem IsSearch.all_long (h : IsSearch once m seed number tier made last)
    (hm : m < last.text.length) : ∀ a ∈ made, m < a.text.length := by
  intro a ha
  rw [← List.dropLast_append_getLast? last h.ends] at ha
  rcases List.mem_append.1 ha with ha | ha
  · exact h.long a ha
  · rw [List.mem_singleton.1 ha]
    exact hm

/-- **The last attempt is too long if all are that could be made**: then it is at the lowest tier,
and there are no others. -/
theorem IsSearch.unmet_iff (h : IsSearch once m seed 0 tier made last) :
    m < last.text.length ↔ ∀ k r, attemptAt once tier seed k = some r → Overlong m r := by
  have hends := h.ends
  rw [List.getLast?_eq_getElem?] at hends
  have hpos := (List.getElem?_eq_some_iff.1 hends).1
  obtain ⟨hlast, hsample⟩ := h.sampled _ _ hends
  rw [Nat.zero_add] at hsample
  constructor
  · intro hm k r hk
    obtain ⟨u, hu, hr⟩ := Option.map_eq_some_iff.1 hk
    rw [h.lowest hm] at hlast
    have hrank := Tier.rank_down hlast
    have hrank' := Tier.rank_down hu
    have hzero := Tier.rank_eq_zero.2 (rfl : Tier.minimal = .minimal)
    have hlt : k < made.length := by omega
    -- so the attempt was made
    obtain ⟨htier, htext⟩ := h.sampled k made[k] (List.getElem?_eq_getElem hlt)
    rw [hu] at htier
    rw [Nat.zero_add, ← Option.some.inj htier, hr] at htext
    exact ⟨_, htext, h.all_long hm _ (List.getElem_mem hlt)⟩
  · intro hall
    have hattempt : attemptAt once tier seed (made.length - 1) = some (.ok last.text) := by
      rw [attemptAt, hlast, Option.map_some, hsample]
    obtain ⟨u, hu, hlong⟩ := hall _ _ hattempt
    rw [Except.ok.inj hu]
    exact hlong

end Search

/-! ## Runs in order -/

namespace Traced

variable {α β : Type}

/-- What goes on with a value reports after it. -/
theorem log_andThen {a : Traced α} {f : α → Traced β} {x : α} (h : a.outcome = .ok x) :
    (a.andThen f).log = a.log ++ (f x).log := by
  simp only [log, andThen, h, List.map_append]

/-- **Runs in order report what each of them reports**, one after another. -/
theorem log_inOrder {run : Nat → Traced α} {reported : α → List LogLine}
    (hrun : ∀ i a, (run i).outcome = .ok a → (run i).log = reported a) {is : List Nat}
    {as : List α} (h : (inOrder run is).outcome = .ok as) :
    (inOrder run is).log = as.flatMap reported := by
  induction is generalizing as with
  | nil =>
    obtain rfl := Except.ok.inj h
    rfl
  | cons i is ih =>
    obtain ⟨a, ha, hnext⟩ := andThen_ok_iff.1 h
    obtain ⟨rest, hrest, has⟩ := andThen_ok_iff.1 hnext
    obtain rfl := Except.ok.inj has
    rw [inOrder, log_andThen ha, log_andThen hrest, hrun i a ha, ih hrest, List.flatMap_cons]
    show reported a ++ (rest.flatMap reported ++ []) = _
    rw [List.append_nil]

end Traced

section Programs

variable {σ : Type} [Source σ] {entropy : Entropy σ}

/-- **The log of a fixture** is that of its program, and the line that tells what it is. -/
def fixtureLog (entropy : Entropy σ) (profile : Profile) (f : Fixture) : List LogLine :=
  (generateTraced entropy (profile.config f.tier f.seed)).log ++
    [fixtureLine f.index f.tier f.seed f.text.length]

theorem log_generateFixture {seed : Int64} {selector : Selector} {profile : Profile} {i : Nat}
    {f : Fixture} (h : (generateFixture entropy seed selector profile i).outcome = .ok f) :
    (generateFixture entropy seed selector profile i).log = fixtureLog entropy profile f := by
  obtain ⟨text, htext, hf⟩ := Traced.andThen_ok_iff.1 h
  obtain rfl := Except.ok.inj hf
  rw [generateFixture, Traced.log_andThen htext]
  rfl

end Programs

/-! ## Logs and results -/

/-- **A log agrees with the search for a program and its answer**: it reports the attempts, each
with its number, tier, seed and length, and after them the fallback if no attempt is within the
budget. The last attempt is the answer, and within the budget, unless the fallback is reported. -/
structure LogAgrees (once : Tier → Int64 → Except Fault Text) (c : Config) (t : Text)
    (log : List LogLine) (made : List Attempt) (last : Attempt) : Prop where
  search : IsSearch once c.maxLength c.seed 0 c.tier made last
  lines : log = searchLog c.maxLength c.seed 0 made ++
    (if last.text.length ≤ c.maxLength then [] else [fallbackLine c.seed])
  unmet : fallbackLine c.seed ∈ log ↔
    ∀ k r, attemptAt once c.tier c.seed k = some r → Overlong c.maxLength r
  answer : (last.text.length = t.length ∧ last.text.length ≤ c.maxLength) ↔
    fallbackLine c.seed ∉ log

variable {σ : Type} [Source σ]

theorem logAgrees_generate {entropy : Entropy σ} {c : Config} {t : Text}
    (h : generate entropy c = .ok t) :
    ∃ made last, LogAgrees (sampleProgram entropy c.comments c.rarities) c t
      (generateTraced entropy c).log made last := by
  have hleft : c.tier.rank < maxAttempts := by
    have hrank := c.tier.rank_lt
    unfold maxAttempts
    omega
  obtain ⟨made, last, hsearch, hlog, hanswer⟩ := searchFit_log hleft h
  have hfallback : fallbackLine c.seed ∈ (generateTraced entropy c).log ↔
      c.maxLength < last.text.length := by
    show fallbackLine c.seed ∈ (searchFit _ _ _ _ _ _).log ↔ _
    rw [hlog]
    have hnot := fallbackLine_notMem c.maxLength 0 c.seed made
    split <;> simp [hnot] <;> omega
  refine ⟨made, last, hsearch, hlog, hfallback.trans hsearch.unmet_iff, ?_⟩
  rw [hfallback]
  constructor
  · rintro ⟨-, hfits⟩
    omega
  · intro hfits
    have hlast := hanswer (by omega)
    exact ⟨congrArg List.length hlast, by omega⟩

/-- **Logs agree with results.** For every program that is generated there are the attempts that
its log reports, and they are those that led to it. The log of a batch is made of the logs of its
fixtures, each of which is the program that its line says. On sources on which the redraw loops
stop, both are there with enough patience. -/
theorem events_agree (entropy : Entropy σ) :
    (∀ c t, generate entropy c = .ok t →
      ∃ made last, LogAgrees (sampleProgram entropy c.comments c.rarities) c t
        (generateTraced entropy c).log made last) ∧
    (∀ count seed selector profile fs,
      (generateBatch entropy count seed selector profile).outcome = .ok fs →
      (generateBatch entropy count seed selector profile).log =
        fs.flatMap (fixtureLog entropy profile) ∧
      ∀ f ∈ fs, generate entropy (profile.config f.tier f.seed) = .ok f.text) ∧
    ((∀ seed, Settles (entropy.seeded seed)) →
      (∀ c, Succeeds (fun m => generate { entropy with patience := m } c) (· ≠ [])) ∧
      ∀ count seed selector profile, Succeeds
        (fun m => (generateBatch { entropy with patience := m } count seed selector profile).outcome)
        fun fs => fs.length = count) := by
  refine ⟨fun c t h => logAgrees_generate h, fun count seed selector profile fs h => ⟨?_, ?_⟩,
    fun hsource => ⟨fun c => generateTraced_succeeds hsource c, fun count seed selector profile =>
      generateBatch_succeeds hsource count seed selector profile⟩⟩
  · exact Traced.log_inOrder (fun i f hf => log_generateFixture hf) h
  · intro f hf
    obtain ⟨i, hi⟩ := List.mem_iff_getElem?.1 hf
    exact ((generateBatch_ok_iff.1 h).2 i f hi).text

/-- A search of two attempts under a budget of nothing, on tapes of zeros: the log reports both, a
step down between them, and the fallback. A batch of two on such tapes reports its fixtures. -/
theorem events_agree_unmet :
    let entropy : Nat → Entropy Tape := fun m => ⟨fun _ => Tape.constant 0, m⟩
    let c : Config := ⟨0, .simple, 0, true, true⟩
    (∃ t made last, generate (entropy 0) c = .ok t ∧
      LogAgrees (sampleProgram (entropy 0) true true) c t (generateTraced (entropy 0) c).log made
        last ∧
      (generateTraced (entropy 0) c).log.map (·.message) =
        ["attempt", "over budget, degrading", "attempt",
          "budget not met, using minimal fallback"]) ∧
    (∀ seed, Settles ((entropy 0).seeded seed)) ∧
    ∃ m fs, fs.length = 2 ∧
      (generateBatch (entropy m) 2 Int64.maxValue .mixed {}).outcome = .ok fs ∧
      (generateBatch (entropy m) 2 Int64.maxValue .mixed {}).log =
        fs.flatMap (fixtureLog (entropy m) {}) := by
  intro entropy c
  have hsource : ∀ seed, Settles ((entropy 0).seeded seed) := fun _ => settles_zero
  obtain ⟨hprogram, -, hsettled⟩ := events_agree (entropy 0)
  obtain ⟨t, ht, -⟩ : ∃ t, generate (entropy 0) c = .ok t ∧ decide (0 ≤ t.length) = true :=
    exists_ok_of_any (by decide +kernel)
  obtain ⟨made, last, hagrees⟩ := hprogram c t ht
  have hmessages : (generateTraced (entropy 0) c).log.map (·.message) =
      ["attempt", "over budget, degrading", "attempt",
        "budget not met, using minimal fallback"] := by decide +kernel
  obtain ⟨m, fs, hlength, hm⟩ := (hsettled hsource).2 2 Int64.maxValue .mixed {}
  obtain ⟨-, hbatch, -⟩ := events_agree (entropy m)
  have hfs := hm m (Nat.le_refl m)
  exact ⟨⟨t, made, last, ht, hagrees, hmessages⟩, hsource, m, fs, hlength, hfs,
    (hbatch 2 _ _ _ fs hfs).1⟩

end SmlSynth
