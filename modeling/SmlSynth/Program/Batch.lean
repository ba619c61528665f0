import SmlSynth.Profile
import SmlSynth.Program.Budget

/-!
# Batches of programs

* `Selector`: which tier each program of a batch is written at.
* `Fixture`: a program of a batch.
* `generateBatch`: a batch with consecutive seeds, under a profile.
* `generateSuite`: programs that go through the tiers and switches in turn.
-/

namespace SmlSynth

/-! ## Selectors and fixtures -/

/-- **The tiers of a batch**: all in turn, or one throughout. -/
inductive Selector where
  | mixed
  | single (tier : Tier)
deriving Repr, DecidableEq

namespace Selector

/-- The tier of the program at a place in the batch. -/
def tierFor : Selector → Nat → Tier
  | mixed, index => .cycled index
  | single tier, _ => tier

/-- The name of a selector. -/
def name : Selector → String
  | mixed => "mixed"
  | single tier => tier.name

/-- The selector of a name. -/
def ofName? (s : String) : Option Selector :=
  if s = "mixed" then some mixed else (Tier.ofName? s).map single

end Selector

/-- **A program of a batch**: its place, its tier, its seed and its text. -/
structure Fixture where
  index : Nat
  tier : Tier
  seed : Int64
  text : Text
deriving DecidableEq

/-! ## Batches -/

variable {σ : Type} [Source σ]

/-- What is asked of the program at a place in a batch. Rare fragments occur at the extreme
tier only. -/
def Profile.config (profile : Profile) (tier : Tier) (seed : Int64) : Config where
  maxLength := profile.budget tier
  tier := tier
  seed := seed
  comments := profile.includeComments
  rarities := profile.obscureFeatures && tier == .extreme

/-- The fixture at a place in a batch, with its events. -/
def generateFixture (entropy : Entropy σ) (seed : Int64) (selector : Selector) (profile : Profile)
    (index : Nat) : Traced Fixture :=
  let tier := selector.tierFor index
  let fixtureSeed := seed + Int64.ofNat index
  Traced.andThen (generateTraced entropy (profile.config tier fixtureSeed)) fun text =>
    .after (.fixture index tier fixtureSeed text.length)
      (.of (.ok ⟨index, tier, fixtureSeed, text⟩))

/-- The results of traced runs in order; the first fault ends them. -/
def Traced.inOrder {α : Type} (run : Nat → Traced α) : List Nat → Traced (List α)
  | [] => .of (.ok [])
  | i :: rest =>
    Traced.andThen (run i) fun a =>
      Traced.andThen (Traced.inOrder run rest) fun as => .of (.ok (a :: as))

/-- **A batch of programs** with consecutive seeds. -/
def generateBatch (entropy : Entropy σ) (count : Nat) (seed : Int64) (selector : Selector)
    (profile : Profile) : Traced (List Fixture) :=
  Traced.inOrder (generateFixture entropy seed selector profile) (List.range count)

/-! ## Test suites -/

/-- What is asked of the program at a place in a test suite: the tiers in turn, comments but
in every third program, and rare fragments in every other one. -/
def suiteConfig (maxLength : Nat) (seed : Int64) (index : Nat) : Config where
  maxLength := maxLength
  tier := .cycled index
  seed := seed + Int64.ofNat index
  comments := index % 3 != 0
  rarities := index % 2 == 0

/-- **A suite of programs** that goes through the tiers and switches in turn. -/
def generateSuite (entropy : Entropy σ) (count maxLength : Nat) (seed : Int64) :
    Traced (List Text) :=
  Traced.inOrder (fun index => generateTraced entropy (suiteConfig maxLength seed index))
    (List.range count)

end SmlSynth
