import SmlSynth.Grammar.Sml
import SmlSynth.Program.Event
import SmlSynth.Program.Shape

/-!
# Programs within a length budget

A program is sampled at the tier that is asked for. While it is too long, the next one is
sampled a tier lower and with the next seed; when even the lowest tier is too long, the
answer is the lowest tier's program for the seed that was asked for.

* `sampleProgram`: one program of a tier for a seed.
* `firstFit`: the search, for any way to sample programs.
* `generate`: the search over sampled programs.
-/

namespace SmlSynth

/-- The number of programs that a search may sample. -/
def maxAttempts : Nat := 10

/-- **The search for a program that fits.** `once` samples a program of a tier for a seed. The
search stops at the first program of at most `maxLength` characters. Each step takes one of
the attempts that are left. -/
def searchFit (once : Tier → Int64 → Except Fault Text) (maxLength : Nat) (seed : Int64) :
    (left number : Nat) → Tier → Traced Text
  | 0, _, _ => .after (.fallback seed) (.of (once .minimal seed))
  | left + 1, number, tier =>
    let attemptSeed := seed + Int64.ofNat number
    Traced.andThen (.of (once tier attemptSeed)) fun text =>
      .after (.attempt number tier attemptSeed text.length) <|
        if text.length ≤ maxLength then .of (.ok text)
        else
          match tier.lower with
          | some target =>
            .after (.degrading tier target text.length maxLength)
              (searchFit once maxLength seed left (number + 1) target)
          | none => .after (.fallback seed) (.of (once .minimal seed))

/-- The search from its start. -/
def firstFit (once : Tier → Int64 → Except Fault Text) (maxLength : Nat) (tier : Tier)
    (seed : Int64) : Traced Text :=
  searchFit once maxLength seed maxAttempts 0 tier

variable {σ : Type} [Source σ]

/-- The context in which a run at a tier starts. -/
def Entropy.context (entropy : Entropy σ) (seed : UInt64) (bounds : Bounds) : Context σ :=
  { source := entropy.seeded seed, bounds := bounds, patience := entropy.patience }

/-- **One program of a tier for a seed**, whatever its length. -/
def sampleProgram (entropy : Entropy σ) (comments rarities : Bool) (tier : Tier) (seed : Int64) :
    Except Fault Text :=
  ((Phrase.program tier comments rarities).sample
    (entropy.context seed.toUInt64 tier.bounds)).1

/-- **A program as asked for**, with the events of the search. -/
def generateTraced (entropy : Entropy σ) (c : Config) : Traced Text :=
  firstFit (sampleProgram entropy c.comments c.rarities) c.maxLength c.tier c.seed

/-- A program as asked for. -/
def generate (entropy : Entropy σ) (c : Config) : Except Fault Text :=
  (generateTraced entropy c).outcome

end SmlSynth
