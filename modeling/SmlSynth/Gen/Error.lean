import SmlSynth.Decimal.Shortest

/-!
# What can go wrong in a generator

* `GenError`: the ways in which a generator is ill-formed, with their wording.
* `Fault`: the ways in which a run ends without text.
-/

namespace SmlSynth

/-- **The faults of ill-formed generators.** All are found when the generator is
checked, except `nonPositiveCount`, which is found when it runs. -/
inductive GenError where
  | emptyChoice
  | emptyOptions
  | nonPositiveWeight (total : Float)
  | noTerminals
  | noRecursives
  | nonPositiveCount (n : Nat)

namespace GenError

/-- The message of a fault. -/
def message : GenError → String
  | emptyChoice => "choice requires at least one alternative"
  | emptyOptions => "weighted choice requires at least one option"
  | nonPositiveWeight total =>
    "total weight must be positive, got " ++ String.ofList (Double.text total)
  | noTerminals => "depth choice requires at least one terminal production"
  | noRecursives => "depth choice requires at least one recursive production"
  | nonPositiveCount n => "repetition count must be positive, got " ++ toString n

/-- The number under which a fault is reported. -/
def code : GenError → String
  | emptyChoice => "G0001"
  | emptyOptions => "G0002"
  | nonPositiveWeight _ => "G0003"
  | noTerminals => "G0004"
  | noRecursives => "G0005"
  | nonPositiveCount _ => "G0006"

/-- Advice on how to mend a fault. -/
def help : GenError → Option String
  | nonPositiveWeight _ => some "give at least one option a weight above zero"
  | nonPositiveCount _ =>
    some "use \x60many\x60 or \x60optional\x60 when zero repetitions are acceptable"
  | _ => none

end GenError

/-- **Why a run ends without text**: the generator is ill-formed, a redraw loop rejected
more candidates than the patience allows, rules referred to each other beyond the
fuel, or a probability was not a number. -/
inductive Fault where
  | illFormed (e : GenError)
  | outOfPatience
  | outOfFuel
  | notAProbability

end SmlSynth
