import SmlSynth.Program.Tier

/-!
# What is asked of a program

* `Config`: the budget, the tier, the seed and two switches.
-/

namespace SmlSynth

/-- **What is asked of a program**: the greatest length in characters, the tier to start
from, the seed, and whether comments and rare fragments may occur. -/
structure Config where
  maxLength : Nat
  tier : Tier
  seed : Int64
  comments : Bool := true
  rarities : Bool := true
deriving DecidableEq

end SmlSynth
