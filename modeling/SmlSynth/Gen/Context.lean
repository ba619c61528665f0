import SmlSynth.Random.Source
import SmlSynth.Gen.Error
import SmlSynth.Text

/-!
# Generation contexts

A run threads a context through every generator: the random source, the bounds of the
run and the current depth of recursion. A sampler is a function of the context that
yields a value or a fault, and in both cases the context after it.

* `Context.atLimit`, `Context.recursiveProbability`: the depth gate.
* `Sampler.deeper`: the only change of depth, undone whether or not the body fails.
-/

namespace SmlSynth

/-- **The bounds of a run**: the depth at which only terminal productions are taken, and
the largest number of repetitions. -/
structure Bounds where
  maxDepth : Nat := 10
  maxRepeat : Nat := 5
deriving Repr, DecidableEq

/-- **The state of a run.** `depth` is the current depth, `peak` the greatest depth so
far, and `patience` the number of candidates a redraw loop may reject. -/
structure Context (σ : Type) where
  source : σ
  bounds : Bounds
  patience : Nat
  depth : Nat := 0
  peak : Nat := 0

namespace Context

variable {σ : Type}

/-- Whether only terminal productions are left. -/
def atLimit (c : Context σ) : Bool := c.bounds.maxDepth ≤ c.depth

/-- **The probability of a recursive production**: it falls as a square from one at depth
zero to zero at the limit. -/
def recursiveProbability (c : Context σ) : Float :=
  if c.bounds.maxDepth = 0 || c.atLimit then 0.0
  else
    let ratio := (UInt64.ofNat c.depth).toFloat / (UInt64.ofNat c.bounds.maxDepth).toFloat
    (1.0 - ratio) * (1.0 - ratio)

/-- The context one level deeper. -/
def descend (c : Context σ) : Context σ :=
  { c with depth := c.depth + 1, peak := max c.peak (c.depth + 1) }

/-- The context one level up. -/
def ascend (c : Context σ) : Context σ := { c with depth := c.depth - 1 }

end Context

/-- **A sampler**: from a context, a value or a fault, and the context after it. -/
abbrev Sampler (σ α : Type) := ExceptT Fault (StateM (Context σ)) α

namespace Sampler

variable {σ α : Type}

/-- Runs `body` one level deeper. The depth goes back also when `body` fails. -/
def deeper (body : Sampler σ α) : Sampler σ α := fun c =>
  let (outcome, c') := body c.descend
  (outcome, c'.ascend)

end Sampler

end SmlSynth
