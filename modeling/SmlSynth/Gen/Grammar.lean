import SmlSynth.Gen.Basic

/-!
# Grammars

A grammar gives each terminal a sampler and each rule a generator over terminals and
rules. Rules may refer to each other in circles; every step through a rule takes one unit
of fuel, so a run always ends, with `outOfFuel` if the circles do not.

* `Grammar.call`: the sampler of a symbol.
-/

namespace SmlSynth

/-- **A symbol of a grammar**: a terminal or a rule. -/
inductive Symbol (τ ν : Type) where
  | terminal (t : τ)
  | rule (r : ν)
deriving Repr, DecidableEq

/-- **A grammar** over terminals `τ` and rules `ν`. -/
structure Grammar (σ τ ν : Type) where
  sample : τ → Sampler σ Text
  body : ν → Gen (Symbol τ ν)

namespace Grammar

variable {σ τ ν : Type} [Source σ]

/-- **The sampler of a symbol.** The body of a rule is checked whenever the rule is reached. -/
def call (g : Grammar σ τ ν) : Nat → Symbol τ ν → Sampler σ Text
  | _, .terminal t => g.sample t
  | 0, .rule _ => throw .outOfFuel
  | fuel + 1, .rule r => (Gen.delayed (g.body r)).run (g.call fuel)

end Grammar

end SmlSynth
