import SmlSynth.Grammar.Catalog
import SmlSynth.Grammar.Dec

/-!
# The grammar of Standard ML

* `sml`: the grammar that gives each rule its body.
* `Phrase.sample`: the sampler of a phrase.
-/

namespace SmlSynth

variable {σ : Type} [Source σ]

/-- The body of a recursive phrase class. -/
def Rule.body : Rule → Phrase
  | .ty => Phrase.tyBody
  | .atTy => Phrase.atTyBody
  | .pat => Phrase.patBody
  | .atPat => Phrase.atPatBody
  | .exp => Phrase.expBody
  | .atExp => Phrase.atExpBody
  | .boundExp => Phrase.boundExpBody
  | .dec => Phrase.decBody

/-- **The grammar of Standard ML.** -/
def sml : Grammar σ Lexeme Rule := ⟨Lexeme.sample, Rule.body⟩

/-- **Fuel for a run.** Between two steps of depth at most two rules are entered one inside
the other: a declaration, and what it binds. -/
def fuelFor (c : Context σ) : Nat := 2 * (c.bounds.maxDepth - c.depth + 1)

/-- **The sampler of a phrase.** -/
def Phrase.sample (p : Phrase) : Sampler σ Text := fun c => p.run (sml.call (fuelFor c)) c

end SmlSynth
