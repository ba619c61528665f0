import SmlSynth.Gen.Draw
import SmlSynth.Gen.Weights

/-!
# Combining samplers

The meaning of each way to combine generators, as an operation on samplers of text. An
operation that needs a nonempty list, a positive weight or a positive count faults
without one, before any draw.

* `concat`, `repeated`, `separated`: one after another.
* `anyOf`, `byWeight`: one of several.
* `gated`: a terminal or a recursive production, by the depth.
-/

namespace SmlSynth.Sampler

variable {σ α : Type} [Source σ]

/-- The fault of an ill-formed generator. -/
def fail (e : GenError) : Sampler σ α := throw (.illFormed e)

/-- Texts one after another. -/
def concat : List (Sampler σ Text) → Sampler σ Text
  | [] => return []
  | s :: rest => do
    let t ← s
    let u ← concat rest
    return t ++ u

/-- One of several, all equally likely; an empty list fails with `whenEmpty`. -/
def anyOf (options : List (Sampler σ α)) (whenEmpty : GenError) : Sampler σ α :=
  if h : 0 < options.length then do (← element options h) else fail whenEmpty

/-- **One of several, by weight.** -/
def byWeight (options : List (Float × Sampler σ α)) : Sampler σ α :=
  if h : 0 < options.length then
    let total := Weights.total (options.map (·.1))
    if 0 < total then do
      let roll ← unit
      let i := Weights.select (options.map (·.1)) (roll * total)
      (options.get ⟨i, by
        have hw : 0 < (options.map (·.1)).length := by simpa
        simpa using Weights.select_lt_length (roll * total) hw⟩).2
    else fail (.nonPositiveWeight total)
  else fail .emptyOptions

/-- **The depth gate**: at the limit the terminal production without a draw. Elsewhere one roll
against the recursive probability decides, and the recursive production runs one level
deeper. -/
def gated (terminal recursive : Sampler σ α) : Sampler σ α := do
  let c ← get
  if c.atLimit then terminal
  else
    let roll ← unit
    if roll < c.recursiveProbability then deeper recursive else terminal

/-- `n` texts one after another. -/
def repeated (n : Nat) (inner : Sampler σ Text) : Sampler σ Text :=
  match n with
  | 0 => return []
  | n + 1 => do
    let t ← inner
    let u ← repeated n inner
    return t ++ u

/-- `n` texts, with a separator between two of them. -/
def separated (n : Nat) (inner sep : Sampler σ Text) : Sampler σ Text :=
  match n with
  | 0 => return []
  | n + 1 => do
    let t ← inner
    let u ← repeated n (do
      let s ← sep
      let t ← inner
      return s ++ t)
    return t ++ u

/-- A repetition count between `least` and the largest that the bounds allow. -/
def repeatCount (least : Nat) : Sampler σ Nat := do upTo least (← get).bounds.maxRepeat

end SmlSynth.Sampler
