import SmlSynth.Gen.Context
import SmlSynth.Word

/-!
# Draws

The primitive draws that every generator is made of. Only 64-bit words are taken from
the source, and each draw says how many.

* `below n`: a number below `n`, all equally likely. A word times `n` has its high half
  below `n`; words whose low half falls into the uneven last part are redrawn.
* `inRange`, `upTo`: numbers of a half-open and of a closed range; a range with one
  or no number yields its lower end without a draw from the closed form.
* `unit`: a double in the half-open unit interval, with 52 random bits.
* `chance p`: true with probability `p`.
-/

namespace SmlSynth.Sampler

variable {σ α : Type} [Source σ]

/-- The next word of the source. -/
def word : Sampler σ UInt64 := fun c =>
  let (w, s) := Source.next c.source
  (.ok w, { c with source := s })

/-- **Draws until a candidate is accepted**, but rejects at most as many as are given. -/
def redraw (draw : Sampler σ α) (accept : α → Bool) : Nat → Sampler σ α
  | 0 => throw .outOfPatience
  | tries + 1 => do
    let a ← draw
    if accept a then return a else redraw draw accept tries

/-- Draws until a candidate is accepted, within the patience of the context. -/
def redrawing (draw : Sampler σ α) (accept : α → Bool) : Sampler σ α := do
  redraw draw accept ((← get).patience + 1)

/-- The greatest low half of a word's product with `n` that is accepted: one less than the
greatest multiple of `n` by a power of two that 64 bits hold. -/
def acceptZone (n : Nat) : Nat := n <<< (63 - n.log2) - 1

/-- **A number below `n`**, for `n` up to `wordCount`. -/
def below (n : Nat) (h : 0 < n) : Sampler σ (Fin n) := do
  let w ← redrawing word fun w => w.toNat * n % wordCount ≤ acceptZone n
  return ⟨w.toNat * n / wordCount, by
    have hw : w.toNat < wordCount := w.toNat_lt
    exact Nat.div_lt_of_lt_mul (Nat.mul_lt_mul_of_pos_right hw h)⟩

/-- A number of the half-open range from `start` to `stop`. An empty range yields `start`
without a draw. -/
def inRange (start stop : Nat) : Sampler σ Nat :=
  if h : start < stop then do
    let i ← below (stop - start) (by omega)
    return start + i
  else return start

/-- A number of the closed range from `low` to `high`. A range with at most one number
yields `low` without a draw. -/
def upTo (low high : Nat) : Sampler σ Nat :=
  if low < high then do
    let i ← below (high - low + 1) (by omega)
    return low + i
  else return low

/-- The double that 52 bits name in the half-open interval from one to two, less one. -/
def unitOfWord (w : UInt64) : Float :=
  Float.ofBits ((0x3FF0000000000000 : UInt64) ||| (w >>> 12)) - 1.0

/-- **A double in the half-open unit interval**, from one word. -/
def unit : Sampler σ Float := return unitOfWord (← word)

/-- **True with probability `p`**, which is first brought into the unit interval. Certainty takes
no draw, and every other probability takes one. -/
def chance (p : Float) : Sampler σ Bool :=
  let p := if p < 0.0 then 0.0 else if 1.0 < p then 1.0 else p
  if p == 1.0 then return true
  else if p < 1.0 then do
    let w ← word
    return w < (p * 18446744073709551616.0).toUInt64
  else throw .notAProbability

/-- A fair coin. -/
def coin : Sampler σ Bool := chance 0.5

/-- **One of the elements of a list**, all equally likely. A list of one takes a draw too. -/
def element (items : List α) (h : 0 < items.length) : Sampler σ α := do
  let i ← below items.length h
  return items[i]

/-- One of the elements of a list, if there is one. -/
def pick (items : List α) : Sampler σ (Option α) :=
  if h : 0 < items.length then some <$> element items h else return none

/-- `n` draws, from left to right. -/
def times (n : Nat) (draw : Sampler σ α) : Sampler σ (List α) :=
  match n with
  | 0 => return []
  | n + 1 => do
    let a ← draw
    let rest ← times n draw
    return a :: rest

end SmlSynth.Sampler
