/-!
# Random sources

A random source is a state that yields 64-bit words one after another. Everything
above this module is written for an arbitrary source, so its statements hold for
every sequence of words; the stream cipher of `Random.ChaCha` is the source a
program runs on.

* `Source`: what a source is.
* `Tape`: the source that reads an arbitrary sequence of words.
* `Entropy`: a supplier of sources, one per seed.
-/

namespace SmlSynth

/-- **A random source**: each step yields a 64-bit word and the source after it. -/
class Source (σ : Type) where
  next : σ → UInt64 × σ

/-- An infinite sequence of words, read from the front. -/
structure Tape where
  word : Nat → UInt64

namespace Tape

/-- The sequence without its first word. -/
def tail (t : Tape) : Tape := ⟨fun i => t.word (i + 1)⟩

instance : Source Tape := ⟨fun t => (t.word 0, t.tail)⟩

/-- The sequence that repeats one word. -/
def constant (w : UInt64) : Tape := ⟨fun _ => w⟩

end Tape

/-- **A supplier of randomness**: the source that belongs to each seed, and the
number of candidates that a redraw loop may reject before it gives up. -/
structure Entropy (σ : Type) where
  seeded : UInt64 → σ
  patience : Nat

end SmlSynth
