/-!
# Machine words

* `wordCount`: how many 64-bit words there are.
* `word?`, `int64?`: the numbers that a 64-bit word holds, without and with a sign.
-/

namespace SmlSynth

/-- The number of 64-bit words. -/
def wordCount : Nat := 0x10000000000000000

/-- A natural number, if a word holds it. -/
def word? (n : Nat) : Option Nat := if n < wordCount then some n else none

/-- **An integer as a signed word**, if one holds it. -/
def int64? (i : Int) : Option Int64 :=
  if -0x8000000000000000 ≤ i ∧ i ≤ 0x7FFFFFFFFFFFFFFF then some (Int64.ofInt i) else none

end SmlSynth
