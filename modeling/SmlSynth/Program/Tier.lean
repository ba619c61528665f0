import SmlSynth.Gen.Context

/-!
# Tiers of complexity

A program is written at one of five tiers, which bound the depth and the repetitions of
its grammar. A program that is too long is written again one tier lower.

* `Tier`: the tiers, lowest first.
* `Tier.lower`: the next tier down.
* `Tier.cycled`: the tiers in turn.
-/

namespace SmlSynth

/-- **A tier of complexity.** -/
inductive Tier where
  | minimal
  | simple
  | medium
  | complex
  | extreme
deriving Repr, DecidableEq

namespace Tier

/-- The tiers, lowest first. -/
def all : List Tier := [minimal, simple, medium, complex, extreme]

/-- The place of a tier in the order, from zero. -/
def rank : Tier → Nat
  | minimal => 0
  | simple => 1
  | medium => 2
  | complex => 3
  | extreme => 4

instance : LT Tier := ⟨fun a b => a.rank < b.rank⟩

instance : LE Tier := ⟨fun a b => a.rank ≤ b.rank⟩

instance : Ord Tier := ⟨fun a b => compare a.rank b.rank⟩

/-- The name of a tier. -/
def name : Tier → String
  | minimal => "minimal"
  | simple => "simple"
  | medium => "medium"
  | complex => "complex"
  | extreme => "extreme"

/-- The tier of a name. -/
def ofName? (s : String) : Option Tier := all.find? fun t => t.name == s

/-- The bounds of a run at a tier. -/
def bounds : Tier → Bounds
  | minimal => ⟨2, 1⟩
  | simple => ⟨3, 2⟩
  | medium => ⟨5, 3⟩
  | complex => ⟨7, 4⟩
  | extreme => ⟨10, 5⟩

/-- The length budget of a tier, where none is asked for. -/
def defaultBudget : Tier → Nat
  | minimal => 50
  | simple => 150
  | medium => 400
  | complex => 800
  | extreme => 1500

/-- The next tier down. -/
def lower : Tier → Option Tier
  | minimal => none
  | simple => some minimal
  | medium => some simple
  | complex => some medium
  | extreme => some complex

/-- The tiers in turn, lowest first. -/
def cycled (index : Nat) : Tier :=
  match index % 5 with
  | 0 => minimal
  | 1 => simple
  | 2 => medium
  | 3 => complex
  | _ => extreme

end Tier

end SmlSynth
