import SmlSynth.Program.Tier

/-!
# Profiles

A profile says what the programs of a batch may look like: a length budget for each tier
and two switches.

* `Profile`, `Profile.budget`.
* `Profile.embeddedTexts`, `Profile.embedded`: the profiles that come with the program, as texts and
  as what these say.
-/

namespace SmlSynth

/-- The length budgets of the tiers. -/
structure Budgets where
  minimal : Nat := Tier.minimal.defaultBudget
  simple : Nat := Tier.simple.defaultBudget
  medium : Nat := Tier.medium.defaultBudget
  complex : Nat := Tier.complex.defaultBudget
  extreme : Nat := Tier.extreme.defaultBudget
deriving Repr, DecidableEq

/-- **A profile**: whether comments occur, whether rare fragments occur at the extreme tier,
and the budgets. -/
structure Profile where
  includeComments : Bool := false
  obscureFeatures : Bool := true
  maxLengths : Budgets := {}
deriving Repr, DecidableEq

namespace Profile

/-- **The budget of a tier.** A budget of zero counts as one. -/
def budget (p : Profile) (tier : Tier) : Nat :=
  max 1 <| match tier with
    | .minimal => p.maxLengths.minimal
    | .simple => p.maxLengths.simple
    | .medium => p.maxLengths.medium
    | .complex => p.maxLengths.complex
    | .extreme => p.maxLengths.extreme

/-- **The texts of the profiles that come with the program**, by name. They are read when a profile
is looked up. -/
def embeddedTexts : List (String × String) :=
  [("default",
      "# Default batch profile: no comments, obscure constructs in extreme\n" ++
      "# fixtures, standard per-tier length budgets.\n\n" ++
      "include_comments = false\nobscure_features = true\n\n" ++
      "[max_lengths]\nminimal = 50\nsimple = 150\nmedium = 400\ncomplex = 800\n" ++
      "extreme = 1500\n"),
    ("tiny",
      "# Small fixtures for quick lexer/parser smoke runs.\n\n" ++
      "obscure_features = false\n\n" ++
      "[max_lengths]\nminimal = 20\nsimple = 60\nmedium = 120\ncomplex = 200\n" ++
      "extreme = 300\n"),
    ("commented",
      "# Default budgets with comments enabled, for exercising comment lexing.\n\n" ++
      "include_comments = true\n")]

/-- Their names. -/
def available : List String := embeddedTexts.map (·.1)

/-- **The profiles that come with the program**, by name: what their texts say. -/
def embedded : List (String × Profile) :=
  [("default", {}),
    ("tiny", { obscureFeatures := false, maxLengths := ⟨20, 60, 120, 200, 300⟩ }),
    ("commented", { includeComments := true })]

end Profile

end SmlSynth
