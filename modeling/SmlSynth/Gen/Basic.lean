import SmlSynth.Gen.Combinators

/-!
# Generators

A generator is a tree that describes how text is sampled. Its leaves are fixed texts and
references to symbols `ρ`, whose meaning is given when the tree is run; so rules can refer
to one another without infinite trees.

* `Change`: what can be done to a text after it is sampled.
* `Gen`: the trees.
* `Gen.check`: the static check, from the leaves up, that finds the first ill-formed node.
* `Gen.run`: the sampler that a tree describes, given one for each symbol.

What stands under `delayed` is checked when it runs, and the count of `count` likewise.
-/

namespace SmlSynth

/-- **A change of a text.** What the grammar does to its texts is kept as data, so that a tree
can be read without running it. -/
inductive Change where
  /-- Puts a text between two fixed ones. -/
  | enclose (before after : Text)
  /-- Adds a space to a text that ends in a character. -/
  | padAfter (c : Char)
  /-- Anything else. -/
  | other (f : Text → Text)

namespace Change

/-- The text after a change. -/
def apply : Change → Text → Text
  | enclose before after, t => before ++ t ++ after
  | padAfter c, t => if t.getLast? = some c then t ++ [' '] else t
  | other f, t => f t

instance : Coe (Text → Text) Change := ⟨other⟩

end Change

/-- **Text generators** over symbols `ρ`. -/
inductive Gen (ρ : Type) where
  /-- Always the same text. -/
  | literal (text : Text)
  /-- One of fixed texts, all equally likely. -/
  | oneOf (items : List Text)
  /-- The texts of generators one after another. -/
  | seq (parts : List (Gen ρ))
  /-- One of several generators, all equally likely. -/
  | choice (options : List (Gen ρ))
  /-- One of several generators, by weight. -/
  | weighted (options : List (Float × Gen ρ))
  /-- A terminal or a recursive production, by the depth. -/
  | depthChoice (terminal recursive : Gen ρ)
  /-- The same for two lists of productions. -/
  | depthChoiceAmong (terminals recursives : List (Gen ρ))
  /-- Any number of texts up to the bound. -/
  | many (inner : Gen ρ)
  /-- At least one text and at most the bound. -/
  | many1 (inner : Gen ρ)
  /-- Exactly `n` texts. -/
  | count (n : Nat) (inner : Gen ρ)
  /-- Nothing or a text, with equal chances. -/
  | optional (inner : Gen ρ)
  /-- Any number of texts up to the bound, with separators between them. -/
  | sepBy (inner sep : Gen ρ)
  /-- At least one text and at most the bound, with separators between them. -/
  | sepBy1 (inner sep : Gen ρ)
  /-- One of two generators, with equal chances. -/
  | either (left right : Gen ρ)
  /-- A text between two others. -/
  | between (inner before after : Gen ρ)
  /-- A text after a change. -/
  | map (change : Change) (inner : Gen ρ)
  /-- A generator that is checked when it runs. -/
  | delayed (inner : Gen ρ)
  /-- The text of a symbol. -/
  | ref (symbol : ρ)

namespace Gen

variable {ρ σ : Type}

/-! ## Derived forms -/

/-- The text of a string. -/
def lit (s : String) : Gen ρ := .literal s.toList

/-- No text. -/
def empty : Gen ρ := .literal []

/-- A single space. -/
def space : Gen ρ := .literal [' ']

/-- One generator after another. -/
def followedBy (first second : Gen ρ) : Gen ρ := .seq [first, second]

/-- A text in parentheses. -/
def parens (inner : Gen ρ) : Gen ρ := .map (.enclose ['('] [')']) inner

/-- A text in square brackets. -/
def brackets (inner : Gen ρ) : Gen ρ := .map (.enclose ['['] [']']) inner

/-- A text in braces, with a space on either side. -/
def braces (inner : Gen ρ) : Gen ρ := .map (.enclose ['{', ' '] [' ', '}']) inner

/-! ## The static check -/

/-- The fault of a generator's own node, when its parts are sound. -/
def fault? : Gen ρ → Option GenError
  | .oneOf items => if items.isEmpty then some .emptyChoice else none
  | .choice options => if options.isEmpty then some .emptyChoice else none
  | .weighted options =>
    if options.isEmpty then some .emptyOptions
    else
      let total := Weights.total (options.map (·.1))
      if 0 < total then none else some (.nonPositiveWeight total)
  | .depthChoiceAmong terminals recursives =>
    if terminals.isEmpty then some .noTerminals
    else if recursives.isEmpty then some .noRecursives
    else none
  | _ => none

/-- Checks a generator's own node. -/
def checkNode (g : Gen ρ) : Except GenError Unit :=
  match g.fault? with
  | some e => .error e
  | none => .ok ()

mutual

/-- **The static check.** The parts of a node are checked first, in order, and then the node itself;
the first fault is reported. -/
def check : Gen ρ → Except GenError Unit
  | .literal _ => pure ()
  | .oneOf items => checkNode (.oneOf items : Gen ρ)
  | .seq parts => checkAll parts
  | .choice options => do checkAll options; checkNode (.choice options)
  | .weighted options => do checkOptions options; checkNode (.weighted options)
  | .depthChoice terminal recursive => do check terminal; check recursive
  | .depthChoiceAmong terminals recursives => do
    checkAll terminals
    checkAll recursives
    checkNode (.depthChoiceAmong terminals recursives)
  | .many inner => check inner
  | .many1 inner => check inner
  | .count _ inner => check inner
  | .optional inner => check inner
  | .sepBy inner sep => do check inner; check sep
  | .sepBy1 inner sep => do check inner; check sep
  | .either left right => do check left; check right
  | .between inner before after => do check inner; check before; check after
  | .map _ inner => check inner
  | .delayed _ => pure ()
  | .ref _ => pure ()

/-- Checks generators in order. -/
def checkAll : List (Gen ρ) → Except GenError Unit
  | [] => pure ()
  | g :: gs => do check g; checkAll gs

/-- Checks the generators of weighted options in order. -/
def checkOptions : List (Float × Gen ρ) → Except GenError Unit
  | [] => pure ()
  | (_, g) :: gs => do check g; checkOptions gs

end

/-! ## Running -/

variable [Source σ]

mutual

/-- **The sampler of a generator**, given one for each symbol. -/
def run (call : ρ → Sampler σ Text) : Gen ρ → Sampler σ Text
  | .literal text => return text
  | .oneOf items => Sampler.anyOf (items.map pure) .emptyChoice
  | .seq parts => Sampler.concat (runAll call parts)
  | .choice options => Sampler.anyOf (runAll call options) .emptyChoice
  | .weighted options => Sampler.byWeight (runOptions call options)
  | .depthChoice terminal recursive => Sampler.gated (run call terminal) (run call recursive)
  | .depthChoiceAmong terminals recursives =>
    Sampler.gated (Sampler.anyOf (runAll call terminals) .noTerminals)
      (Sampler.anyOf (runAll call recursives) .noRecursives)
  | .many inner => do Sampler.repeated (← Sampler.repeatCount 0) (run call inner)
  | .many1 inner => do Sampler.repeated (← Sampler.repeatCount 1) (run call inner)
  | .count n inner =>
    if n = 0 then Sampler.fail (.nonPositiveCount n) else Sampler.repeated n (run call inner)
  | .optional inner => do if ← Sampler.coin then run call inner else return []
  | .sepBy inner sep => do
    Sampler.separated (← Sampler.repeatCount 0) (run call inner) (run call sep)
  | .sepBy1 inner sep => do
    Sampler.separated (← Sampler.repeatCount 1) (run call inner) (run call sep)
  | .either left right => do
    if (← Sampler.below 2 (by decide)) = 0 then run call left else run call right
  | .between inner before after =>
    Sampler.concat [run call before, run call inner, run call after]
  | .map change inner => do return change.apply (← run call inner)
  | .delayed inner =>
    match check inner with
    | .ok () => run call inner
    | .error e => Sampler.fail e
  | .ref symbol => call symbol

/-- The samplers of generators. -/
def runAll (call : ρ → Sampler σ Text) : List (Gen ρ) → List (Sampler σ Text)
  | [] => []
  | g :: gs => run call g :: runAll call gs

/-- The samplers of weighted options. -/
def runOptions (call : ρ → Sampler σ Text) : List (Float × Gen ρ) → List (Float × Sampler σ Text)
  | [] => []
  | (w, g) :: gs => (w, run call g) :: runOptions call gs

end

end Gen

end SmlSynth
