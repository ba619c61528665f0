import SmlSynth.Program.Tier

/-!
# Events of a run

What a run reports of its progress, with the fields of each report.

* `Event`: the events, with their level, message and fields.
* `Traced`: an outcome together with the events that led to it.
-/

namespace SmlSynth

/-- How much detail a report belongs to, the most detailed last. -/
inductive Level where
  | error
  | warn
  | info
  | debug
  | trace
deriving Repr, DecidableEq

namespace Level

/-- The place of a level in the order of detail, from one. -/
def detail : Level → Nat
  | error => 1
  | warn => 2
  | info => 3
  | debug => 4
  | trace => 5

/-- The name of a level. -/
def name : Level → String
  | error => "ERROR"
  | warn => "WARN"
  | info => "INFO"
  | debug => "DEBUG"
  | trace => "TRACE"

end Level

/-- **The events of a run.** -/
inductive Event where
  /-- A text was sampled. -/
  | attempt (number : Nat) (tier : Tier) (seed : Int64) (length : Nat)
  /-- It was too long, and the next one is sampled a tier lower. -/
  | degrading (source target : Tier) (length maxLength : Nat)
  /-- No text met the budget. -/
  | fallback (seed : Int64)
  /-- A fixture of a batch was finished. -/
  | fixture (index : Nat) (tier : Tier) (seed : Int64) (length : Nat)
deriving DecidableEq

namespace Event

/-- The level of an event. -/
def level : Event → Level
  | attempt .. => .trace
  | _ => .debug

/-- The message of an event. -/
def message : Event → String
  | attempt .. => "attempt"
  | degrading .. => "over budget, degrading"
  | fallback _ => "budget not met, using minimal fallback"
  | fixture .. => "fixture"

/-- The fields of an event, by name. -/
def fields : Event → List (String × String)
  | attempt number tier seed length =>
    [("attempt", toString number), ("tier", tier.name), ("seed", toString seed.toInt),
      ("len", toString length)]
  | degrading source target length maxLength =>
    [("from", source.name), ("to", target.name), ("len", toString length),
      ("max_length", toString maxLength)]
  | fallback seed => [("seed", toString seed.toInt)]
  | fixture index tier seed length =>
    [("index", toString index), ("tier", tier.name), ("seed", toString seed.toInt),
      ("len", toString length)]

end Event

/-- **An outcome with the events that led to it**, first to last. -/
structure Traced (α : Type) where
  events : List Event
  outcome : Except Fault α

namespace Traced

variable {α β : Type}

/-- Continues with a value, after its events; a fault ends the run. -/
def andThen (a : Traced α) (f : α → Traced β) : Traced β :=
  match a.outcome with
  | .ok x =>
    let b := f x
    ⟨a.events ++ b.events, b.outcome⟩
  | .error e => ⟨a.events, .error e⟩

/-- An outcome without events. -/
def of (outcome : Except Fault α) : Traced α := ⟨[], outcome⟩

/-- An event, before what follows. -/
def after (event : Event) (a : Traced α) : Traced α := ⟨event :: a.events, a.outcome⟩

end Traced

end SmlSynth
