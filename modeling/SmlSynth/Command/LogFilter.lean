import SmlSynth.Command.ValuePattern
import SmlSynth.Program.Event
import SmlSynth.Text.Classes

/-!
# Log filters

A filter says which events are shown. It is a list of rules between commas, each a level of
detail for all events, or for those with a target that starts in a certain way, or with a
certain field: `target[{field}]=level`. The most specific rule for an event decides.

A rule can also name a span, a stretch of a run that events belong to, or give a value for a
field of one. A run has no spans, and such a rule concerns no event.

* `LogFilter.parse?`: the filter that a text writes.
* `LogFilter.shows`: whether an event is shown.
-/

namespace SmlSynth

/-- **A rule of a filter**: the events it is for, and the greatest detail it shows. -/
structure LogRule where
  /-- The start of the targets. -/
  target : Option String := none
  /-- A field that the events have. -/
  field : Option String := none
  /-- Whether it is for spans, and so for no event. -/
  spansOnly : Bool := false
  detail : Nat
deriving Repr, DecidableEq

/-- **A filter**, its rules in order. -/
abbrev LogFilter := List LogRule

namespace LogRule

/-! ## Levels -/

/-- The names of the levels of detail, from none at all. -/
def detailNames : List (String × Nat) :=
  [("off", 0), ("error", 1), ("warn", 2), ("info", 3), ("debug", 4), ("trace", 5)]

/-- The detail of a level's number, from 0 to 5, or of its name, in letters of either case. -/
def detail? (cs : Text) : Option Nat :=
  match Digits.natural? (if cs.head? = some '+' then cs.drop 1 else cs) with
  | some n => if n ≤ 5 then some n else none
  | none => detailNames.lookup (String.ofList (cs.map Char.toLower))

/-- The greatest detail. -/
def allDetail : Nat := 5

/-! ## Reading -/

/-- A rule with what follows the mark before its level. Nothing stands for all detail. -/
def withLevel? (rule : LogRule) (level : Text) : Option LogRule :=
  if level = [] then some rule else (detail? level).map fun d => { rule with detail := d }

/-- The rule of a piece without marks: a level, or else a target. -/
def ofWord (piece : Text) : LogRule :=
  match detail? piece with
  | some d => { detail := d }
  | none => { target := some (String.ofList piece), detail := allDetail }

/-- A rule with what a text puts between braces: a field, and a value for those of spans. -/
def withField? (rule : LogRule) (cs : Text) : Option LogRule :=
  match Text.pieces '=' cs with
  | name :: value :: _ =>
    if ValuePattern.isValue value then
      some { rule with field := some (String.ofList name), spansOnly := true }
    else none
  | _ => some { rule with field := some (String.ofList cs) }

/-- A rule with what follows its closing bracket, where `start` bytes precede that. -/
def afterBracket? (piece : Text) (start : Nat) (rule : LogRule) : Text → Option LogRule
  | [] => some rule
  | '=' :: _ => (Text.dropBytes? (start + 1) piece).bind rule.withLevel?
  | _ => none

/-- A rule with what follows its opening bracket, where `start` bytes precede that. -/
def bracketed? (piece : Text) (start : Nat) (rule : LogRule) (rest : Text) :
    Option LogRule := do
  let span := rest.takeWhile fun c => c != ']' && c != '\x7b'
  let rule := { rule with spansOnly := span ≠ [] }
  let start' := start + Text.bytes span + 1
  match rest.drop span.length with
  | ']' :: after =>
    let _ ← Text.cut? start (Text.bytes span) piece
    afterBracket? piece start' { rule with spansOnly := true } after
  | '\x7b' :: after =>
    let _ ← Text.cut? start (Text.bytes span) piece
    let field := after.takeWhile (· != '\x7d')
    if field = [] then none
    else
      let rule ← rule.withField? (← Text.cut? start' (Text.bytes field) piece)
      match after.drop field.length with
      | _ :: ']' :: after => afterBracket? piece (start' + Text.bytes field + 2) rule after
      | _ => none
  | _ => none

/-- Whether a rule can start with a character, the bracket apart. -/
def isTargetStart (c : Char) : Bool := isAlphanumeric c || c == '-' || c == ':' || c == '_'

/-- **The rule of a piece between commas.** Its marks are looked for without the blanks around
the piece. The parts between them are then cut from the piece itself, blanks included, as far
from its start as they were found; the last one goes on to its end. -/
def read? (piece : Text) : Option LogRule := do
  let text := Text.trim piece
  let word := text.takeWhile fun c => c != '=' && c != '['
  let rest := text.drop word.length
  match word.head?, rest with
  | none, '[' :: rest => bracketed? piece 1 { detail := allDetail } rest
  | none, _ => none
  | some c, rest =>
    if !isTargetStart c then none
    else
      let n := Text.bytes word
      match rest with
      | [] => some (ofWord piece)
      | mark :: rest =>
        let target := String.ofList (← Text.cut? 0 n piece)
        let rule := { target := some target, detail := allDetail }
        if mark = '=' then rule.withLevel? (← Text.dropBytes? (n + 1) piece)
        else bracketed? piece (n + 1) rule rest

/-! ## Deciding -/

/-- Whether a rule is for the events with a target and fields. -/
def isFor (rule : LogRule) (target : String) (fields : List String) : Bool :=
  !rule.spansOnly && rule.target.all (fun t => t.toList.isPrefixOf target.toList) &&
    rule.field.all fields.contains

/-- The measure of a rule's target: its length, and less than any for none. -/
def reach (rule : LogRule) : Nat :=
  match rule.target with
  | some t => t.utf8ByteSize + 1
  | none => 0

/-- The order of the fields of rules: none, and then by name. -/
def fieldAtMost : Option String → Option String → Bool
  | none, _ => true
  | some _, none => false
  | some a, some b => !decide (b < a)

/-- Whether a rule decides rather than one before it, where both are for an event: it has the
longer target or, of two with the same, the later field. -/
def overrides (rule before : LogRule) : Bool :=
  decide (before.reach < rule.reach) ||
    (decide (before.reach = rule.reach) && fieldAtMost before.field rule.field)

end LogRule

namespace LogFilter

/-- **The filter that a text writes**, if all its pieces are rules. Empty pieces are passed
over. -/
def parse? (s : String) : Option LogFilter :=
  ((Text.pieces ',' s.toList).filter (· ≠ [])).mapM LogRule.read?

/-- The rule that decides for the events with a target and fields. -/
def deciding (f : LogFilter) (target : String) (fields : List String) : Option LogRule :=
  (f.filter (·.isFor target fields)).foldl
    (fun best rule =>
      match best with
      | some before => if rule.overrides before then some rule else some before
      | none => some rule)
    none

/-- The field that every event has, beside its own. -/
def messageField : String := "message"

/-- **Whether events of a level are shown**, for a target and the names of their own fields. -/
def shows (f : LogFilter) (target : String) (level : Level) (fields : List String) : Bool :=
  match f.deciding target (messageField :: fields) with
  | some rule => level.detail ≤ rule.detail
  | none => false

/-- The line of an event. -/
def line (target : String) (level : Level) (message : String) (fields : List (String × String)) :
    String :=
  let written := fields.map fun f => " " ++ f.1 ++ "=" ++ f.2
  " " ++ level.name ++ " " ++ target ++ ": " ++ message ++ String.join written ++ "\n"

/-- The lines of the events that are shown. -/
def lines (f : LogFilter) (target : String) (events : List Event) : List String :=
  (events.filter fun e => f.shows target e.level (e.fields.map Prod.fst)).map fun e =>
    line target e.level e.message e.fields

end LogFilter

end SmlSynth
