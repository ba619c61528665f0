import SmlSynth.Json.Value
import SmlSynth.Word

/-!
# Records in JSON

A record is written as an object with its fields, or as an array of the field values in
order. Other members of the object are ignored; a field must not occur twice.

* `Json.fields?`: the values of named fields.
* `Json.asText?`, `Json.asNat?`, …: values of the basic types.
-/

namespace SmlSynth.Json

/-! ## Basic types -/

/-- A text. -/
def asText? : Value → Option Text
  | .string content => content
  | _ => none

/-- A `String`. -/
def asString? (v : Value) : Option String := (asText? v).map String.ofList

/-- A truth value. -/
def asBool? : Value → Option Bool
  | .bool b => some b
  | _ => none

/-- An integer. -/
def asInt? : Value → Option Int
  | .number numeral => integer? numeral
  | _ => none

/-- A natural number that a word holds. -/
def asNat? (v : Value) : Option Nat := do
  match ← asInt? v with
  | .ofNat n => word? n
  | .negSucc _ => none

/-- An integer that a signed word holds. -/
def asInt64? (v : Value) : Option Int64 := (asInt? v).bind int64?

/-- The items of an array, each of a type. -/
def asList? {α : Type} (item? : Value → Option α) : Value → Option (List α)
  | .array items => items.mapM item?
  | _ => none

/-! ## Fields -/

/-- The value of a key among members. -/
def member? (key : Text) (members : List (Text × Value)) : Option Value := members.lookup key

/-- Whether none of the names occurs twice among the keys. -/
def distinctFields (names keys : List Text) : Bool := names.all fun n => keys.count n ≤ 1

/-- Values in the order of the names, missing ones as `none`; `none` if there are too many. -/
def inOrder : List String → List Value → Option (List (Option Value))
  | [], [] => some []
  | [], _ :: _ => none
  | _ :: names, [] => (inOrder names []).map (none :: ·)
  | _ :: names, v :: vs => (inOrder names vs).map (some v :: ·)

/-- **The values of named fields**, missing ones as `none`. -/
def fields? (names : List String) : Value → Option (List (Option Value))
  | .object members => do
    let members ← members.mapM fun m => m.1.map fun key => (key, m.2)
    let names := names.map String.toList
    if distinctFields names (members.map (·.1)) then some (names.map (member? · members)) else none
  | .array items => inOrder names items
  | _ => none

/-- A field that has to be there. -/
def required {α : Type} (read? : Value → Option α) (field : Option Value) : Option α :=
  field.bind read?

/-- A field that may be missing. -/
def withDefault {α : Type} (read? : Value → Option α) (default : α) : Option Value → Option α
  | some v => read? v
  | none => some default

end SmlSynth.Json
