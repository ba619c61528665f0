import SmlSynth.Gen.Error
import SmlSynth.Text.Fill

/-!
# Error reports

* `Report`: what is shown of an error.
* `Report.render`: its layout, in lines that are broken at a fixed width.
-/

namespace SmlSynth

/-- **What is shown of an error**: its code and message, what caused it, and advice. -/
structure Report where
  code : String
  message : String
  cause : Option String := none
  help : Option String := none

/-- What the lines of a part of a report start with: the first of them, and the later ones. The
two are of one width. -/
structure Margin where
  first : String
  later : String

namespace Margin

/-- The margin of a message. -/
def message : Margin := ⟨"  x ", "  | "⟩

/-- The margin of a cause. -/
def cause : Margin := ⟨"  \x60-> ", "      "⟩

/-- The margin of advice. -/
def help : Margin := ⟨"  help: ", "        "⟩

/-- Puts a margin before lines. -/
def put (m : Margin) : List Text → List String
  | [] => []
  | line :: rest =>
    (m.first ++ String.ofList line) :: rest.map fun l => m.later ++ String.ofList l

end Margin

namespace Report

/-- The width of a report, its margin included. -/
def width : Nat := 198

/-- The lines of a part of a report. -/
def part (m : Margin) (text : String) : String :=
  String.join ((m.put (Text.fill (width - m.first.length) text.toList)).map (· ++ "\n"))

/-- A part that may be missing. -/
def optionalPart (m : Margin) (text : Option String) : String :=
  match text with
  | some t => part m t
  | none => ""

/-- **The layout of a report**: the code, an empty line and the message, then the cause and
the advice as far as there are any. -/
def render (r : Report) : String :=
  r.code ++ "\n\n" ++ part .message r.message ++ optionalPart .cause r.cause ++
    optionalPart .help r.help

end Report

/-- The report of an ill-formed generator. -/
def GenError.report (e : GenError) : Report :=
  { code := e.code, message := e.message, help := e.help }

end SmlSynth
