/-!
# Paths

A path names the directories to go through, between slashes. One that starts with a slash
starts from the root of all files, and any other from the working directory.

* `Path.parts`: the names of a path.
* `Path.lineage`: a path and those of the directories above it.
-/

namespace SmlSynth.Path

/-- The parts of a path between its slashes. -/
def parts (path : String) : List String :=
  ((path.toList.splitBy fun a b => a ≠ '/' && b ≠ '/').filter (· ≠ ['/'])).map String.ofList

/-- Whether a path starts from the root. -/
def isAbsolute (path : String) : Bool := path.toList.head? == some '/'

/-- Whether a path ends with a slash, and so means a directory. -/
def meansDirectory (path : String) : Bool := path.toList.getLast? == some '/'

/-- The path of a file in a directory. -/
def join (directory file : String) : String :=
  if directory = "" ∨ meansDirectory directory then directory ++ file
  else directory ++ "/" ++ file

/-- The parts of a path that lead somewhere: a `.` does so only where a path starts. -/
def steps (path : String) : List String :=
  match parts path with
  | [] => []
  | first :: rest =>
    if first = "." ∧ isAbsolute path then rest.filter (· ≠ ".")
    else first :: rest.filter (· ≠ ".")

/-- The lists that a list starts with, from the longest, but itself and the empty one. -/
def properStarts (steps : List String) : List (List String) :=
  ((List.range (steps.length - 1)).map fun i => steps.take (i + 1)).reverse

/-- **A path and those of the directories above it**, up to the first below the root or the
working directory. -/
def lineage (path : String) : List String :=
  match steps path with
  | [] => []
  | steps =>
    let root := if isAbsolute path then "/" else ""
    path :: (properStarts steps).map fun above => root ++ "/".intercalate above

end SmlSynth.Path
