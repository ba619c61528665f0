import SmlSynth.Files.Fault
import SmlSynth.Files.Path

/-!
# Making directories

A directory is made together with those above it that are missing. The lowest that can be made
is looked for from the path upwards; then those below it are made in turn. What has been made
stays, also if a later step fails.

* `FileSystem.makeDirs`: makes a directory and those above it.
-/

namespace SmlSynth.FileSystem

variable {m : Type → Type} [Monad m] [FileSystem m]

/-- Whether there is a directory: reading one fails in a way of its own. -/
def isDirectory (path : String) : m Bool := do
  match ← read path with
  | .error .isDirectory => return true
  | _ => return false

/-- Makes a directory in one that is there, unless it is there itself. -/
def ensureDir (path : String) : m (Except FileFault Unit) := do
  match ← makeDir path with
  | .error .alreadyThere =>
    if ← isDirectory path then return .ok () else return .error .alreadyThere
  | result => return result

/-- The paths of a lineage, lowest first, that cannot be made before the next one is. That one
is made. -/
def missingBelow : List String → m (Except FileFault (List String))
  | [] => return .ok []
  | path :: above => do
    match ← ensureDir path with
    | .ok () => return .ok []
    | .error .notFound => return (← missingBelow above).map (path :: ·)
    | .error fault => return .error fault

/-- Makes directories in turn, up to the first that fails. -/
def ensureDirs : List String → m (Except FileFault Unit)
  | [] => return .ok ()
  | path :: rest => do
    match ← ensureDir path with
    | .ok () => ensureDirs rest
    | .error fault => return .error fault

/-- **Makes a directory and those above it**, as far as they are missing. -/
def makeDirs (path : String) : m (Except FileFault Unit) := do
  match ← missingBelow (Path.lineage path) with
  | .ok missing => ensureDirs missing.reverse
  | .error fault => return .error fault

end SmlSynth.FileSystem
