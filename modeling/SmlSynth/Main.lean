import SmlSynth.Command.Run
import SmlSynth.Random.ChaCha
import Std.Time.DateTime.Timestamp

/-!
# The program

The run of a command line on the system's files, with keystreams as its randomness. The
log filter is taken from the environment, and the clock gives the seed where none is given.
-/

namespace SmlSynth

/-- Whether an error's code is that of names that are too long. Some calls give codes their sign. -/
def isNameTooLong (code : UInt32) : Bool := code == 36 || code == -36

/-- The fault that an error of the system stands for. -/
def FileFault.ofError (e : IO.Error) : FileFault :=
  match e with
  | .noFileOrDirectory .. => .notFound
  | .alreadyExists .. => .alreadyThere
  | .inappropriateType _ code _ => if code = 21 then .isDirectory else .notDirectory
  | .invalidArgument _ code reason => if isNameTooLong code then .nameTooLong else .other reason
  | e => .other e.toString

/-- A file operation of the system. -/
def attempt {α : Type} (action : IO α) : IO (Except FileFault α) := do
  try
    return .ok (← action)
  catch e => return .error (.ofError e)

instance : FileSystem IO where
  read path := do
    match ← attempt (IO.FS.readBinFile path) with
    | .error fault => return .error fault
    | .ok bytes =>
      match String.fromUTF8? bytes with
      | some s => return .ok s
      | none => return .error .notText
  makeDir path := attempt (IO.FS.createDir path)
  write path text := attempt (IO.FS.writeFile path text)

end SmlSynth

open SmlSynth

/-- Runs a command line and shows what the run showed. -/
def main (args : List String) : IO UInt32 := do
  let filter := ((← IO.getEnv "SMLGEN_LOG").bind LogFilter.parse?).getD []
  let now ← Std.Time.Timestamp.now
  let setting : Run.Setting :=
    ⟨filter, Int64.ofInt now.toMillisecondsSinceUnixEpoch.val,
      UInt64.ofNat now.toSecondsSinceUnixEpoch.val.toNat⟩
  let finish : Run.Finish ← Run.start Entropy.standard setting args
  for line in finish.stdout do IO.print line
  for line in finish.stderr do IO.eprint line
  return UInt32.ofNat finish.code
