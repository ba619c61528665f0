import SmlSynth.Command.Arguments
import SmlSynth.Command.LogFilter
import SmlSynth.Files.Directories
import SmlSynth.Manifest
import SmlSynth.Profile.Lookup

/-!
# A run of the program

A run reads its arguments, looks up the profile, makes the output directory, and only then
samples the programs and writes them and the manifest. What it shows is part of its
result; the file operations are those of any monad that has them.

* `Run.Finish`: how a run ends.
* `Run.start`: the run of a command line.
-/

namespace SmlSynth.Run

variable {m : Type → Type} [Monad m] [FileSystem m] {σ : Type} [Source σ]

/-- **How a run ends**: its exit code, and what it showed on either stream. -/
structure Finish where
  code : Nat
  stdout : List String
  stderr : List String
deriving DecidableEq

/-- What a run takes from its surroundings: the log filter, the seed to take if none is given,
and the time in seconds since 1970. -/
structure Setting where
  filter : LogFilter
  freshSeed : Int64
  now : UInt64

def versionText : String := "smlgen " ++ Manifest.currentVersion ++ "\n"

def helpText : String :=
  "Randomized Standard ML program generator\n\n" ++
  "Usage: smlgen [OPTIONS]\n\nOptions:\n" ++
  "  -n, --count <COUNT>            Number of programs to generate [default: 10]\n" ++
  "  -s, --seed <SEED>              Base seed (random from the clock when omitted)\n" ++
  "  -o, --output <DIR>             Output directory, created if missing [default: .]\n" ++
  "  -c, --complexity <COMPLEXITY>  minimal, simple, medium, complex, extreme or mixed\n" ++
  "                                 [default: mixed]\n" ++
  "  -p, --profile <NAME|PATH>      Embedded profile name or path to a .toml profile\n" ++
  "                                 [default: default]\n" ++
  "      --no-manifest              Do not write smlgen.json\n" ++
  "  -h, --help                     Print help\n" ++
  "  -V, --version                  Print version\n"

def usageMessage : Halt → String
  | .unknownArgument => "unexpected argument"
  | .invalidValue => "invalid or missing value"
  | .malformedValue => "malformed number"
  | .givenTwice => "argument given twice"
  | .needlessValue => "value for a switch"
  | .help => ""
  | .version => ""

/-- The end of a run that stops at its arguments. -/
def halted (log : List String) : Halt → Finish
  | .help => ⟨0, [helpText], log⟩
  | .version => ⟨0, [versionText], log⟩
  | fault => ⟨2, [], log ++ ["error: " ++ usageMessage fault ++ "\n"]⟩

/-- The report of a run that ends without text. -/
def faultText : Fault → String
  | .illFormed e => e.report.render
  | .outOfPatience => "error: too many rejected candidates\n"
  | .outOfFuel => "error: recursion too deep\n"
  | .notAProbability => "error: not a probability\n"

/-! ## Files -/

/-- The name of a fixture's file: its number, its length and the seed of the batch. -/
def fileName (seed : Int64) (f : Fixture) : String :=
  "Program_" ++ toString (f.index + 1) ++ "_" ++ toString f.text.length ++ "_" ++
    toString seed.toInt ++ ".sml"

/-- The line that reports a file. -/
def generatedLine (file : String) (f : Fixture) : String :=
  "Generated: " ++ file ++ " (" ++ toString f.text.length ++ " chars)\n"

/-- **Writes fixtures to their files**, up to the first that fails: the lines that report the
files, and the entries or the message. -/
def writeFixtures (output : String) (seed : Int64) :
    List Fixture → m (List String × Except String (List FileEntry))
  | [] => return ([], .ok [])
  | f :: rest => do
    let file := fileName seed f
    let path := Path.join output file
    match ← FileSystem.write path (String.ofList f.text) with
    | .error fault =>
      return ([], .error ("error: failed to write '" ++ path ++ "': " ++ fault.message ++ "\n"))
    | .ok () =>
      let (lines, entries) ← writeFixtures output seed rest
      return (generatedLine file f :: lines, entries.map (FileEntry.ofFixture file f :: ·))

/-- Writes a manifest to its directory. -/
def writeManifest (output : String) (manifest : Manifest) : m (Except FileFault Unit) :=
  FileSystem.write (Path.join output Manifest.fileName) manifest.text

/-- Reads a manifest from its directory; `none` stands for a text that writes none. -/
def readManifest (output : String) : m (Except FileFault (Option Manifest)) := do
  return (← FileSystem.read (Path.join output Manifest.fileName)).map Manifest.ofText?

/-! ## The run -/

def batchTarget : String := "smlgen::program::driver"

def startTarget : String := "smlgen"

/-- The end of a run whose output directory is there: the batch is written. -/
def writeBatch (setting : Setting) (a : Arguments) (seed : Int64) (shown log : List String)
    (batch : Traced (List Fixture)) : m Finish := do
  let log := log ++ setting.filter.lines batchTarget batch.events
  match batch.outcome with
  | .error fault => return ⟨1, shown, log ++ [faultText fault]⟩
  | .ok fixtures =>
    let (lines, entries) ← writeFixtures a.output seed fixtures
    let shown := shown ++ lines
    match entries with
    | .error message => return ⟨1, shown, log ++ [message]⟩
    | .ok entries =>
      let total :=
        "Generated " ++ toString fixtures.length ++ " file(s) in " ++ a.output ++ "\n"
      if a.noManifest then return ⟨0, shown ++ [total], log⟩
      else
        let manifest := Manifest.ofEntries seed a.selector.name a.profile setting.now.toNat entries
        match ← writeManifest a.output manifest with
        | .error fault =>
          return ⟨1, shown, log ++ ["error: failed to write manifest: " ++ fault.message ++ "\n"]⟩
        | .ok () => return ⟨0, shown ++ [total], log⟩

/-- The end of a run with well-formed arguments. Nothing is written before the count and the
profile are found to be sound. -/
def withArguments (entropy : Entropy σ) (setting : Setting) (log : List String) (a : Arguments) :
    m Finish := do
  match a.fault? with
  | some message => return ⟨1, [], log ++ ["error: " ++ message ++ "\n"]⟩
  | none =>
    let seed := a.seed.getD setting.freshSeed
    let shown := match a.seed with
      | some _ => []
      | none => ["Using random seed: " ++ toString seed.toInt ++ "\n"]
    match ← Profile.lookup a.profile with
    | .error e => return ⟨1, shown, log ++ [e.report.render]⟩
    | .ok profile =>
      match ← FileSystem.makeDirs a.output with
      | .error fault =>
        let message :=
          "error: failed to create output directory '" ++ a.output ++ "': " ++ fault.message
        return ⟨1, shown, log ++ [message ++ "\n"]⟩
      | .ok () =>
        writeBatch setting a seed shown log
          (generateBatch entropy a.count seed a.selector profile)

/-- **The run of a command line.** -/
def start (entropy : Entropy σ) (setting : Setting) (args : List String) : m Finish :=
  let log :=
    if setting.filter.shows startTarget .debug [] then
      [LogFilter.line startTarget .debug "tracing initialized" []]
    else []
  match Arguments.parse args with
  | .error halt => return halted log halt
  | .ok a => withArguments entropy setting log a

end SmlSynth.Run
