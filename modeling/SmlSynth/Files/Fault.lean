/-!
# Faults of file operations

* `FileFault`: why a file operation fails, with the system's wording.
* `FileSystem`: the operations that a run performs on files.
-/

namespace SmlSynth

/-- **Why a file operation fails.** -/
inductive FileFault where
  /-- There is nothing at the path. -/
  | notFound
  /-- There is a directory where a file is meant. -/
  | isDirectory
  /-- There is a file where a directory is meant. -/
  | notDirectory
  /-- There is something where a directory is to be made. -/
  | alreadyThere
  /-- The path or a name in it is longer than the system allows. -/
  | nameTooLong
  /-- There is a null character in the path. -/
  | nullInPath
  /-- The bytes of the file are no text. -/
  | notText
  /-- Another reason, in the system's words. -/
  | other (reason : String)
deriving Repr, DecidableEq

/-- The wording of a fault. -/
def FileFault.message : FileFault → String
  | notFound => "No such file or directory (os error 2)"
  | isDirectory => "Is a directory (os error 21)"
  | notDirectory => "Not a directory (os error 20)"
  | alreadyThere => "File exists (os error 17)"
  | nameTooLong => "File name too long (os error 36)"
  | nullInPath => "file name contained an unexpected NUL byte"
  | notText => "stream did not contain valid UTF-8"
  | other reason => reason

/-- **The file operations of a run**, in a monad `m`. -/
class FileSystem (m : Type → Type) where
  /-- The text of a file. -/
  read : String → m (Except FileFault String)
  /-- Makes a directory in one that is there. -/
  makeDir : String → m (Except FileFault Unit)
  /-- Writes a text to a file, in place of what it held. -/
  write : String → String → m (Except FileFault Unit)

end SmlSynth
