import SmlSynth.Files.Fault
import SmlSynth.Files.Path

/-!
# File trees

Files and directories as a value, seen from a working directory. What is outside of that is
not known but for what a tree says of it.

* `FileTree.get?`, `FileTree.set`: what is at a place.
* `FileTree.read`, `FileTree.makeDir`, `FileTree.write`: the file operations.
* The instance of `FileSystem` for computations that carry a file tree.
-/

namespace SmlSynth

/-- The content of a file: a text, or bytes that are no text. -/
inductive Content where
  | text (s : String)
  | binary (bytes : List UInt8)
deriving Repr, DecidableEq

/-- What can be at a place. -/
inductive Node where
  | file (content : Content)
  | directory
deriving Repr, DecidableEq

/-- A place: the names on the shortest way to it from the working directory, which may first
go up by `..`. The way from the root of all files starts with a slash. -/
abbrev Place := List String

namespace Place

def root : Place := ["/"]

/-- Whether a place is the working directory, above it, or the root. All these are there. -/
def isGiven (p : Place) : Bool := p == root || p.all (· == "..")

/-- Whether a place is below the working directory. -/
def isInside (p : Place) : Bool := p.head? != some ".." && p.head? != some "/"

/-- The place above. The root is above itself. -/
def above (p : Place) : Place :=
  if p = root then root
  else if p.all (· == "..") then ".." :: p
  else p.dropLast

end Place

/-- **Files and directories.** -/
structure FileTree where
  entries : List (Place × Node)

namespace FileTree

/-- What is at a place. -/
def get? (t : FileTree) (p : Place) : Option Node :=
  if p.isGiven then some .directory else t.entries.lookup p

/-- The tree with something else at a place. -/
def set (t : FileTree) (p : Place) (n : Node) : FileTree :=
  ⟨t.entries.filter (fun e => e.1 ≠ p) ++ [(p, n)]⟩

/-! ## Ways -/

def maxName : Nat := 255

def maxPath : Nat := 4095

/-- One step down a path, which has to start from a directory. -/
def step (t : FileTree) (p : Place) (part : String) : Except FileFault Place :=
  match t.get? p with
  | none => .error .notFound
  | some (.file _) => .error .notDirectory
  | some .directory =>
    if part = "." then .ok p
    else if part = ".." then .ok p.above
    else if maxName < part.utf8ByteSize then .error .nameTooLong
    else .ok (p ++ [part])

/-- **The place that a path leads to.** -/
def resolve (t : FileTree) (path : String) : Except FileFault Place :=
  if path.toList.contains '\x00' then .error .nullInPath
  else if path = "" then .error .notFound
  else if maxPath < path.utf8ByteSize then .error .nameTooLong
  else (Path.parts path).foldlM t.step (if Path.isAbsolute path then Place.root else [])

/-! ## Operations -/

/-- **The text of a file.** -/
def read (t : FileTree) (path : String) : Except FileFault String := do
  match t.get? (← t.resolve path) with
  | none => .error .notFound
  | some .directory => .error .isDirectory
  | some (.file content) =>
    if Path.meansDirectory path then .error .notDirectory
    else
      match content with
      | .text s => .ok s
      | .binary _ => .error .notText

/-- **The tree after a text is written to a file.** -/
def write (t : FileTree) (path text : String) : Except FileFault FileTree := do
  let p ← t.resolve path
  match t.get? p with
  | some .directory => .error .isDirectory
  | _ =>
    if Path.meansDirectory path then .error .isDirectory else .ok (t.set p (.file (.text text)))

/-- **The tree after a directory is made** in one that is there. -/
def makeDir (t : FileTree) (path : String) : Except FileFault FileTree := do
  let p ← t.resolve path
  match t.get? p with
  | some _ => .error .alreadyThere
  | none => .ok (t.set p .directory)

/-- An operation that changes a tree; a fault leaves it as it was. -/
def update (change : FileTree → Except FileFault FileTree) :
    StateM FileTree (Except FileFault Unit) :=
  fun t =>
    match change t with
    | .ok t' => (.ok (), t')
    | .error e => (.error e, t)

instance : FileSystem (StateM FileTree) where
  read path := fun t => (t.read path, t)
  makeDir path := update (·.makeDir path)
  write path text := update (·.write path text)

end FileTree

end SmlSynth
