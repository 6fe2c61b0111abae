import CodeAtlas.Path
import CodeAtlas.Text.Utf8

/-!
# Trees of files

A `FileTree` is what a program sees of a file system: files with their bytes, and directories, each at a
*location* — the names from the top down to it. A directory exists if it was made or if something is in it.

A path is walked from a working directory (`locate`). Every step but the last has to come to a directory;
so a path with `..` in it leads nowhere if what stands before the `..` is not there.
-/

namespace CodeAtlas

/-- Why a file cannot be used. -/
inductive FileError where
  | notFound
  | notDirectory
  | isDirectory
  deriving DecidableEq, Repr

/-- The wording of a failure. -/
def FileError.message : FileError → String
  | .notFound => "No such file or directory (os error 2)"
  | .notDirectory => "Not a directory (os error 20)"
  | .isDirectory => "Is a directory (os error 21)"

/-- The names from the top of a file system down to a file or directory. -/
abbrev Location := List String

/-- **What a program sees of a file system.** -/
structure FileTree where
  files : List (Location × List UInt8) := []
  /-- Directories that were made. -/
  made : List Location := []

namespace FileTree

/-- The bytes of the file at a place. -/
def bytes? (t : FileTree) (p : Location) : Option (List UInt8) :=
  t.files.lookup p

/-- Whether there is a file at a place. -/
def isFile (t : FileTree) (p : Location) : Bool :=
  (t.bytes? p).isSome

/-- Whether there is a directory at a place. -/
def isDirectory (t : FileTree) (p : Location) : Bool :=
  p.isEmpty || t.made.any (p.isPrefixOf ·)
    || t.files.any fun f => p.isPrefixOf f.1 && p.length < f.1.length

/-- Whether there is anything at a place. -/
def contains (t : FileTree) (p : Location) : Bool :=
  t.isFile p || t.isDirectory p

/-- The tree with a file at a place, in the place of one that is there. -/
def put (t : FileTree) (p : Location) (bytes : List UInt8) : FileTree :=
  { t with files := (p, bytes) :: t.files.filter fun f => f.1 != p }

/-- The tree with a directory. -/
def makeDirectory (t : FileTree) (p : Location) : FileTree :=
  { t with made := p :: t.made }

/-! ### Walking paths -/

/-- The place that components lead to from a place. -/
def walk (t : FileTree) : Location → List Path.Component → Except FileError Location
  | p, [] => .ok p
  | p, c :: rest =>
    if t.isFile p then .error .notDirectory
    else if !t.isDirectory p then .error .notFound
    else
      match c with
      | .root => t.walk [] rest
      | .current => t.walk p rest
      | .up => t.walk p.dropLast rest
      | .name s => t.walk (p ++ [String.ofList s]) rest

/-- The place that a path leads to from a working directory. There may be nothing yet. -/
def locate (t : FileTree) (cwd : Location) (path : String) : Except FileError Location :=
  if path = "" then .error .notFound else t.walk cwd (Path.components path)

/-- The place of a path, if there is something. -/
def find? (t : FileTree) (cwd : Location) (path : String) : Option Location :=
  match t.locate cwd path with
  | .ok p => if t.contains p then some p else none
  | .error _ => none

/-- Whether a path leads to something. -/
def reaches (t : FileTree) (cwd : Location) (path : String) : Bool :=
  (t.find? cwd path).isSome

/-- Whether a path leads to a directory. -/
def leadsToDirectory (t : FileTree) (cwd : Location) (path : String) : Bool :=
  (t.find? cwd path).any t.isDirectory

/-- The absolute path of a place. -/
def pathOf (p : Location) : String :=
  "/" ++ Text.joined "/" p

/-! ### Reading and writing -/

/-- The bytes of the file that a path leads to. -/
def read (t : FileTree) (cwd : Location) (path : String) : Except FileError (List UInt8) :=
  match t.locate cwd path with
  | .error e => .error e
  | .ok p =>
    match t.bytes? p with
    | some bytes => .ok bytes
    | none => .error (if t.isDirectory p then .isDirectory else .notFound)

/-- The tree with the file that a path leads to written. Its directory has to be there. -/
def write (t : FileTree) (cwd : Location) (path : String) (bytes : List UInt8) : Except FileError FileTree :=
  match t.locate cwd path with
  | .error e => .error e
  | .ok p =>
    if t.isDirectory p then .error .isDirectory
    else if t.isDirectory p.dropLast then .ok (t.put p bytes)
    else .error (if t.isFile p.dropLast then .notDirectory else .notFound)

/-- The tree with the directories that components name, made where they are missing. -/
def makeAll (t : FileTree) : Location → List Path.Component → Except FileError FileTree
  | p, [] => if t.isFile p then .error .notDirectory else .ok (t.makeDirectory p)
  | p, c :: rest =>
    if t.isFile p then .error .notDirectory
    else
      let t := if t.isDirectory p then t else t.makeDirectory p
      match c with
      | .root => t.makeAll [] rest
      | .current => t.makeAll p rest
      | .up => t.makeAll p.dropLast rest
      | .name s => t.makeAll (p ++ [String.ofList s]) rest

/-- The tree with the directory that a path names, and all directories on the way. -/
def makeDirectories (t : FileTree) (cwd : Location) (path : String) : Except FileError FileTree :=
  t.makeAll cwd (Path.components path)

/-- The files that a tree has beyond another one, or with other bytes. -/
def changes (before after : FileTree) : List (Location × List UInt8) :=
  after.files.filter fun f => before.bytes? f.1 != some f.2

end FileTree

end CodeAtlas
