import CodeAtlas.Path

/-!
# The files of a project

A `FileSet` lists the source files that are read under one root. A file is added by its path; the path
may be given from the root or from where the root itself is given from, and the language comes from the
extension.
-/

namespace CodeAtlas

/-- **A file to be read.** -/
structure SourceFile where
  /-- The path under which the file is found. -/
  location : String
  /-- The path relative to the root. -/
  relative : String
  language : Language
  deriving DecidableEq, Repr

/-- **The source files under a root.** -/
structure FileSet where
  root : String
  files : List SourceFile := []
  deriving DecidableEq, Repr

namespace FileSet

/-- The path under which a file of a root is found. -/
def locate (root path : String) : String :=
  if Path.isAbsolute path || Path.startsWith root path then path else Path.join root path

/-- The file that a path names under a root, if its extension is that of a language. -/
def file? (root path : String) : Option SourceFile :=
  (Language.ofPath? path).map fun language =>
    let location := locate root path
    { location, relative := Path.normalize ((Path.under? root location).getD path), language }

/-- Whether a path is that of a source file. -/
def accepts (path : String) : Bool :=
  (Language.ofPath? path).isSome

/-- **The set with one more file**, or the same set if the path is not that of a source file. -/
def add (s : FileSet) (path : String) : FileSet :=
  { s with files := s.files ++ (file? s.root path).toList }

/-- The files that some paths name under a root. -/
def ofPaths (root : String) (paths : List String) : FileSet :=
  paths.foldl add { root }

/-- The number of files. -/
def size (s : FileSet) : Nat :=
  s.files.length

end FileSet

end CodeAtlas
