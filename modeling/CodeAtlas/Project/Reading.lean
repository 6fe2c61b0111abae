import CodeAtlas.Extraction
import CodeAtlas.Files.Ignore
import CodeAtlas.Project.FileSet
import CodeAtlas.Project.ParseResult

/-!
# Reading a project

The source files of a project are found below its root and read one by one. A file that cannot be read is
reported and does not stop the rest; only a root that is no directory does.

* `discover` — the source files below a root;
* `readFile` — the outcome of one file;
* `readFiles`, `readProject` — the outcome of a set of files, and of a project.
-/

namespace CodeAtlas

/-- **How projects are read.** The time limit and the number of threads have no effect on what is
read. -/
structure ReadingSettings where
  timeLimit : Nat := 5000
  /-- Files with more bytes are not read. -/
  maxBytes : Nat := 2097152
  threads : Nat := 0
  /-- The names of directories that are not entered. -/
  excluded : List String :=
    ["build", "target", "node_modules", ".gradle", ".dart_tool", "__pycache__", ".venv", "venv"]
  /-- Whether lists of ignored files count. -/
  followIgnore : Bool := true
  deriving DecidableEq, Repr

/-- The JSON form of the settings. -/
def ReadingSettings.toJson (s : ReadingSettings) : Json :=
  .obj [("parse_timeout_ms", .int s.timeLimit), ("max_file_bytes", .int s.maxBytes),
    ("threads", .int s.threads), ("exclude_dirs", Json.ofTexts s.excluded),
    ("follow_gitignore", .bool s.followIgnore)]

/-! ### Finding files -/

/-- Whether a walk from a root comes to a file: it is seen, and so are the directories on the way, none of
which is excluded. -/
def isVisited (settings : ReadingSettings) (lists : IgnoreLists) (root : Location) (p : Location) : Bool :=
  let entered (n : Nat) : Bool :=
    let d := p.take n
    lists.admits d true && !d.getLast?.any settings.excluded.contains
  lists.admits p false && (List.range p.length).all fun n => n ≤ root.length || entered n

/-- The locations of the files that a walk from a root comes to. -/
def visited (settings : ReadingSettings) (t : FileTree) (root : Location) : List Location :=
  let lists := if settings.followIgnore then IgnoreLists.ofTree t else {}
  let below := (t.files.map (·.1)).filter fun p => root.isPrefixOf p && root.length < p.length
  below.filter (isVisited settings lists root)

/-- The wording of a root that is no directory. -/
def notDirectoryMessage (root : String) : String :=
  root ++ " is not a directory"

/-- **The source files below a root**, by their relative paths, or why there are none. -/
def discover (readers : Readers) (settings : ReadingSettings) (t : FileTree) (cwd : Location)
    (root : String) : Except String FileSet :=
  match (t.find? cwd root).filter t.isDirectory with
  | none => .error (notDirectoryMessage root)
  | some top =>
    let paths := (visited settings t top).map fun p =>
      Path.join root (Text.joined "/" (p.drop top.length))
    let set := FileSet.ofPaths root (paths.filter fun p => (readers.forPath? p).isSome)
    .ok { set with files := set.files.mergeSort fun a b => !(b.relative < a.relative) }

/-! ### Reading files -/

/-- Why a file was not read. -/
inductive ReadFailure where
  | noReader (language : Language)
  | unreadable (cause : FileError)
  | tooLarge (size limit : Nat)
  deriving DecidableEq, Repr

/-- The wording of a failure. -/
def ReadFailure.message : ReadFailure → String
  | .noReader l => "No extractor registered for " ++ l.name
  | .unreadable e => "Failed to read file: " ++ e.message
  | .tooLarge size limit =>
    "File is " ++ String.ofList (Json.natChars size) ++ " bytes, above the "
      ++ String.ofList (Json.natChars limit) ++ " byte limit"

/-- The text of a file, or why it is not read. -/
def sourceText (readers : Readers) (settings : ReadingSettings) (t : FileTree) (cwd : Location)
    (f : SourceFile) : Except ReadFailure (List Char) :=
  if !readers.contains f.language then .error (.noReader f.language)
  else
    match t.read cwd f.location with
    | .error e => .error (.unreadable e)
    | .ok bytes =>
      if bytes.length > settings.maxBytes then .error (.tooLarge bytes.length settings.maxBytes)
      else .ok (Utf8.lenient bytes)

/-- **The outcome of one file.** -/
def readFile (readers : Readers) (settings : ReadingSettings) (t : FileTree) (cwd : Location)
    (f : SourceFile) : ParsedFile :=
  match sourceText readers settings t cwd f with
  | .error e =>
    { path := f.relative
      language := f.language
      record := none
      success := false
      error := some e.message
      fidelity := if readers.contains f.language then f.language.fidelity else .heuristic }
  | .ok text =>
    let record := f.language.record f.relative text
    { path := f.relative
      language := f.language
      record := some record
      success := true
      declarations := record.declarationCount
      lines := (Text.lines text).length
      fidelity := f.language.fidelity }

/-- **The outcome of a set of files.** -/
def readFiles (readers : Readers) (settings : ReadingSettings) (t : FileTree) (cwd : Location)
    (set : FileSet) : ParseResult :=
  ParseResult.ofFiles (set.files.map (readFile readers settings t cwd))

/-- **The outcome of a project.** -/
def readProject (readers : Readers) (settings : ReadingSettings) (t : FileTree) (cwd : Location)
    (root : String) : ParseResult :=
  match discover readers settings t cwd root with
  | .ok set => readFiles readers settings t cwd set
  | .error e => { enumerationError := some e }

end CodeAtlas
