import CodeAtlas.Project.Reading
import CodeAtlas.Toml.Reader

/-!
# The settings of a project

A project keeps its data in a directory `.ckg`: a settings document, and the graph. The settings of a
directory are those of the nearest directory above it that has some. Paths in the settings are relative to
the data directory.

* `Settings.ofToml?` — the settings that a document gives; what it does not give has a default, and what
  it gives beyond that does not count;
* `Settings.load` — the settings of a file;
* `Settings.search` — the nearest settings.
-/

namespace CodeAtlas

/-- **The settings of a project.** -/
structure Settings where
  /-- The root of the project. -/
  root : String := "."
  /-- Where the graph is kept. -/
  graph : String := "graph.db"
  reading : ReadingSettings := {}
  /-- Whether builds list the texts of their statements. -/
  listStatements : Bool := true
  deriving DecidableEq, Repr

/-- Why settings cannot be used. -/
inductive SettingsError where
  | unreadable (path : String)
  | invalid (path : String)
  deriving DecidableEq, Repr

/-- The wording of a failure. -/
def SettingsError.message : SettingsError → String
  | .unreadable path => "Failed to read config file: " ++ path
  | .invalid path => "Failed to parse config file: " ++ path

namespace Settings

/-- The name of the data directory. -/
def directoryName : String := ".ckg"

/-- The name of the settings file in the data directory. -/
def fileName : String := "config.toml"

/-- The settings file that a new project starts with. -/
def initialText : String :=
  "# ckg configuration\n"
    ++ "# All paths are relative to this .ckg/ directory unless absolute\n"
    ++ "\n"
    ++ "[project]\n"
    ++ "root = \"..\"  # Parent directory (the actual project root)\n"
    ++ "\n"
    ++ "[graph]\n"
    ++ "path = \"graph.db\"  # Stored in .ckg/graph.db\n"
    ++ "\n"
    ++ "[extraction]\n"
    ++ "parse_timeout_ms = 5000\n"
    ++ "max_file_bytes = 2097152\n"
    ++ "threads = 0  # 0 uses every core\n"
    ++ "exclude_dirs = [\"build\", \"target\", \"node_modules\", \".gradle\", \".dart_tool\", "
    ++ "\"__pycache__\", \".venv\", \"venv\"]\n"
    ++ "follow_gitignore = true\n"
    ++ "\n"
    ++ "[build]\n"
    ++ "emit_statements = true\n"

/-! ### Documents -/

/-- The value of a member of a section, the default if it is missing, and nothing if it is of another
type. -/
def valueOr? {α : Type} (members : List (String × Toml)) (name : String) (default : α)
    (read : Toml → Option α) : Option α :=
  match members.lookup name with
  | none => some default
  | some v => read v

/-- The members of a section, which may be missing. -/
def sectionOr? (document : Toml) (name : String) (names : List String) : Option (List (String × Toml)) :=
  match document.get? name with
  | none => some []
  | some v => v.members? names

/-- The names in the section on how a project is read. -/
def readingNames : List String :=
  ["parse_timeout_ms", "max_file_bytes", "threads", "exclude_dirs", "follow_gitignore"]

/-- How a project is read, as a section says. -/
def readingOf? (t : List (String × Toml)) : Option ReadingSettings := do
  let d : ReadingSettings := {}
  return { timeLimit := ← valueOr? t "parse_timeout_ms" d.timeLimit Toml.nat?
           maxBytes := ← valueOr? t "max_file_bytes" d.maxBytes Toml.nat?
           threads := ← valueOr? t "threads" d.threads Toml.nat?
           excluded := ← valueOr? t "exclude_dirs" d.excluded Toml.texts?
           followIgnore := ← valueOr? t "follow_gitignore" d.followIgnore Toml.flag? }

/-- **The settings that a document gives**, unless a value is of the wrong type. -/
def ofToml? (document : Toml) : Option Settings := do
  let d : Settings := {}
  return { root := ← valueOr? (← sectionOr? document "project" ["root"]) "root" d.root Toml.text?
           graph := ← valueOr? (← sectionOr? document "graph" ["path"]) "path" d.graph Toml.text?
           reading := ← readingOf? (← sectionOr? document "extraction" readingNames)
           listStatements := ← valueOr? (← sectionOr? document "build" ["emit_statements"])
             "emit_statements" d.listStatements Toml.flag? }

/-- The JSON form of settings. -/
def toJson (s : Settings) : Json :=
  .obj [("project", .obj [("root", .str s.root)]), ("graph", .obj [("path", .str s.graph)]),
    ("extraction", s.reading.toJson), ("build", .obj [("emit_statements", .bool s.listStatements)])]

/-! ### Files -/

/-- **The settings of a file.** -/
def load (t : FileTree) (cwd : Location) (path : String) : Except SettingsError Settings :=
  match t.read cwd path with
  | .error _ => .error (.unreadable path)
  | .ok bytes =>
    match Utf8.strict? bytes with
    | none => .error (.unreadable path)
    | some text =>
      match (Toml.read? text).bind ofToml? with
      | none => .error (.invalid path)
      | some s => .ok s

/-- A path and the directories above it, the nearest first; `fuel` bounds their number. -/
def upward : (fuel : Nat) → String → List String
  | 0, p => [p]
  | fuel + 1, p =>
    p :: match Path.parent? p with
      | some q => upward fuel q
      | none => []

/-- The data directories that a search from a path comes to, the nearest first. -/
def candidates (start : String) : List String :=
  (upward (Path.components start).length start).map fun d => Path.join d directoryName

/-- **The nearest settings above a path**, with the data directory that they are from. -/
def search (t : FileTree) (cwd : Location) (start : String) :
    Except SettingsError (Option (Settings × String)) :=
  match (candidates start).find? fun d => t.reaches cwd (Path.join d fileName) with
  | none => .ok none
  | some d => (load t cwd (Path.join d fileName)).map fun s => some (s, d)

/-! ### Paths -/

/-- Where the graph is kept, seen from the data directory, if there is one. -/
def graphPath (s : Settings) (directory : Option String) : String :=
  Path.join (directory.getD directoryName) s.graph

/-- The root of the project, seen from the data directory, if there is one. -/
def rootPath (s : Settings) (directory : Option String) : String :=
  match directory with
  | some d => Path.join d s.root
  | none => s.root

end Settings

end CodeAtlas
