import CodeAtlas.CommandLine.Command
import CodeAtlas.Graph.Build
import CodeAtlas.Settings
import CodeAtlas.Store.Connection
import CodeAtlas.Store.File

/-!
# Running commands

A command is run in a working directory of a file tree. It leaves a file tree behind, and an `Outcome`:
what it prints, the code that it ends with, and what went wrong.

* A command line that asks for nothing ends with 2.
* A command that fails ends with 1 and says why.
* A query that the graph cannot answer prints its answer all the same, and ends with 1.
-/

namespace CodeAtlas

/-- **What a command leaves for the one who called it.** -/
structure Outcome where
  code : Nat := 0
  output : String := ""
  /-- Why the command failed. -/
  error : Option String := none
  deriving DecidableEq, Repr

namespace Invocation

/-- A failure. -/
def failed (message : String) : Outcome :=
  { code := 1, error := some message }

/-- The settings that hold for a command, and the data directory that they are from. Settings that are
asked for have to be there; settings that are found and make no sense do not count. -/
def settings (t : FileTree) (cwd : Location) (config : Option String) :
    Except SettingsError (Settings × Option String) :=
  match config with
  | some path =>
    let file := if t.leadsToDirectory cwd path then Path.join path Settings.fileName else path
    (Settings.load t cwd file).map fun s => (s, some ((Path.parent? file).getD path))
  | none =>
    match Settings.search t cwd (FileTree.pathOf cwd) with
    | .ok (some (s, d)) => .ok (s, some d)
    | _ => .ok ({}, none)

/-! ### Setting up -/

/-- The data directory of a project set up in the working directory. -/
def runInit (force : Bool) (t : FileTree) (cwd : Location) : Outcome × FileTree :=
  let file := Path.join Settings.directoryName Settings.fileName
  if t.reaches cwd file && !force then
    (failed ".ckg/config.toml already exists. Use --force to overwrite.", t)
  else
    let made := if t.reaches cwd Settings.directoryName then .ok t
      else t.makeDirectories cwd Settings.directoryName
    match made.bind fun t => t.write cwd file (Digest.utf8 Settings.initialText) with
    | .ok t => ({}, t)
    | .error e => (failed e.message, t)

/-! ### Graphs -/

/-- The tree with the directory of a path, made if it is missing. -/
def withParent (t : FileTree) (cwd : Location) (path : String) : Except FileError FileTree :=
  match Path.parent? path with
  | none => .ok t
  | some d => if d = "" then .ok t else t.makeDirectories cwd d

/-- The graph at a path, which is made if it is missing. -/
def openGraph? (t : FileTree) (cwd : Location) (path : String) : Option (StoredGraph × FileTree) :=
  match withParent t cwd path with
  | .error _ => none
  | .ok t =>
    match t.read cwd path with
    | .ok bytes => (StoredGraph.ofBytes? bytes).map (·, t)
    | .error _ =>
      match t.write cwd path (StoredGraph.toBytes ∅) with
      | .ok t => some (∅, t)
      | .error _ => none

/-- The wording of a graph that cannot be opened. -/
def openMessage (path : String) : String :=
  "Failed to open graph " ++ path

/-- A request put to a graph. -/
def runQuery (path : String) (request : Request) (t : FileTree) (cwd : Location) : Outcome × FileTree :=
  if !t.reaches cwd path then
    (failed ("No graph at " ++ path ++ ". Run 'ckg index' first."), t)
  else
    match openGraph? t cwd path with
    | none => (failed (openMessage path), t)
    | some (g, t) =>
      let a := (request.ask Connection.session { committed := g }).1
      ({ code := if a.success then 0 else 1, output := a.toJson.pretty ++ "\n" }, t)

/-! ### Indexing -/

/-- The path of a project without detours, if it is there. -/
def canonical (t : FileTree) (cwd : Location) (path : String) : String :=
  ((t.find? cwd path).map FileTree.pathOf).getD path

/-- The wording of a file that cannot be written. -/
def writeMessage (path : String) : String :=
  "Failed to write " ++ path

/-- The statements of a build written to a file, if one is asked for. -/
def writeStatements (r : BuildReport) (path : Option String) (t : FileTree) (cwd : Location) :
    Except String FileTree :=
  match path with
  | none => .ok t
  | some p =>
    match t.write cwd p (Digest.utf8 (Text.joined "\n" (r.plan.statements.map Statement.text))) with
    | .ok t => .ok t
    | .error _ => .error (writeMessage p)

/-- A project read and merged into a graph. -/
def runIndex (s : Settings) (source graph : String) (statements : Option String) (t : FileTree)
    (cwd : Location) : Outcome × FileTree :=
  let source := canonical t cwd source
  let parsed := readProject Readers.standard s.reading t cwd source
  match parsed.enumerationError with
  | some e => (failed ("Failed to enumerate " ++ source ++ ": " ++ e), t)
  | none =>
    match openGraph? t cwd graph with
    | none => (failed (openMessage graph), t)
    | some (g, t) =>
      let (r, c) := buildInto { schema := Schema.standard } parsed Connection.session { committed := g }
      -- The graph is kept even if the statements cannot be written.
      let t := match t.write cwd graph c.committed.toBytes with
        | .ok t => t
        | .error _ => t
      match writeStatements r statements t cwd with
      | .error e => (failed e, t)
      | .ok t =>
        if r.success then ({}, t)
        else (failed ("Build failed: " ++ Text.joined "; " r.errors), t)

/-! ### The schema -/

/-- The description of the schema, printed or written to a file. -/
def runSchema (output : Option String) (t : FileTree) (cwd : Location) : Outcome × FileTree :=
  let text := Schema.standard.describe.pretty
  match output with
  | none => ({ output := text ++ "\n" }, t)
  | some path =>
    match (withParent t cwd path).bind fun t => t.write cwd path (Digest.utf8 text) with
    | .ok t => ({}, t)
    | .error _ => (failed (writeMessage path), t)

/-- The project that a command reads and the graph that it uses, by their paths. -/
def touched (i : Invocation) (t : FileTree) (cwd : Location) : List String :=
  match settings t cwd i.config with
  | .error _ => []
  | .ok (s, directory) =>
    match i.command with
    | .index path output _ =>
      [path.getD (s.rootPath directory), output.getD (s.graphPath directory)]
    | .query graph _ => [graph.getD (s.graphPath directory)]
    | _ => []

/-- **A command run** in a working directory. -/
def run (i : Invocation) (t : FileTree) (cwd : Location) : Outcome × FileTree :=
  match settings t cwd i.config with
  | .error e => (failed e.message, t)
  | .ok (s, directory) =>
    match i.command with
    | .init force => runInit force t cwd
    | .index path output statements =>
      runIndex s (path.getD (s.rootPath directory)) (output.getD (s.graphPath directory)) statements t cwd
    | .query graph request => runQuery (graph.getD (s.graphPath directory)) request t cwd
    | .schema output => runSchema output t cwd

end Invocation

/-- **A command line run** in a working directory. -/
def runCommandLine (args : List String) (t : FileTree) (cwd : Location) : Outcome × FileTree :=
  match Invocation.read? args with
  | none => ({ code := 2 }, t)
  | some i => i.run t cwd

end CodeAtlas
