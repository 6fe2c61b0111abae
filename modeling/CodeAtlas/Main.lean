import CodeAtlas.CommandLine.Run

/-!
# The program

The program reads what a command needs to see of the file system, runs the command on that, and carries
out the changes. It reads in two rounds: first the settings and the lists of ignored files above the
working directory, and then the project and the graph that the settings name.
-/

namespace CodeAtlas.Program

/-- The location of an absolute path. -/
def locationOf (path : String) : Location :=
  (Path.components path).filterMap fun
    | .name s => some (String.ofList s)
    | _ => none

/-- A location and the directories above it. -/
def around (p : Location) : List Location :=
  (List.range (p.length + 1)).map p.take

/-- The small files that matter in every directory above the working directory. -/
def watched : List Location :=
  [Settings.directoryName, Settings.fileName] :: IgnoreLists.listNames

/-- The tree with the file at a location, if there is one. -/
def loadFile (t : FileTree) (p : Location) : IO FileTree := do
  try
    let bytes ← IO.FS.readBinFile (FileTree.pathOf p)
    return t.put p bytes.toList
  catch _ => return t

/-- The tree with the small files above a location. -/
def loadAround (t : FileTree) (p : Location) : IO FileTree :=
  ((around p).flatMap fun d => watched.map (d ++ ·)).foldlM loadFile t

/-- The tree with all that is at a location. -/
partial def loadAll (t : FileTree) (p : Location) : IO FileTree := do
  let entries ← try
      let entries ← (← IO.FS.realPath (FileTree.pathOf p)).readDir
      pure (some (entries.map (·.fileName)))
    catch _ => pure none
  match entries with
  | none => loadFile t p
  | some names => names.foldlM (fun t name => loadAll t (p ++ [name])) (t.makeDirectory p)

/-- The tree with all that is at a path, and the small files above it. -/
def loadPath (cwd : Location) (t : FileTree) (path : String) : IO FileTree := do
  let written := if Path.isAbsolute path then path else FileTree.pathOf cwd ++ "/" ++ path
  -- What is not there yet has no other path than the one that is written.
  let real ← try
      let q ← IO.FS.realPath written
      pure (locationOf q.toString)
    catch _ => pure (locationOf written)
  loadAll (← loadAround t real) real

/-- What a command needs to see. -/
def load (i : Invocation) (cwd : Location) : IO FileTree := do
  let t ← loadAround ({ made := [cwd] } : FileTree) cwd
  let t ← i.config.toList.foldlM (loadPath cwd) t
  (i.touched t cwd).foldlM (loadPath cwd) t

/-- The changes of a command carried out. -/
def store (before after : FileTree) : IO Unit :=
  for f in FileTree.changes before after do
    IO.FS.createDirAll (FileTree.pathOf f.1.dropLast)
    IO.FS.writeBinFile (FileTree.pathOf f.1) ⟨f.2.toArray⟩

end CodeAtlas.Program

open CodeAtlas in
/-- Runs the command line. -/
def main (args : List String) : IO UInt32 := do
  match Invocation.read? args with
  | none =>
    IO.eprintln "usage: ckg [--verbose] [--config PATH] (init | index | query | schema) ..."
    return 2
  | some i =>
    let cwd := Program.locationOf (← IO.currentDir).toString
    let before ← Program.load i cwd
    let (o, after) := i.run before cwd
    Program.store before after
    IO.print o.output
    for e in o.error do
      IO.eprintln ("Error: " ++ e)
    return UInt32.ofNat o.code
