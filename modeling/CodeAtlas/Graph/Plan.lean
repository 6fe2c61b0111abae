import CodeAtlas.Project.ParseResult
import CodeAtlas.Schema.Basic
import CodeAtlas.Graph.Emission
import CodeAtlas.Graph.Resolution

/-!
# The plan of a build

A build turns the outcome of reading a project into statements for a graph store. All files are walked in
the order of their paths, the references between them are resolved, and what the schema accepts is
planned: nodes first, then the relationships between planned nodes. Nothing is dropped without a
warning.

* `workingSet` — what the files declare, with all references resolved;
* `Plan` — the nodes and relationships that are accepted, and the warnings;
* `plan` — the plan of a build.
-/

namespace CodeAtlas

/-- **What a build is made with.** -/
structure BuildSettings where
  schema : Schema
  /-- The languages that are built. -/
  languages : List Language := Language.all

/-! ### Walking the files -/

/-- Why a file of a project is not built. -/
inductive Skip where
  | unread (path : String) (reason : Option String)
  | unsupported (path : String) (language : Language)
  | mismatched (path : String) (record language : Language)
  deriving DecidableEq, Repr

/-- The warning about a file that is not built. -/
def Skip.message : Skip → String
  | .unread path reason => path ++ ": skipped (" ++ reason.getD "not parsed" ++ ")"
  | .unsupported path l => path ++ ": no build routine for " ++ l.name
  | .mismatched path r l => path ++ ": " ++ r.name ++ " record does not match file language " ++ l.name

/-- The record of a file that is to be built, or why it is not. -/
def ParsedFile.built (f : ParsedFile) (languages : List Language) : Except Skip SourceRecord :=
  match f.record with
  | none => .error (.unread f.path f.error)
  | some r =>
    if !f.success then .error (.unread f.path f.error)
    else if !languages.contains f.language then .error (.unsupported f.path f.language)
    else if r.language ≠ f.language then .error (.mismatched f.path r.language f.language)
    else .ok r

/-- The last segment of a path, whichever way its segments are divided. -/
def lastSegment (path : String) : String :=
  (Text.parts (fun c => c == '/' || c == '\\') path).getLast?.getD path

/-- The node of a file. -/
def ParsedFile.node (f : ParsedFile) : Node :=
  let n := Node.declared (.generic .file) f.path (lastSegment f.path) f.path 1
  let n := n.set "language" (.text f.language.name)
  let n := n.set "relative_path" (.text f.path)
  let n := n.set "line_count" (.ofNat f.lines)
  n.set "fidelity" (.text f.fidelity.name)

/-- **The working set with what a file declares.** -/
def addParsedFile (languages : List Language) (s : WorkingSet) (f : ParsedFile) : WorkingSet :=
  match f.built languages with
  | .error skip => s.warn skip.message
  | .ok record =>
    let n := f.node
    emitRecord (s.addFile f.path n) { language := f.language, path := f.path, fileId := n.id } record

/-- **The working set of a project**, with all references resolved. -/
def workingSet (languages : List Language) (r : ParseResult) : WorkingSet :=
  (r.files.foldl (addParsedFile languages) {}).resolvePending languages

/-! ### Planning -/

/-- **What is to be written to a graph store**, and what is not, with the reasons. -/
structure Plan where
  nodes : List Node := []
  relationships : List Relationship := []
  warnings : List String := []

namespace Plan

/-- The plan with a node, or with the reason why the schema rejects it. -/
def addNode (schema : Schema) (p : Plan) (n : Node) : Plan :=
  match schema.checkNode n with
  | .ok _ => { p with nodes := p.nodes ++ [n] }
  | .error e => { p with warnings := p.warnings ++ [e.message] }

/-- The kind of a planned node. -/
def kind? (p : Plan) (id : String) : Option NodeKind :=
  (p.nodes.find? fun n => n.id == id).map (·.kind)

/-- The warning about a relationship of which an end is not planned. -/
def droppedMessage (r : Relationship) : String :=
  r.kind.label ++ " " ++ r.source ++ " -> " ++ r.target ++ " dropped: endpoint not in graph"

/-- The plan with a relationship, or with the reason why there is none. -/
def addRelationship (schema : Schema) (p : Plan) (r : Relationship) : Plan :=
  match p.kind? r.source, p.kind? r.target with
  | some source, some target =>
    match schema.checkRelationship r source target with
    | .ok _ => { p with relationships := p.relationships ++ [r] }
    | .error e => { p with warnings := p.warnings ++ [e.message] }
  | _, _ => { p with warnings := p.warnings ++ [droppedMessage r] }

/-- **The plan of a working set.** -/
def ofWorkingSet (schema : Schema) (s : WorkingSet) : Plan :=
  let p := s.nodes.entries.foldl (addNode schema) { warnings := s.warnings }
  s.relationships.entries.foldl (addRelationship schema) p

/-- The statements of a plan: nodes before relationships. -/
def statements (p : Plan) : List Statement :=
  p.nodes.map .mergeNode ++ p.relationships.map .mergeRelationship

/-- How often each label occurs. -/
def labelCounts (labels : List String) : Keyed Nat :=
  labels.foldl (fun m l => m.update l 0 (· + 1)) {}

/-- The number of planned nodes of each kind. -/
def nodeCounts (p : Plan) : Keyed Nat :=
  labelCounts (p.nodes.map fun n => n.kind.label)

/-- The number of planned relationships of each kind. -/
def relationshipCounts (p : Plan) : Keyed Nat :=
  labelCounts (p.relationships.map fun r => r.kind.label)

end Plan

/-- **The plan of a build.** -/
def plan (settings : BuildSettings) (r : ParseResult) : Plan :=
  .ofWorkingSet settings.schema (workingSet settings.languages r)

end CodeAtlas
