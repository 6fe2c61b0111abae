import CodeAtlas.Cycle
import CodeAtlas.Pattern.Reader
import CodeAtlas.Schema.Standard
import CodeAtlas.Store.Session

/-!
# Requests about a graph

A `Request` is a question about the code that a graph holds: the callers of a function, the sealed
hierarchies, the cycles among imports. It is put to a store as one query or two, whose rows are then
filtered, ordered and shaped:

* `Request.inquiry` — the queries of a request, and the shape of its answer;
* `Request.ask` — a request put to a session.

A request that makes no sense is refused before a query is run; a query that fails ends the request.
Either way the answer has no data and says why.
-/

namespace CodeAtlas

/-- How a name is searched for. -/
inductive SearchMode where
  | contains
  | exact
  | regex
  deriving DecidableEq, Repr

/-- The name of a mode. -/
def SearchMode.name : SearchMode → String
  | .contains => "contains"
  | .exact => "exact"
  | .regex => "regex"

/-- The mode with a given name. -/
def SearchMode.ofName? (s : String) : Option SearchMode :=
  [contains, exact, regex].find? fun m => m.name == s

/-- The relationship along which cycles are looked for. -/
inductive CycleRelation where
  | imports
  | calls
  deriving DecidableEq, Repr

/-- The name of a relation. -/
def CycleRelation.name : CycleRelation → String
  | .imports => "imports"
  | .calls => "calls"

/-- The relation with a given name. -/
def CycleRelation.ofName? (s : String) : Option CycleRelation :=
  [imports, calls].find? fun r => r.name == s

/-- The kind of relationship that a relation stands for. -/
def CycleRelation.kind : CycleRelation → RelKind
  | .imports => RelKind.imports
  | .calls => RelKind.calls

/-- **A question about the code that a graph holds.** -/
inductive Request where
  | functionsInFile (path : String)
  | classesInFile (path : String)
  | callersOf (name : String)
  | calleesOf (name : String)
  /-- The inheritance of a namespace; with a root, only what is below it. -/
  | inheritance (space : Namespace) (root : Option String)
  | statistics
  | search (pattern : String) (mode : SearchMode)
  | cycles (relation : CycleRelation)
  | dataClasses (space : Option Namespace)
  | extensions (receiver : Option String)
  | sealedHierarchies
  | overrides (member : String) (space : Option Namespace)
  /-- A query of the user's own. -/
  | raw (text : String)

/-- **Why a request is refused.** -/
inductive Refusal where
  | invalidRegex (pattern : String)
  | noOverrides (space : Namespace)
  deriving DecidableEq, Repr

/-- The wording of a refusal. -/
def Refusal.message : Refusal → String
  | .invalidRegex pattern => "Invalid regex '" ++ pattern ++ "'"
  | .noOverrides space => space.name ++ " has no override relationships"

/-- **How a request is put and answered**: the queries that are run, and what is made of the rows of
each. A refused request runs none. -/
structure Inquiry where
  queries : List GraphQuery
  shape : List (List Row) → List Json
  refusal : Option Refusal := none

namespace Inquiry

/-- An inquiry of one query. -/
def one (q : Selection) (shape : List Row → List Json) : Inquiry :=
  { queries := [.select q], shape := fun rows => shape (rows.headD []) }

/-- An inquiry of two queries. -/
def two (p q : Selection) (shape : List Row → List Row → List Json) : Inquiry :=
  { queries := [.select p, .select q], shape := fun rows => shape (rows.headD []) (rows.tail.headD []) }

end Inquiry

namespace Request

/-! ### Columns -/

/-- A column with a property of a matched thing. -/
def column (subject key name : String) : Column :=
  ⟨.property subject key, name⟩

/-- The columns that tell where a matched node is declared. -/
def declaredColumns (n : String) : List Column :=
  [column n "name" "name", column n "node_type" "type", column n "qualified_name" "qualified_name",
    column n "file_path" "file", column n "line_number" "line"]

/-- The condition that an edge has one of some kinds. -/
def ofKinds (kinds : List RelKind) : Condition :=
  .among (.label "r") (kinds.map RelKind.storeLabel)

/-- The condition that a node has one of some kinds. -/
def ofNodeKinds (kinds : List NodeKind) : Condition :=
  .among (.property "n" "node_type") (kinds.map NodeKind.label)

/-! ### Declarations -/

/-- The declarations in a file whose category satisfies a condition, by line. -/
def declarationsIn (path : String) (keep : Category → Bool) : Inquiry :=
  .one
    { shape := .node "n" (some ("file_path", path))
      columns := [column "n" "name" "name", column "n" "node_type" "type",
        column "n" "qualified_name" "qualified_name", column "n" "line_number" "line",
        column "n" "end_line" "end_line", column "n" "signature" "signature"] }
    fun rows =>
      let kept := rows.filter fun r => (r.kind? "type").any fun k => keep k.category
      (Row.sortedBy Row.placeLe Row.place kept).map Row.decode

/-- The calls of which one end has a given name: the columns describe the end `subject`, and the name is
that of the end `other`. -/
def callsOf (subject other name : String) : Inquiry :=
  .one
    { shape := .edge "caller" "r" "callee" (some RelKind.calls.storeLabel)
      condition := some (.equals (.property other "name") name)
      columns := [column subject "name" "name", column subject "qualified_name" "qualified_name",
        column subject "node_type" "type", column subject "file_path" "file",
        column "r" "line" "line", column other "qualified_name" other] }
    Row.byFile

/-- The columns of an overriding member and of what it overrides. -/
def overrideColumns : List Column :=
  [column "m" "name" "name", column "m" "qualified_name" "qualified_name",
    column "m" "node_type" "type", column "m" "file_path" "file", column "m" "line_number" "line",
    column "p" "qualified_name" "overrides", column "p" "file_path" "overrides_file"]

/-- The overriding members with a given name. -/
def overridesOf (member : String) (space : Option Namespace) : Inquiry :=
  let spaces := [Namespace.java, .kotlin, .dart].filter fun ns => space.all (· == ns)
  match spaces, space with
  | [], some ns => { queries := [], shape := fun _ => [], refusal := some (.noOverrides ns) }
  | _, _ =>
    .one
      { shape := .edge "m" "r" "p" none
        condition := some (.both (ofKinds (spaces.map fun ns => ⟨ns, .overriding⟩))
          (.equals (.property "m" "name") member))
        columns := overrideColumns }
      Row.byFile

/-! ### Searching -/

/-- The nodes whose name is as wanted. -/
def searchFor (pattern : String) (mode : SearchMode) : Inquiry :=
  let select (condition : Option Condition) : Selection :=
    { shape := .node "n" none, condition, columns := declaredColumns "n" }
  let name : Term := .property "n" "name"
  match mode with
  | .contains => .one (select (some (.contains name pattern))) Row.byFile
  | .exact => .one (select (some (.equals name pattern))) Row.byFile
  | .regex =>
    match Pattern.read? pattern.toList with
    | none => { queries := [.select (select none)], shape := fun _ => []
                refusal := some (.invalidRegex pattern) }
    | some p =>
      .one (select none) fun rows => Row.byFile (rows.filter fun r => p.occurs (r.text "name").toList)

/-! ### Inheritance -/

/-- The kinds of inheritance of a namespace. -/
def hierarchyKinds (space : Namespace) : List RelKind :=
  ((Verb.all.filter Verb.isHierarchy).map fun v => ⟨space, v⟩).filter Schema.standard.hasRelationship

/-- A row whose relationship goes by its public label. -/
def publicLabel (r : Row) : Row :=
  match RelKind.ofLabel? (r.text "relationship") with
  | some k => r.insert "relationship" (.str k.label)
  | none => r

/-- **The rows below a root**, nearest first, each with its depth. -/
def below (root : String) (rows : List Row) : List Row :=
  let edges := rows.map fun r => (r.text "parent", r)
  (Reach.visits (Row.text · "child") edges [(root, 0)]).map fun v => v.1.insert "depth" (.int v.2)

/-- The inheritance of a namespace. -/
def inheritanceOf (space : Namespace) (root : Option String) : Inquiry :=
  .one
    { shape := .edge "child" "r" "parent" none
      condition := some (ofKinds (hierarchyKinds space))
      columns := [column "child" "name" "child", column "child" "node_type" "child_type",
        column "parent" "name" "parent", column "parent" "node_type" "parent_type",
        ⟨.label "r", "relationship"⟩] }
    fun rows =>
      let rows := Row.sortedBy Row.pairLe (fun r => (r.text "parent", r.text "child"))
        (rows.map publicLabel)
      match root with
      | none => rows.map Row.toJson
      | some root => (below root rows).map Row.toJson

/-! ### Counting -/

/-- How often each text occurs. -/
def tally (l : List String) : Keyed Nat :=
  l.foldl (fun m s => m.update s 0 (· + 1)) ∅

/-- Counts as a JSON object. -/
def tallyJson (m : Keyed Nat) : Json :=
  .obj (m.entries.map fun e => (e.1, .int e.2))

/-- The counts of a graph. -/
def statisticsOf (nodes edges : List Row) : Json :=
  let files := nodes.filter fun r => r.text "type" == (NodeKind.generic .file).label
  let label (s : String) : String := ((RelKind.ofLabel? s).map RelKind.label).getD s
  .obj [("total_nodes", .int nodes.length), ("total_relationships", .int edges.length),
    ("files", .int files.length), ("stub_nodes", .int (nodes.filter fun r => r.flag "stub").length),
    ("languages", tallyJson (tally (files.map fun r => r.text "language"))),
    ("node_types", tallyJson (tally (nodes.map fun r => r.text "type"))),
    ("relationship_types", tallyJson (tally (edges.map fun r => label (r.text "type"))))]

/-- The inquiry for the counts. -/
def statisticsInquiry : Inquiry :=
  .two
    { shape := .node "n" none
      columns := [column "n" "node_type" "type", column "n" "language" "language",
        column "n" "stub" "stub"] }
    { shape := .edge "a" "r" "b" none, columns := [⟨.label "r", "type"⟩] }
    fun nodes edges => [statisticsOf nodes edges]

/-! ### Cycles -/

/-- The names that rows give to the ids at the ends of their edges; the last one counts. -/
def namesOfEnds (rows : List Row) : Keyed String :=
  rows.foldl (fun m r => (m.insert (r.text "source") (r.text "source_name")).insert (r.text "target")
    (r.text "target_name")) ∅

/-- The cycles along the edges of rows. -/
def cyclesOf (rows : List Row) : List Json :=
  let names := namesOfEnds rows
  (Cycle.all (rows.map fun r => (r.text "source", r.text "target"))).map fun ids =>
    .obj [("length", .int ids.length), ("nodes", Json.ofTexts (ids.map fun i => (names.get? i).getD i)),
      ("ids", Json.ofTexts ids)]

/-- The inquiry for the cycles along a relation. -/
def cyclesInquiry (relation : CycleRelation) : Inquiry :=
  .one
    { shape := .edge "a" "r" "b" (some relation.kind.storeLabel)
      columns := [column "a" "id" "source", column "b" "id" "target", column "a" "name" "source_name",
        column "b" "name" "target_name"] }
    cyclesOf

/-! ### Shapes of declarations -/

/-- The kinds of node that are data classes by themselves. -/
def dataClassKinds : List NodeKind :=
  [⟨.kotlin, .dataClass⟩, ⟨.java, .record⟩]

/-- Whether a row is that of a data class: by its kind, or by what is written above it. -/
def isDataClass (r : Row) : Bool :=
  match r.kind? "type" with
  | none => false
  | some k =>
    dataClassKinds.contains k || r.listContains "annotations" "dataclass"
      || r.listContains "annotations" "dataclasses.dataclass"

/-- The data classes, of one namespace or of all. -/
def dataClassesOf (space : Option Namespace) : Inquiry :=
  .one
    { shape := .node "n" none
      condition := some (ofNodeKinds (dataClassKinds ++ [.generic .plainClass]))
      columns := declaredColumns "n" ++ [column "n" "annotations" "annotations"] }
    fun rows =>
      let kept := rows.filter fun r =>
        space.all (fun ns => (r.kind? "type").any fun k => k.space == ns) && isDataClass r
      (Row.sortedBy Row.pairLe (fun r => (r.text "file", r.text "name")) kept).map Row.decode

/-- The extensions, of one receiver or of all. -/
def extensionsOf (receiver : Option String) : Inquiry :=
  .one
    { shape := .edge "n" "r" "t" none
      condition := some (ofKinds [⟨.kotlin, .extensionOf⟩, ⟨.dart, .extensionOf⟩])
      columns := declaredColumns "n" ++ [column "t" "name" "receiver"] }
    fun rows =>
      let kept := rows.filter fun r => receiver.all (r.text "receiver" == ·)
      (Row.sortedBy Row.pairLe (fun r => (r.text "receiver", r.text "name")) kept).map Row.decode

/-- The subtypes of a sealed type among the rows of inheritance, by name. -/
def subtypesOf (id : String) (edges : List Row) : List Json :=
  let children := edges.filter fun e => e.text "parent" == id
  (Row.sortedBy (fun a b => !(b < a)) (fun e => e.text "name") children).map fun e =>
    .obj [("name", .str (e.text "name")), ("type", .str (e.text "type"))]

/-- A sealed type as it is shown, with its subtypes in place of its modifiers. -/
def sealedRow (r : Row) (subtypes : List Json) : Json :=
  Row.decode ((r.erase "modifiers").insert "subtypes" (.arr subtypes))

/-- The sealed types as they are shown. A type that comes twice has its subtypes at its first place. -/
def sealedRows (edges : List Row) : (seen : List String) → List Row → List Json
  | _, [] => []
  | seen, r :: rest =>
    let id := r.text "id"
    sealedRow r (if seen.contains id then [] else subtypesOf id edges) :: sealedRows edges (id :: seen) rest

/-- Whether a row is that of a sealed type: by its kind, or by its modifiers. -/
def isSealed (r : Row) : Bool :=
  (r.kind? "type").any (fun k => k.space == .kotlin) || r.listContains "modifiers" "sealed"

/-- The inquiry for the sealed hierarchies. -/
def sealedInquiry : Inquiry :=
  .two
    { shape := .node "n" none
      condition := some (ofNodeKinds [⟨.kotlin, .sealedClass⟩, ⟨.dart, .plainClass⟩])
      columns := [column "n" "id" "id", column "n" "name" "name", column "n" "node_type" "type",
        column "n" "file_path" "file", column "n" "line_number" "line",
        column "n" "modifiers" "modifiers"] }
    { shape := .edge "child" "r" "parent" none
      condition := some (ofKinds [⟨.kotlin, .extending⟩, ⟨.kotlin, .implementing⟩, ⟨.dart, .extending⟩,
        ⟨.dart, .implementing⟩])
      columns := [column "parent" "id" "parent", column "child" "name" "name",
        column "child" "node_type" "type"] }
    fun nodes edges =>
      sealedRows edges [] (Row.sortedBy Row.pairLe (fun r => (r.text "file", r.text "name"))
        (nodes.filter isSealed))

/-! ### Asking -/

/-- **The queries of a request, and the shape of its answer.** -/
def inquiry : Request → Inquiry
  | .functionsInFile path => declarationsIn path Category.isCallable
  | .classesInFile path => declarationsIn path Category.isType
  | .callersOf name => callsOf "caller" "callee" name
  | .calleesOf name => callsOf "callee" "caller" name
  | .inheritance space root => inheritanceOf space root
  | .statistics => statisticsInquiry
  | .search pattern mode => searchFor pattern mode
  | .cycles relation => cyclesInquiry relation
  | .dataClasses space => dataClassesOf space
  | .extensions receiver => extensionsOf receiver
  | .sealedHierarchies => sealedInquiry
  | .overrides member space => overridesOf member space
  | .raw text => { queries := [.raw text], shape := fun rows => (rows.headD []).map Row.toJson }

end Request

/-- **The answer to a request.** -/
structure Answer where
  data : List Json := []
  /-- The texts of the queries. -/
  queryText : String
  /-- Why there is no data. -/
  error : Option String := none

namespace Answer

/-- Whether nothing failed. -/
def success (a : Answer) : Bool :=
  a.error.isNone

/-- The JSON form of an answer. -/
def toJson (a : Answer) : Json :=
  .obj [("success", .bool a.success), ("data", .arr a.data), ("query_text", .str a.queryText),
    ("error_message", Json.ofText? a.error)]

end Answer

/-- Queries run one after the other, up to the first that fails. -/
def Session.queryAll {σ : Type} (session : Session σ) :
    List GraphQuery → σ → Except StoreError (List (List Row)) × σ
  | [], s => (.ok [], s)
  | q :: rest, s =>
    match session.query q s with
    | (.error e, s) => (.error e, s)
    | (.ok rows, s) =>
      match session.queryAll rest s with
      | (.error e, s) => (.error e, s)
      | (.ok more, s) => (.ok (rows :: more), s)

/-- **A request put to a session.** -/
def Request.ask {σ : Type} (session : Session σ) (request : Request) (s : σ) : Answer × σ :=
  let i := request.inquiry
  let queryText := Text.joined ";\n" (i.queries.map GraphQuery.text)
  match i.refusal with
  | some r => ({ queryText, error := some r.message }, s)
  | none =>
    match session.queryAll i.queries s with
    | (.ok rows, s) => ({ data := i.shape rows, queryText }, s)
    | (.error e, s) => ({ queryText, error := some e.message }, s)

end CodeAtlas
