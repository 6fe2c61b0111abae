import CodeAtlas.Register
import CodeAtlas.Store.Session

/-!
# What a graph store holds

A stored graph has nodes with distinct ids and edges with distinct keys: two ends and a label. Merging a
node or an edge creates it, or overwrites the given fields of the one that is there and keeps its others;
deleting a node deletes its edges.

A field has a scalar value: a list is stored as the text of a JSON array, and a text without its line
breaks and tabs. The name of a field has to be an identifier of the query language.

* `StoredGraph.apply` — the effect of a statement;
* `StoredGraph.clearFile` — the graph without what a file declares;
* `StoredGraph.rows` — the rows of a query.
-/

namespace CodeAtlas

/-- **A node as it is stored.** -/
structure StoredNode where
  id : String
  fields : Properties
  deriving DecidableEq

/-- **An edge as it is stored.** -/
structure StoredEdge where
  source : String
  target : String
  label : String
  fields : Properties
  deriving DecidableEq

/-- What identifies a stored edge. -/
def StoredEdge.key (e : StoredEdge) : String × String × String :=
  (e.source, e.target, e.label)

/-! ### Fields -/

/-- A value as it is stored. -/
def Property.stored : Property → Property
  | .text s => .text (flattened s)
  | .list items => .text (flattened (Json.writeStrings items))
  | .flag b => .flag b
  | .integer n => .integer n

/-- Fields with others written over them. -/
def overwrite (fields : Properties) (new : List (String × Property)) : Properties :=
  new.foldl (fun m e => m.insert e.1 e.2) fields

/-- The fields as they are stored. -/
def storedFields (fields : List (String × Property)) : List (String × Property) :=
  fields.map fun f => (f.1, f.2.stored)

/-- Whether a text is an identifier of the query language. -/
def isFieldName (s : String) : Bool :=
  match s.toList with
  | [] => false
  | c :: cs =>
    (Text.isAsciiLetter c || c == '_')
      && cs.all fun c => Text.isAsciiLetter c || Text.isAsciiDigit c || c == '_'

/-- The fields, if all their names are identifiers. -/
def checkedFields (fields : List (String × Property)) : Except StoreError (List (String × Property)) :=
  match fields.find? fun f => !isFieldName f.1 with
  | some f => .error (.database ("invalid property name '" ++ f.1 ++ "'"))
  | none => .ok (storedFields fields)

/-! ### Changes -/

/-- **The contents of a graph store.** -/
structure StoredGraph where
  nodes : Register StoredNode StoredNode.id := ∅
  edges : Register StoredEdge StoredEdge.key := ∅

namespace StoredGraph

instance : EmptyCollection StoredGraph := ⟨{}⟩

/-- Whether there is a node with an id. -/
def hasNode (g : StoredGraph) (id : String) : Bool :=
  g.nodes.contains id

/-- The graph with a node merged into it. -/
def mergeNode (g : StoredGraph) (id : String) (fields : List (String × Property)) : StoredGraph :=
  { g with
    nodes := g.nodes.upsert (fun a b => { a with fields := overwrite a.fields b.fields.entries })
      (fun _ _ _ => rfl) { id, fields := overwrite ∅ fields } }

/-- The graph with an edge merged into it. Without both its ends there is no edge. -/
def mergeEdge (g : StoredGraph) (source target label : String) (fields : List (String × Property)) :
    StoredGraph :=
  if g.hasNode source && g.hasNode target then
    { g with
      edges := g.edges.upsert (fun a b => { a with fields := overwrite a.fields b.fields.entries })
        (fun _ _ _ => rfl) { source, target, label, fields := overwrite ∅ fields } }
  else g

/-- **The effect of a statement.** -/
def apply (g : StoredGraph) : Statement → Except StoreError StoredGraph
  | .mergeNode n => (checkedFields n.fields).map (g.mergeNode n.id)
  | .mergeRelationship r =>
    (checkedFields r.properties.entries).map (g.mergeEdge r.source r.target r.kind.storeLabel)

/-- The graph without the nodes that satisfy a condition, and without their edges. -/
def deleteNodes (g : StoredGraph) (p : StoredNode → Bool) : StoredGraph :=
  let gone (id : String) : Bool := (g.nodes.get? id).any p
  { nodes := g.nodes.filter fun n => !p n
    edges := g.edges.filter fun e => !gone e.source && !gone e.target }

/-- Whether a node is recorded for a file. -/
def isOfFile (path : String) (n : StoredNode) : Bool :=
  n.fields.get? "file_path" == some (.text (flattened path))

/-- The number of nodes that are recorded for a file. -/
def countOfFile (g : StoredGraph) (path : String) : Nat :=
  (g.nodes.entries.filter (isOfFile path)).length

/-- **The graph without the nodes that are recorded for a file.** -/
def clearFile (g : StoredGraph) (path : String) : StoredGraph :=
  g.deleteNodes (isOfFile path)

end StoredGraph

/-! ### Rows of a query -/

/-- A thing that a query matches. -/
inductive Matched where
  | node (n : StoredNode)
  | edge (e : StoredEdge)

/-- A field as a JSON value; null if it is missing. -/
def fieldValue (fields : Properties) (key : String) : Json :=
  match fields.get? key with
  | some v => v.toJson
  | none => .null

/-- A property of a matched thing. The id of a node is one of its properties. -/
def Matched.value (key : String) : Matched → Json
  | .node n => if key = "id" then .str n.id else fieldValue n.fields key
  | .edge e => fieldValue e.fields key

/-- The things of a match, by their names. -/
abbrev Binding := List (String × Matched)

/-- The value of a term in a match; null if the term is about nothing that is matched. -/
def Term.value (b : Binding) : Term → Json
  | .property name key =>
    match b.lookup name with
    | some m => m.value key
    | none => .null
  | .label name =>
    match b.lookup name with
    | some (.edge e) => .str e.label
    | _ => .null

/-- Whether a match satisfies a condition. -/
def Condition.holds (b : Binding) : Condition → Bool
  | .equals t s => (t.value b).text? == some (flattened s)
  | .contains t s => (t.value b).text?.any fun v => Text.hasText (flattened s).toList v.toList
  | .among t ss => ss.any fun s => (t.value b).text? == some (flattened s)
  | .both c d => c.holds b && d.holds b

namespace StoredGraph

/-- The matches of a shape. -/
def matched (g : StoredGraph) : Shape → List Binding
  | .node name property =>
    let kept := g.nodes.entries.filter fun n =>
      property.all fun p => n.fields.get? p.1 == some (.text (flattened p.2))
    kept.map fun n => [(name, .node n)]
  | .edge a r b label =>
    let kept := g.edges.entries.filter fun e => label.all (e.label == ·)
    kept.filterMap fun e =>
      match g.nodes.get? e.source, g.nodes.get? e.target with
      | some source, some target => some [(a, .node source), (r, .edge e), (b, .node target)]
      | _, _ => none

end StoredGraph

/-- The row of a match. -/
def Selection.row (q : Selection) (b : Binding) : Row :=
  Keyed.ofList (q.columns.map fun c => (c.name, c.term.value b))

/-- **Whether a column takes the name of something that a later column is about.** The name then means
the column from there on, and a store cannot run such a query. -/
def hidesName : List Column → Bool
  | [] => false
  | c :: rest => rest.any (fun d => d.term.subject == c.name) || hidesName rest

/-- **The rows of a query.** Only queries that are known by their parts can be run. -/
def StoredGraph.rows (g : StoredGraph) : GraphQuery → Except StoreError (List Row)
  | .raw _ => .error (.database "unsupported query")
  | .select q =>
    -- The names of columns come into scope from left to right.
    if hidesName q.columns then .error (.database "a column hides a matched name")
    else
      .ok (((g.matched q.shape).filter fun b => q.condition.all (Condition.holds b)).map q.row)

end CodeAtlas
