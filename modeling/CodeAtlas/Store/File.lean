import CodeAtlas.Store.Contents
import CodeAtlas.Text.Utf8

/-!
# Graphs in files

A stored graph is kept in a file as a JSON document. A file without any bytes is a graph without any
nodes.
-/

namespace CodeAtlas

namespace StoredGraph

/-- The JSON form of a stored graph. -/
def toJson (g : StoredGraph) : Json :=
  .obj [("nodes", .arr (g.nodes.entries.map fun n =>
      .obj [("id", .str n.id), ("fields", n.fields.toJson)])),
    ("edges", .arr (g.edges.entries.map fun e =>
      .obj [("source", .str e.source), ("target", .str e.target), ("label", .str e.label),
        ("fields", e.fields.toJson)]))]

/-- The node of a JSON form. -/
def nodeOfJson? (v : Json) : Option StoredNode := do
  return { id := ← (v.field? "id").bind Json.text?
           fields := ← (v.field? "fields").bind Properties.ofJson? }

/-- The edge of a JSON form. -/
def edgeOfJson? (v : Json) : Option StoredEdge := do
  return { source := ← (v.field? "source").bind Json.text?
           target := ← (v.field? "target").bind Json.text?
           label := ← (v.field? "label").bind Json.text?
           fields := ← (v.field? "fields").bind Properties.ofJson? }

/-- The items of a JSON array. -/
def itemsOf? {α : Type} (read : Json → Option α) : Json → Option (List α)
  | .arr items => items.mapM read
  | _ => none

/-- The graph of a JSON form. -/
def ofJson? (v : Json) : Option StoredGraph := do
  let nodes ← (v.field? "nodes").bind (itemsOf? nodeOfJson?)
  let edges ← (v.field? "edges").bind (itemsOf? edgeOfJson?)
  return { nodes := nodes.foldl Register.insertNew ∅, edges := edges.foldl Register.insertNew ∅ }

/-- **The bytes of a file that keeps a graph.** -/
def toBytes (g : StoredGraph) : List UInt8 :=
  Digest.utf8 g.toJson.compact

/-- **The graph that a file keeps**, if it keeps one. -/
def ofBytes? (bytes : List UInt8) : Option StoredGraph :=
  if bytes.isEmpty then some ∅
  else ((Utf8.strict? bytes).bind Json.read?).bind ofJson?

end StoredGraph

end CodeAtlas
