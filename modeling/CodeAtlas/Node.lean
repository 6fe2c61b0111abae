import CodeAtlas.Property
import CodeAtlas.Path

/-!
# Nodes and relationships

A node is a code entity: a file, a package, a class, a function, an import. Its id is derived from its
kind, its qualified name and its file, so the same declaration gets the same id in every build.

* `nodeId` — the id: the label in small letters and the first eight bytes of a digest;
* `Node.declared`, `Node.shared`, `Node.stub` — the three ways a node comes about: a declaration of one
  file, a scope to which many files contribute, and a stand-in for something outside the project;
* `Node.mergeFrom` — what happens when a node of the same id arrives again: the first declaration wins,
  later ones fill gaps, and a real declaration replaces a stub.
-/

namespace CodeAtlas

/-- The file path of nodes that stand for declarations outside the project. -/
def externalPath : String := "<external>"

/-- The last segment of a dotted name, without generic arguments. -/
def simpleName (name : String) : String :=
  String.ofList (Text.trim (Text.afterLast '.' (Text.before (· == '<') name.toList)))

/-! ### Ids -/

/-- **The bytes that an id digests**: label, trimmed qualified name and normalised path, with a zero
byte between them. -/
def idBytes (kind : NodeKind) (qualified path : String) : List UInt8 :=
  Digest.utf8 kind.label ++ [0] ++ Digest.utf8 (Text.trimmed qualified) ++ [0]
    ++ Digest.utf8 (Path.normalize path)

/-- A label in small letters; labels are ASCII. -/
def smallLabel (label : String) : List Char :=
  label.toList.map fun c => if 'A' ≤ c ∧ c ≤ 'Z' then Char.ofNat (c.toNat + 32) else c

/-- **The id of a node**: its label in small letters, a colon, and the first eight bytes of the digest
of `idBytes` in hexadecimal. -/
def nodeId (kind : NodeKind) (qualified path : String) : String :=
  String.ofList (smallLabel kind.label ++ ':' ::
    Digest.hex ((Digest.sha256 (idBytes kind qualified path)).take 8))

/-! ### Nodes -/

/-- **A code entity in the graph.** -/
structure Node where
  /-- The id, by which nodes are merged and related. -/
  id : String
  kind : NodeKind
  name : String
  /-- The declaring file, relative to the project. -/
  path : String
  /-- The line of the declaration, if it was observed. -/
  line : Option Nat
  properties : Properties
  deriving DecidableEq

namespace Node

/-- A node with the given id, whose only property is its qualified name. -/
def withId (id : String) (kind : NodeKind) (qualified name path : String) (line : Option Nat) : Node :=
  { id, kind, name, path, line
    properties := Keyed.empty.insert "qualified_name" (.text qualified) }

/-- **A declaration of one file**; its id covers the file. -/
def declared (kind : NodeKind) (qualified name path : String) (line : Nat) : Node :=
  withId (nodeId kind qualified (Path.normalize path)) kind qualified name (Path.normalize path)
    (some line)

/-- **A scope that many files share**; its id ignores the file. -/
def shared (kind : NodeKind) (qualified name path : String) (line : Nat) : Node :=
  withId (nodeId kind qualified "") kind qualified name (Path.normalize path) (some line)

/-- The node with a property set. -/
def set (n : Node) (key : String) (v : Property) : Node :=
  { n with properties := n.properties.insert key v }

/-- The node with a property set, if the value carries information. -/
def setIfPresent (n : Node) (key : String) (v : Property) : Node :=
  if v.isEmpty then n else n.set key v

/-- The node with a text property set, if there is a text that carries information. -/
def setText? (n : Node) (key : String) : Option String → Node
  | some s => n.setIfPresent key (.text s)
  | none => n

/-- **A stand-in for a declaration outside the project.** -/
def stub (kind : NodeKind) (qualified : String) : Node :=
  (withId (nodeId kind qualified "") kind qualified (simpleName qualified) externalPath (some 0)).set
    "stub" (.flag true)

/-- The text of a core field or of a property, as the schema sees it. -/
def fieldText? (n : Node) (key : String) : Option String :=
  if key = "id" then some n.id
  else if key = "name" then some n.name
  else if key = "file_path" then some n.path
  else if key = "line_number" then n.line.map fun l => String.ofList (Json.natChars l)
  else (n.properties.get? key).map Property.storageText

/-- The qualified name of a node; its plain name if it has none. -/
def qualifiedName (n : Node) : String :=
  ((n.properties.get? "qualified_name").bind Property.text?).getD n.name

/-- Whether a node stands for a declaration outside the project. -/
def isStub (n : Node) : Bool :=
  n.properties.get? "stub" == some (.flag true)

/-- The properties of `a`, completed by those that only `b` has. -/
def fillProperties (a b : Properties) : Properties :=
  b.entries.foldl (fun m e => m.insertNew e.1 e.2) a

/-- **A later node of the same id folded into an earlier one.** A real declaration replaces a stub and
takes over what only the stub knew; otherwise the earlier node stays and its gaps are filled. -/
def mergeFrom (n other : Node) : Node :=
  if n.isStub && !other.isStub then
    { other with properties := fillProperties other.properties (n.properties.erase "stub") }
  else
    { n with
      properties := fillProperties n.properties other.properties
      line := n.line.or other.line }

/-- Where a node is declared, for display. -/
def location (n : Node) : String :=
  match n.line with
  | some l => n.path ++ ":" ++ String.ofList (Json.natChars l)
  | none => n.path

/-- The JSON form of a node. -/
def toJson (n : Node) : Json :=
  .obj [("id", .str n.id), ("type", .str n.kind.label), ("name", .str n.name),
    ("file_path", .str n.path),
    ("line_number", match n.line with
      | some l => .int l
      | none => .null),
    ("properties", n.properties.toJson)]

/-- A line number, or none for null. -/
def lineOfJson? : Json → Option (Option Nat)
  | .null => some none
  | .int n => if 0 ≤ n then some (some n.toNat) else none
  | _ => none

/-- The line of a JSON form; a missing field means none as well. -/
def lineField? (v : Json) : Option (Option Nat) :=
  match v.field? "line_number" with
  | none => some none
  | some line => lineOfJson? line

/-- The node of a JSON form. -/
def ofJson? (v : Json) : Option Node := do
  let id ← (v.field? "id").bind Json.text?
  let kind ← ((v.field? "type").bind Json.text?).bind NodeKind.ofLabel?
  let name ← (v.field? "name").bind Json.text?
  let path ← (v.field? "file_path").bind Json.text?
  let line ← lineField? v
  let properties ← (v.field? "properties").bind Properties.ofJson?
  return { id, kind, name, path, line, properties }

end Node

/-! ### Relationships -/

/-- **A directed, typed edge between two nodes.** -/
structure Relationship where
  kind : RelKind
  /-- The id of the node that the edge starts from. -/
  source : String
  /-- The id of the node that the edge leads to. -/
  target : String
  properties : Properties
  deriving DecidableEq

namespace Relationship

/-- The edge of a kind between two nodes, without properties. -/
def between (kind : RelKind) (source target : String) : Relationship :=
  { kind, source, target, properties := Keyed.empty }

/-- The relationship with a property set. -/
def set (r : Relationship) (key : String) (v : Property) : Relationship :=
  { r with properties := r.properties.insert key v }

/-- What identifies a relationship: its two ends and its kind. -/
def key (r : Relationship) : String × RelKind × String :=
  (r.source, r.kind, r.target)

/-- The JSON form of a relationship. -/
def toJson (r : Relationship) : Json :=
  .obj [("type", .str r.kind.label), ("source_node_id", .str r.source),
    ("target_node_id", .str r.target), ("properties", r.properties.toJson)]

/-- The relationship of a JSON form. -/
def ofJson? (v : Json) : Option Relationship := do
  let kind ← ((v.field? "type").bind Json.text?).bind RelKind.ofLabel?
  let source ← (v.field? "source_node_id").bind Json.text?
  let target ← (v.field? "target_node_id").bind Json.text?
  let properties ← (v.field? "properties").bind Properties.ofJson?
  return { kind, source, target, properties }

end Relationship

end CodeAtlas
