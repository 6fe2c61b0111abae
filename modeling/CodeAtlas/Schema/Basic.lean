import CodeAtlas.Statement

/-!
# The schema of the graph

A schema lists what the graph may hold: for every registered kind of node the properties that it must
and may carry, and for every registered kind of relationship the pairs of node kinds that it may
connect. A build checks every node and every relationship against the schema before a statement is
made of it.

A schema grows by registration (`Schema.node`, `Schema.nodes`, `Schema.relationship`); several
registrations of one kind add up. `Schema.checkNode` and `Schema.checkRelationship` give the verdicts.
-/

namespace CodeAtlas

/-- **Why a node or a relationship is refused.** -/
inductive Rejection where
  | unknownNodeKind (label : String)
  | missingProperty (label id property : String)
  | unknownRelationship (label : String)
  | invalidPair (label source target : String)
  deriving DecidableEq

/-- The wording of a refusal. -/
def Rejection.message : Rejection → String
  | .unknownNodeKind label => "Unknown node type: " ++ label
  | .missingProperty label id property =>
    label ++ " node " ++ id ++ " is missing required property '" ++ property ++ "'"
  | .unknownRelationship label => "Unknown relationship type: " ++ label
  | .invalidPair label source target => label ++ " cannot connect " ++ source ++ " to " ++ target

/-- The properties of one kind of node. -/
structure NodeSpec where
  required : List String
  optional : List String
  deriving DecidableEq

/-- **The closed set of node and relationship kinds.** Each kind is listed once, in the order of its
first registration. -/
structure Schema where
  nodes : List (NodeKind × NodeSpec)
  relationships : List (RelKind × List (NodeKind × NodeKind))

namespace Schema

/-- The schema in which nothing is registered. -/
def empty : Schema := ⟨[], []⟩

/-! ### Registration -/

/-- The properties that every node carries. -/
def coreProperties : List String := ["name", "file_path", "line_number"]

/-- The list with those of the new items appended, in their order, that it does not hold. -/
def addNew {α : Type} [BEq α] (l new : List α) : List α :=
  new.foldl (fun l a => if l.contains a then l else l ++ [a]) l

/-- The entries with the value of `k` changed by `f`; `d` stands for a missing value. -/
def adjust {κ α : Type} [DecidableEq κ] (k : κ) (d : α) (f : α → α) : List (κ × α) → List (κ × α)
  | [] => [(k, f d)]
  | (j, v) :: rest => if j = k then (j, f v) :: rest else (j, v) :: adjust k d f rest

/-- A specification with further properties. The core properties are always required, and a property
that is required is not listed as optional. -/
def NodeSpec.extend (spec : NodeSpec) (required optional : List String) : NodeSpec :=
  let required := addNew spec.required (coreProperties ++ required)
  { required
    optional := addNew spec.optional (optional.filter fun p => !required.contains p) }

/-- **A kind of node registered** with properties that it requires and allows. -/
def node (s : Schema) (kind : NodeKind) (required optional : List String) : Schema :=
  { s with nodes := adjust kind ⟨[], []⟩ (NodeSpec.extend · required optional) s.nodes }

/-- The kinds of several categories of one namespace registered alike. -/
def nodesOf (s : Schema) (ns : Namespace) (categories : List Category)
    (required optional : List String) : Schema :=
  categories.foldl (fun s c => s.node ⟨ns, c⟩ required optional) s

/-- **A kind of relationship registered** from every source to every target. -/
def relationship (s : Schema) (kind : RelKind) (sources targets : List NodeKind) : Schema :=
  let pairs := sources.flatMap fun a => targets.map fun b => (a, b)
  { s with relationships := adjust kind [] (addNew · pairs) s.relationships }

/-! ### Verdicts -/

/-- The specification of a kind of node, if it is registered. -/
def spec? (s : Schema) (kind : NodeKind) : Option NodeSpec :=
  s.nodes.lookup kind

/-- Whether a kind of node is registered. -/
def isRegistered (s : Schema) (kind : NodeKind) : Bool :=
  (s.spec? kind).isSome

/-- The properties that a kind of node requires. -/
def requiredOf (s : Schema) (kind : NodeKind) : List String :=
  ((s.spec? kind).map (·.required)).getD []

/-- The properties that a kind of node allows beyond those. -/
def optionalOf (s : Schema) (kind : NodeKind) : List String :=
  ((s.spec? kind).map (·.optional)).getD []

/-- Whether a kind of relationship is registered. -/
def hasRelationship (s : Schema) (kind : RelKind) : Bool :=
  (s.relationships.lookup kind).isSome

/-- The pairs that a kind of relationship may connect, by source and then by target. -/
def pairsOf (s : Schema) (kind : RelKind) : List (NodeKind × NodeKind) :=
  let pairs := (s.relationships.lookup kind).getD []
  NodeKind.all.flatMap fun a => (NodeKind.all.filter fun b => pairs.contains (a, b)).map fun b => (a, b)

/-- Whether a property of a node is there: its text is not blank and is not the empty list. -/
def isPresent (n : Node) (property : String) : Bool :=
  match n.fieldText? property with
  | some v => !Text.isBlankString v && v != "[]"
  | none => false

/-- **The verdict on a node**: its kind is registered and all that the kind requires is there. -/
def checkNode (s : Schema) (n : Node) : Except Rejection Unit :=
  match s.spec? n.kind with
  | none => .error (.unknownNodeKind n.kind.label)
  | some spec =>
    match spec.required.find? fun p => !isPresent n p with
    | some p => .error (.missingProperty n.kind.label n.id p)
    | none => .ok ()

/-- **The verdict on a relationship** between nodes of the given kinds. -/
def checkRelationship (s : Schema) (r : Relationship) (source target : NodeKind) :
    Except Rejection Unit :=
  match s.relationships.lookup r.kind with
  | none => .error (.unknownRelationship r.kind.label)
  | some pairs =>
    if pairs.contains (source, target) then .ok ()
    else .error (.invalidPair r.kind.label source.label target.label)

/-! ### Description -/

/-- The version of the description format. -/
def version : String := "0.0.1"

/-- **The description of a schema**: every registered kind in the order of namespaces and then of
categories or verbs. -/
def describe (s : Schema) : Json :=
  let nodeTypes := (NodeKind.all.filter s.isRegistered).map fun k =>
    Json.obj [("label", .str k.label), ("namespace", .str k.space.name),
      ("required", Json.ofTexts (s.requiredOf k)), ("optional", Json.ofTexts (s.optionalOf k))]
  let relTypes := (RelKind.all.filter s.hasRelationship).map fun k =>
    Json.obj [("label", .str k.label), ("namespace", .str k.space.name),
      ("pairs", .arr ((s.pairsOf k).map fun p => Json.ofTexts [p.1.label, p.2.label]))]
  .obj [("version", .str version), ("node_types", .arr nodeTypes),
    ("relationship_types", .arr relTypes)]

end Schema

end CodeAtlas
