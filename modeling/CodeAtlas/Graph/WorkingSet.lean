import CodeAtlas.Register
import CodeAtlas.Graph.Reference

/-!
# The working set of a build

A build walks all files of a project and collects nodes and relationships in a `WorkingSet`. The set holds
each node id once and each relationship key once, in the order of arrival; a node that arrives again is
merged into the one that is there. Beside them it keeps what the resolution of names needs: which nodes
are declarations and where they live, the files with their scopes, the supertypes found so far, and the
references that wait.

`WorkingSet.resolve` is the one rule for names: an exact qualified name first; otherwise the declarations
with the simple name, of which there must be only one, or one in the same file, or only one in the same
scope. A name that stays ambiguous is not resolved.
-/

namespace CodeAtlas

/-- **A declaration that names can refer to.** -/
structure Declaration where
  /-- The id of its node. -/
  id : String
  simpleName : String
  qualifiedName : String
  origin : Origin
  deriving DecidableEq, Repr

/-- **What a build has collected.** -/
structure WorkingSet where
  nodes : Register Node Node.id := ∅
  relationships : Register Relationship Relationship.key := ∅
  declarations : Register Declaration Declaration.id := ∅
  /-- The references that wait for resolution. -/
  pending : List Reference := []
  /-- The id of the node of each file. -/
  files : Keyed String := ∅
  /-- The scope of each file that has one. -/
  scopes : Keyed String := ∅
  /-- The child and the parent of each inheritance. -/
  supertypes : Register (String × String) id := ∅
  warnings : List String := []

namespace WorkingSet

/-! ### Collecting -/

theorem id_mergeFrom (a b : Node) (h : a.id = b.id) : (a.mergeFrom b).id = a.id := by
  unfold Node.mergeFrom
  split <;> simp_all

/-- The set with a node, merged into the node of the same id if there is one. -/
def addNode (s : WorkingSet) (n : Node) : WorkingSet :=
  { s with nodes := s.nodes.upsert Node.mergeFrom id_mergeFrom n }

/-- **The set with a declaration.** Names refer to the first declaration of an id. -/
def addDeclaration (s : WorkingSet) (n : Node) (origin : Origin) : WorkingSet :=
  let s := s.addNode n
  { s with
    declarations := s.declarations.insertNew
      { id := n.id, simpleName := simpleName n.name, qualifiedName := n.qualifiedName, origin } }

/-- The set with the node of a file. -/
def addFile (s : WorkingSet) (path : String) (n : Node) : WorkingSet :=
  let s := s.addNode n
  { s with files := s.files.insert path n.id }

/-- The set with the scope of a file. -/
def setScope (s : WorkingSet) (path scope : String) : WorkingSet :=
  { s with scopes := s.scopes.insert path scope }

/-- The set with a relationship, unless its key is there already. -/
def relate (s : WorkingSet) (r : Relationship) : WorkingSet :=
  { s with relationships := s.relationships.insertNew r }

/-- The set with a reference that waits. -/
def defer (s : WorkingSet) (r : Reference) : WorkingSet :=
  { s with pending := s.pending ++ [r] }

/-- The set with more references that wait. -/
def deferAll (s : WorkingSet) (l : List Reference) : WorkingSet :=
  { s with pending := s.pending ++ l }

/-- The set with a warning. -/
def warn (s : WorkingSet) (message : String) : WorkingSet :=
  { s with warnings := s.warnings ++ [message] }

/-- The set with an inheritance. -/
def addSupertype (s : WorkingSet) (child parent : String) : WorkingSet :=
  { s with supertypes := s.supertypes.insertNew (child, parent) }

/-! ### Looking up -/

/-- The node with an id. -/
def node? (s : WorkingSet) (id : String) : Option Node :=
  s.nodes.get? id

/-- The kind of the node with an id. -/
def kind? (s : WorkingSet) (id : String) : Option NodeKind :=
  (s.node? id).map (·.kind)

/-- Where the declaration with an id lives. -/
def origin? (s : WorkingSet) (id : String) : Option Origin :=
  (s.declarations.get? id).map (·.origin)

/-- Where the declaration with an id lives; nowhere, if the id is not declared. -/
def originOf (s : WorkingSet) (id : String) : Origin :=
  (s.origin? id).getD {}

/-- The ids of the declarations that satisfy a condition, in order. -/
def declared (s : WorkingSet) (p : Declaration → Bool) : List String :=
  (s.declarations.entries.filter p).map (·.id)

/-- The declarations with a qualified name. -/
def byQualifiedName (s : WorkingSet) (name : String) : List String :=
  s.declared fun d => d.qualifiedName == name

/-- The declarations with a simple name. -/
def bySimpleName (s : WorkingSet) (name : String) : List String :=
  s.declared fun d => d.simpleName == name

/-- The members of a type. -/
def membersOf (s : WorkingSet) (owner : String) : List String :=
  s.declared fun d => d.origin.owner == some owner

/-- The supertypes of a type. -/
def supertypesOf (s : WorkingSet) (child : String) : List String :=
  (s.supertypes.entries.filter fun e => e.1 == child).map (·.2)

/-- The paths of the files, ascending. -/
def filePaths (s : WorkingSet) : List String :=
  s.files.keys

/-! ### Resolving names -/

/-- The ids whose nodes are of a kind that is accepted. -/
def accepted (s : WorkingSet) (accept : NodeKind → Bool) (ids : List String) : List String :=
  ids.filter fun id => (s.kind? id).any accept

/-- The choice among several declarations of one simple name: the first one in the same file, or the only
one in the same scope. -/
def choose (s : WorkingSet) (origin : Origin) (candidates : List String) : Option String :=
  match candidates.find? fun id => (s.origin? id).any fun o => o.file == origin.file with
  | some id => some id
  | none =>
    if origin.scope.isSome then
      match candidates.filter fun id => (s.origin? id).any fun o => o.scope == origin.scope with
      | [id] => some id
      | _ => none
    else none

/-- **The declaration that a name refers to**, seen from a place. -/
def resolve (s : WorkingSet) (name : String) (origin : Origin) (accept : NodeKind → Bool) :
    Option String :=
  let exact := if name.toList.contains '.' then (s.accepted accept (s.byQualifiedName name)).head? else none
  match exact with
  | some id => some id
  | none =>
    match s.accepted accept (s.bySimpleName (simpleName name)) with
    | [] => none
    | [id] => some id
    | candidates => s.choose origin candidates

end WorkingSet

end CodeAtlas
