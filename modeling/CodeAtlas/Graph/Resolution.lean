import CodeAtlas.Reach
import CodeAtlas.Graph.Imports

/-!
# Resolving references

When all files have been walked, the references that wait are resolved one after the other: those to
types first, so that overrides and calls can follow the hierarchy. A supertype that is not found in the
project gets a stand-in; any other reference that is not found is dropped.
-/

namespace CodeAtlas.WorkingSet

/-! ### Types -/

/-- Whether a kind is a type of a namespace. -/
def isTypeIn (ns : Namespace) (k : NodeKind) : Bool :=
  k.space == ns && k.category.isType

/-- Whether a kind is a callable of a namespace. -/
def isCallableIn (ns : Namespace) (k : NodeKind) : Bool :=
  k.space == ns && k.category.isCallable

/-- The set and the id of the type that a name refers to. A type outside the project is represented by a
stand-in of the given category. -/
def typeOrStub (s : WorkingSet) (ns : Namespace) (origin : Origin) (name : String) (stub : Category) :
    WorkingSet × String :=
  match s.resolve name origin (isTypeIn ns) with
  | some id => (s, id)
  | none =>
    let n := Node.stub ⟨ns, stub⟩ name
    (s.addNode n, n.id)

/-- The language and the kind of a declaration, if the language is one that is built. -/
def languageOf? (s : WorkingSet) (languages : List Language) (id : String) :
    Option (Language × NodeKind) := do
  let kind ← s.kind? id
  let l ← Language.ofSpace? kind.space
  if languages.contains l then some (l, kind) else none

/-- A supertype resolved. A type is not its own supertype. -/
def resolveSupertype (languages : List Language) (s : WorkingSet) (source name : String)
    (clause : SuperClause) : WorkingSet :=
  match s.languageOf? languages source with
  | none => s
  | some (l, kind) =>
    let (s, target) := s.typeOrStub kind.space (s.originOf source) name (l.stubCategory clause)
    -- A name may lead back to the type that mentions it.
    if target = source then s
    else
      match s.kind? target with
      | none => s
      | some targetKind =>
        let verb := l.hierarchyVerb kind.category targetKind.category clause
        (s.relate (.between ⟨kind.space, verb⟩ source target)).addSupertype source target

/-- The type that an extension extends resolved. -/
def resolveExtension (languages : List Language) (s : WorkingSet) (source receiver : String) :
    WorkingSet :=
  match s.languageOf? languages source with
  | none => s
  | some (l, kind) =>
    let name := String.ofList (Text.dropEndWhile (· == '?') receiver.toList)
    let (s, target) := s.typeOrStub kind.space (s.originOf source) name (l.stubCategory .superclass)
    s.relate (.between ⟨kind.space, .extensionOf⟩ source target)

/-! ### Members -/

/-- The callable member of a type with a name that satisfies a condition. -/
def callableMember? (s : WorkingSet) (p : String → Bool) (name owner : String) : Option String :=
  (s.membersOf owner).find? fun id =>
    p id && (s.node? id).any fun n => n.name == name && n.kind.category.isCallable

/-- **The nearest member that a member overrides**: the search goes through the supertypes of its owner,
breadth first, and leaves the owner out. -/
def overridden? (s : WorkingSet) (member owner name : String) : Option String :=
  Reach.nearest?
    (fun type => if type = owner then none else s.callableMember? (· != member) name type)
    (Reach.others owner s.supertypes.entries) (s.supertypesOf owner)

/-- An override resolved. -/
def resolveOverride (s : WorkingSet) (member owner name : String) : WorkingSet :=
  match s.kind? member, s.overridden? member owner name with
  | some kind, some target => s.relate (.between ⟨kind.space, .overriding⟩ member target)
  | _, _ => s

/-- The nearest callable of a name that a type declares or inherits. -/
def memberInHierarchy? (s : WorkingSet) (owner name : String) : Option String :=
  Reach.nearest? (s.callableMember? (fun _ => true) name) s.supertypes.entries [owner]

/-! ### Annotations and calls -/

/-- An annotation resolved. -/
def resolveAnnotation (s : WorkingSet) (source name : String) : WorkingSet :=
  match s.kind? source with
  | none => s
  | some kind =>
    let accept := fun k : NodeKind => k.space == kind.space && k.category == .annotationType
    match s.resolve name (s.originOf source) accept with
    | some target => s.relate (.between ⟨kind.space, .annotatedWith⟩ source target)
    | none => s

/-- **What a call refers to.** Without a qualifier, or on the object itself, a member of the type around
the call comes first. A qualifier with a capital letter names a type. Of any other qualifier the type is
not known, and the name alone decides. -/
def callee? (s : WorkingSet) (ns : Namespace) (origin : Origin) (callee : String)
    (qualifier : Option String) : Option String :=
  let byName := fun name => s.resolve name origin (isCallableIn ns)
  let own := (origin.owner.bind fun owner => s.memberInHierarchy? owner callee).or (byName callee)
  match qualifier with
  | none => own
  | some q =>
    -- The object itself: as if there were no qualifier.
    if q = "this" ∨ q = "self" ∨ q = "super" then own
    else if q.toList.head?.any Text.isCapital then
      ((s.resolve q origin (isTypeIn ns)).bind fun type => s.memberInHierarchy? type callee).or
        (byName (q ++ "." ++ callee))
    else byName callee

/-- A call resolved. -/
def resolveCall (s : WorkingSet) (caller callee : String) (qualifier : Option String) (line : Nat) :
    WorkingSet :=
  match s.kind? caller with
  | none => s
  | some kind =>
    match s.callee? kind.space (s.originOf caller) callee qualifier with
    | some target => s.relate ((Relationship.between .calls caller target).set "line" (.ofNat line))
    | none => s

/-! ### Imports -/

/-- The relationship of an import to one file. -/
def linkImport (file source : String) (line : Nat) (statement : String) (s : WorkingSet)
    (target : String) : WorkingSet :=
  if target = file then s
  else
    match s.files.get? target with
    | none => s
    | some id =>
      s.relate (((Relationship.between .imports source id).set "line" (.ofNat line)).set
        "statement" (.text statement))

/-- An import resolved. -/
def resolveImport (languages : List Language) (s : WorkingSet) (file : String) (l : Language)
    (i : ImportTarget) (line : Nat) (statement : String) : WorkingSet :=
  if languages.contains l then
    match s.files.get? file with
    | none => s
    | some source => (s.importTargets l file i).foldl (linkImport file source line statement) s
  else s

/-! ### All references -/

/-- A reference resolved. -/
def resolveReference (languages : List Language) (s : WorkingSet) : Reference → WorkingSet
  | .supertype source name clause => resolveSupertype languages s source name clause
  | .extension source receiver => resolveExtension languages s source receiver
  | .overriding member owner name => s.resolveOverride member owner name
  | .annotated source name => s.resolveAnnotation source name
  | .call caller callee qualifier line => s.resolveCall caller callee qualifier line
  | .importing file l i line statement => resolveImport languages s file l i line statement

/-- **All references that wait resolved**, those to types first. -/
def resolvePending (languages : List Language) (s : WorkingSet) : WorkingSet :=
  let (types, others) := s.pending.partition Reference.isHierarchy
  (types ++ others).foldl (resolveReference languages) { s with pending := [] }

end CodeAtlas.WorkingSet
