import CodeAtlas.Graph.Profile
import CodeAtlas.Graph.WorkingSet

/-!
# From records to nodes

The walk over one record: each declaration becomes a node, what a declaration belongs to becomes a
relationship inside the file, and what it says about other declarations becomes a reference that waits.

The parts of a record are walked in a fixed order: the scope, imports, types, callables, fields, calls.
Types come before their members, so members find the node of the type around them.
-/

namespace CodeAtlas

/-! ### Nodes of declarations -/

/-- A line that was observed; lines are counted from one. -/
def observedLine (line : Nat) : Option Nat :=
  if line = 0 then none else some line

/-- The node of a type. -/
def TypeDecl.node (d : TypeDecl) (kind : NodeKind) (qualified path : String) : Node :=
  let n := { Node.declared kind qualified d.name path d.span.first with line := observedLine d.span.first }
  let n := n.setIfPresent "modifiers" (.list d.modifiers)
  let n := n.setIfPresent "annotations" (.list d.annotations)
  let n := n.setIfPresent "type_parameters" (.list d.typeParameters)
  let n := n.setIfPresent "nested_name" (.text d.nestedName)
  let n := n.setText? "superclass" d.superclass
  let n := n.setIfPresent "interfaces" (.list d.interfaces)
  let n := n.setIfPresent "mixins" (.list d.mixins)
  let n := n.setText? "on_type" d.onType
  let n := n.setText? "doc" d.doc
  let n := n.set "end_line" (.ofNat d.span.last)
  n.set "is_abstract" (.flag (d.hasModifier "abstract"))

/-- **The name under which a callable gets its id.** Overloads share a qualified name, so the id also
covers the types of the parameters and the receiver. -/
def CallableDecl.idName (d : CallableDecl) (qualified : String) : String :=
  let receiver := (d.receiver.map fun r => r ++ ".").getD ""
  receiver ++ qualified ++ "("
    ++ Text.joined "," (d.parameters.map fun p => p.typeName.getD "_") ++ ")"

/-- The node of a callable. -/
def CallableDecl.node (d : CallableDecl) (kind : NodeKind) (qualified path : String) : Node :=
  let n := { Node.declared kind (d.idName qualified) d.name path d.span.first with
    line := observedLine d.span.first }
  let n := n.set "qualified_name" (.text qualified)
  let n := n.set "signature" (.text d.signature)
  let n := n.set "parameter_count" (.ofNat d.parameters.length)
  let n := n.setIfPresent "parameters" (.list (d.parameters.map (·.name)))
  let n := n.setText? "return_type" d.returnType
  let n := n.setText? "receiver" d.receiver
  let n := n.setText? "owner" d.owner
  let n := n.setText? "doc" d.doc
  let n := n.setIfPresent "modifiers" (.list d.modifiers)
  let n := n.setIfPresent "annotations" (.list d.annotations)
  let n := n.set "complexity" (.ofNat d.complexity)
  let n := n.set "end_line" (.ofNat d.span.last)
  let n := n.set "is_static" (.flag (d.hasModifier "static"))
  n.set "is_async" (.flag (d.hasModifier "async" || d.hasModifier "suspend"))

/-- The node of a field. -/
def FieldDecl.node (d : FieldDecl) (kind : NodeKind) (qualified path : String) : Node :=
  let n := { Node.declared kind qualified d.name path d.span.first with line := observedLine d.span.first }
  let n := n.setText? "type_name" d.typeName
  let n := n.setText? "receiver" d.receiver
  let n := n.setText? "owner" d.owner
  let n := n.setIfPresent "modifiers" (.list d.modifiers)
  n.setIfPresent "annotations" (.list d.annotations)

/-- What an import names: a member of a path, or the path itself. -/
def ImportDecl.qualifiedName (d : ImportDecl) : String :=
  match d.member with
  | some name =>
    if name ≠ "*" ∧ !d.path.toList.contains ':' then
      String.ofList (Text.dropEndWhile (· == '.') d.path.toList) ++ "." ++ name
    else d.path
  | none => d.path

/-- The node of an import. Its id covers the line, so that repeated imports stay apart. -/
def ImportDecl.node (d : ImportDecl) (kind : NodeKind) (path : String) : Node :=
  let qualified := d.qualifiedName
  let n := Node.declared kind (qualified ++ "@" ++ String.ofList (Json.natChars d.line)) qualified path d.line
  let n := n.set "qualified_name" (.text qualified)
  let n := n.set "statement" (.text d.statement)
  let n := n.set "path" (.text d.path)
  let n := match d.localName with
    | some a => n.set "alias" (.text a)
    | none => n
  let n := n.set "wildcard" (.flag d.wildcard)
  n.set "is_static" (.flag d.isStatic)

/-! ### The site of a file -/

/-- **Where the declarations of a file go.** -/
structure FileSite where
  language : Language
  path : String
  /-- The id of the node of the file. -/
  fileId : String
  /-- The name and the id of the scope. -/
  scope : Option (String × String) := none
  /-- The types declared so far, the latest first: nested name, id and qualified name. -/
  types : List (String × String × String) := []

namespace FileSite

/-- The kind of a node of the language. -/
def kind (f : FileSite) (c : Category) : NodeKind := ⟨f.language.space, c⟩

/-- Where a declaration of the file lives. -/
def origin (f : FileSite) (owner : Option String) : Origin :=
  { file := f.path, scope := f.scope.map (·.1), owner }

/-- The qualified name of a declaration outside of all types. -/
def qualify (f : FileSite) (name : String) : String :=
  match f.scope with
  | some (scope, _) => scope ++ "." ++ name
  | none => name

/-- The id and the qualified name of the type with a nested name. -/
def type? (f : FileSite) (nested : String) : Option (String × String) :=
  f.types.lookup nested

/-- The id and the qualified name of the type around a declaration. -/
def owner? (f : FileSite) (nested : Option String) : Option (String × String) :=
  nested.bind f.type?

/-- The relationship that puts a node into the scope, or into the file if there is none. -/
def topLevelLink (f : FileSite) (child : String) (c : Category) : Relationship :=
  match f.scope with
  | some (_, id) => .between (f.language.scopeLink c) id child
  | none => .between .contains f.fileId child

/-- The relationship that puts a node into its owner. -/
def link (f : FileSite) (owner : Option (String × String)) (child : String) (c : Category) :
    Relationship :=
  match owner with
  | some (id, _) => .between .contains id child
  | none => f.topLevelLink child c

/-- The references to annotations. -/
def annotationRefs (f : FileSite) (source : String) (annotations : List String) : List Reference :=
  if f.language.linksAnnotations then
    annotations.map fun a => .annotated source (Text.strippedAll "@" a)
  else []

end FileSite

/-! ### The parts of a record -/

/-- The scope of a file. A scope without a name is none. -/
def emitScope (s : WorkingSet) (f : FileSite) (scope : Option RecordScope) : WorkingSet × FileSite :=
  match scope with
  | none => (s, f)
  | some scope =>
    let name := Text.trimmed scope.name
    if name = "" then (s, f)
    else
      let n := Node.shared (f.kind f.language.scopeCategory) name name f.path (max scope.line 1)
      let n := n.setText? "doc" scope.doc
      let s := s.addDeclaration n { file := f.path, scope := some name }
      let s := s.relate (.between .contains f.fileId n.id)
      (s.setScope f.path name, { f with scope := some (name, n.id) })

/-- An import of a file. -/
def emitImport (f : FileSite) (s : WorkingSet) (d : ImportDecl) : WorkingSet :=
  let n := d.node (f.kind .importLine) f.path
  let s := s.addNode n
  let s := s.relate (.between .contains f.fileId n.id)
  s.defer (.importing f.path f.language { path := d.path, member := d.member, wildcard := d.wildcard }
    d.line d.statement)

/-- The node of a type of a file. -/
def emitTypeNode (acc : WorkingSet × FileSite) (d : TypeDecl) : WorkingSet × FileSite :=
  let (s, f) := acc
  let qualified := f.qualify d.nestedName
  let n := d.node (f.kind (f.language.typeCategory d.kind)) qualified f.path
  let s := s.addDeclaration n (f.origin ((f.owner? d.enclosing).map (·.1)))
  (s, { f with types := (d.nestedName, n.id, qualified) :: f.types })

/-- The references of a type of a file, and the relationship that holds it. -/
def emitTypeLinks (f : FileSite) (s : WorkingSet) (d : TypeDecl) : WorkingSet :=
  match f.type? d.nestedName with
  | none => s
  | some (id, _) =>
    let s := s.relate (f.link (f.owner? d.enclosing) id (f.language.typeCategory d.kind))
    let s := s.deferAll ((f.language.supertypes d).map fun (clause, name) => .supertype id name clause)
    let s := s.deferAll ((f.language.extensionTarget? d).toList.map fun r => .extension id r)
    s.deferAll (f.annotationRefs id d.annotations)

/-- The references to the types that extensions extend. -/
def receiverRefs (id : String) (receiver : Option String) : List Reference :=
  receiver.toList.map fun r => .extension id r

/-- The qualified name of a member: below its owner, or in the scope. -/
def memberName (f : FileSite) (owner : Option (String × String)) (name : String) : String :=
  match owner with
  | some (_, qualified) => qualified ++ "." ++ name
  | none => f.qualify name

/-- A callable of a file, and the span in which its calls are made. -/
def emitCallable (f : FileSite) (acc : WorkingSet × List (Span × String)) (d : CallableDecl) :
    WorkingSet × List (Span × String) :=
  let (s, spans) := acc
  let owner := f.owner? d.owner
  let category := f.language.callableCategory d
  let n := d.node (f.kind category) (memberName f owner d.name) f.path
  let s := s.addDeclaration n (f.origin (owner.map (·.1)))
  let s := s.relate (f.link owner n.id category)
  let overrides := match owner with
    | some (id, _) => if f.language.isOverride d then [Reference.overriding n.id id d.name] else []
    | none => []
  let s := s.deferAll (overrides ++ receiverRefs n.id d.receiver ++ f.annotationRefs n.id d.annotations)
  (s, spans ++ [(d.span, n.id)])

/-- A field of a file. An extension property is named after its receiver. -/
def emitField (f : FileSite) (s : WorkingSet) (d : FieldDecl) : WorkingSet :=
  let owner := f.owner? d.owner
  let name := match owner, d.receiver with
    | none, some receiver => simpleName receiver ++ "." ++ d.name
    | _, _ => d.name
  let n := d.node (f.kind f.language.fieldCategory) (memberName f owner name) f.path
  let s := s.addDeclaration n (f.origin (owner.map (·.1)))
  let s := s.relate (f.link owner n.id f.language.fieldCategory)
  s.deferAll (receiverRefs n.id d.receiver ++ f.annotationRefs n.id d.annotations)

/-- The shorter of two spans with their ids, the first one if they are equal. -/
def shorterSpan (a b : Span × String) : Span × String :=
  if b.1.len < a.1.len then b else a

/-- **The callable that a line belongs to**: the one with the shortest span around it. -/
def innermost? (spans : List (Span × String)) (line : Nat) : Option String :=
  match spans.filter fun e => e.1.contains line with
  | [] => none
  | e :: rest => some (rest.foldl shorterSpan e).2

/-- The reference of a call, if the call is made in a callable. -/
def callRef? (spans : List (Span × String)) (c : CallSite) : Option Reference :=
  (innermost? spans c.line).map fun caller => .call caller c.callee c.qualifier c.line

/-- **The working set with what a record declares.** -/
def emitRecord (s : WorkingSet) (f : FileSite) (r : SourceRecord) : WorkingSet :=
  let d := r.facts
  let (s, f) := emitScope s f r.scope?
  let s := d.imports.foldl (emitImport f) s
  -- All types are known before the first of them is linked to its owner.
  let (s, f) := d.types.foldl emitTypeNode (s, f)
  let s := d.types.foldl (emitTypeLinks f) s
  let (s, spans) := d.callables.foldl (emitCallable f) (s, [])
  let s := d.fields.foldl (emitField f) s
  -- Calls come last, when the spans of all callables are known.
  s.deferAll (d.calls.filterMap (callRef? spans))

end CodeAtlas
