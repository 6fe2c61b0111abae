import CodeAtlas.Syntax.Tree
import CodeAtlas.Source.Fragment

/-!
# The walk through a Java tree

The record of a Java file is found by a walk through its syntax tree. The kind of a node decides what the walk
does there (`roleOf`): it notes a declaration, passes by, or goes on with the children of the node. The walk keeps
the nested names of the types around the place where it is (`Walker.owners`): a type is pushed before its body
is visited and popped behind it, and what is declared belongs to the innermost one.

Calls are found apart from the walk, by a query over the whole tree.
-/

namespace CodeAtlas.Java

/-! ### What a declaration says -/

/-- The name of a type without its arguments. -/
def typeName (n : SyntaxNode) : String :=
  String.ofList (Fragment.baseTypeName n.text)

/-- What stands in the list of modifiers of a declaration. -/
def modifierNodes (n : SyntaxNode) : List SyntaxNode :=
  ((n.children.find? fun c => c.kind == "modifiers").map SyntaxNode.children).getD []

/-- Whether a node is an annotation. -/
def isAnnotationNode (n : SyntaxNode) : Bool :=
  n.isAny ["annotation", "marker_annotation"]

/-- Whether a node is a comment. -/
def isComment (n : SyntaxNode) : Bool :=
  n.isAny ["line_comment", "block_comment"]

/-- The keywords among the modifiers of a declaration. -/
def keywords (n : SyntaxNode) : List String :=
  ((modifierNodes n).filter fun c => !isAnnotationNode c && !isComment c).map SyntaxNode.string

/-- The names of the annotations of a declaration. -/
def annotations (n : SyntaxNode) : List String :=
  ((modifierNodes n).filter isAnnotationNode).filterMap fun c => (c.childIn? "name").map SyntaxNode.string

/-- The names in a clause that lists types, whether or not the list is a node of its own. -/
def typeNames (n : SyntaxNode) : List String :=
  (n.namedChildren.flatMap fun c =>
    if c.kind == "type_list" then c.namedChildren.map typeName else [typeName c]).filter (· ≠ "")

/-- The type that a class extends. -/
def superclass? (n : SyntaxNode) : Option String :=
  (n.childIn? "superclass").bind fun clause => clause.namedChildren.head?.map typeName

/-- The interfaces of a type: those of the clause in its field, and then those that an interface extends, whose
clause stands in no field. Of the latter none is listed again. -/
def interfaces (n : SyntaxNode) : List String :=
  let clauses := n.children.filter fun c => c.kind == "extends_interfaces"
  (clauses.flatMap typeNames).foldl (fun listed name => if listed.contains name then listed else listed ++ [name])
    (((n.childIn? "interfaces").map typeNames).getD [])

/-- The names of type parameters: the first word of each. -/
def typeParameters (n : SyntaxNode) : List String :=
  ((n.childIn? "type_parameters").map fun list =>
    list.namedChildren.filterMap fun c => (Text.words c.text).head?.map String.ofList).getD []

/-- **A parameter.** One that takes a variable number of arguments has no name of its own; there the last word
is taken. -/
def parameter (n : SyntaxNode) : Parameter where
  name :=
    match n.childIn? "name" with
    | some name => name.string
    | none => String.ofList ((Text.words n.text).getLast?.getD [])
  typeName := (n.childIn? "type").map SyntaxNode.squashed

/-- The parameters of a list. -/
def parameters (list : SyntaxNode) : List Parameter :=
  (list.namedChildren.filter (·.isAny ["formal_parameter", "spread_parameter"])).map parameter

/-- **The text of a documentation comment**: its lines without margins and stars, on one line. Only a comment that
starts with `/**` is one. -/
def docText? (comment : List Char) : Option String :=
  if Text.startsWith "/**".toList comment then
    let body := Text.stripAllEnd "*/".toList (Text.stripAll "/**".toList comment)
    let lines := (Text.lines body).map fun l => Text.trim ((Text.trim l).dropWhile (· == '*'))
    match lines.filter (· ≠ []) with
    | [] => none
    | l => some (String.ofList (Text.joinWith [' '] l))
  else none

/-- The documentation of a declaration, given the node before it. -/
def doc? (previous : Option SyntaxNode) : Option String :=
  previous.bind fun c => if c.kind == "block_comment" then docText? c.text else none

/-! ### Decision points -/

/-- The kinds of nodes at which the flow of control branches. -/
def decisionKinds : List String :=
  ["if_statement", "for_statement", "enhanced_for_statement", "while_statement", "do_statement", "catch_clause",
    "ternary_expression", "switch_label"]

/-- Whether a node is a decision point. A short-circuit operator is one too. -/
def isDecision (n : SyntaxNode) : Bool :=
  n.isAny decisionKinds
    || (n.kind == "binary_expression" && (n.childIn? "operator").any fun o => ["&&", "||"].contains o.string)

mutual

/-- The number of decision points from a node down. -/
def decisions : SyntaxNode → Nat
  | ⟨info, children⟩ => (if isDecision ⟨info, children⟩ then 1 else 0) + decisionsOf children

/-- The number of decision points from some nodes down. -/
def decisionsOf : List SyntaxNode → Nat
  | [] => 0
  | c :: rest => decisions c + decisionsOf rest

end

/-! ### Declarations -/

/-- A type with the given name. -/
def typeDecl (owner : Option String) (previous : Option SyntaxNode) (kind : TypeKind) (n name : SyntaxNode) :
    TypeDecl :=
  { name := name.string
    kind
    modifiers := keywords n
    annotations := annotations n
    superclass := superclass? n
    interfaces := interfaces n
    enclosing := owner
    typeParameters := typeParameters n
    span := n.info.span
    doc := doc? previous }

/-- The fields that the components of a record declare. -/
def componentFields (kind : TypeKind) (nested : String) (n : SyntaxNode) : List FieldDecl :=
  match kind, n.childIn? "parameters" with
  | .record, some list =>
    (parameters list).map fun p =>
      { name := p.name
        owner := some nested
        typeName := p.typeName
        modifiers := ["final"]
        span := list.info.span }
  | _, _ => []

/-- A method or a constructor with the given name. -/
def callableDecl (owner : Option String) (previous : Option SyntaxNode) (kind : CallableKind)
    (n name : SyntaxNode) : CallableDecl :=
  { name := name.string
    kind
    owner
    modifiers := keywords n
    annotations := annotations n
    parameters := ((n.childIn? "parameters").map parameters).getD []
    returnType := (n.childIn? "type").map SyntaxNode.squashed
    span := n.info.span
    complexity := 1 + ((n.childIn? "body").map decisions).getD 0
    doc := doc? previous }

/-- The fields of a declaration, one for each declarator with a name. -/
def fieldDecls (owner : Option String) (n : SyntaxNode) : List FieldDecl :=
  (n.childrenIn "declarator").filterMap fun declarator =>
    (declarator.childIn? "name").map fun name =>
      { name := name.string
        owner
        typeName := (n.childIn? "type").map SyntaxNode.squashed
        modifiers := keywords n
        annotations := annotations n
        span := n.info.span }

/-- A constant of an enumeration, whose type is the enumeration. -/
def constantDecls (owner : Option String) (n : SyntaxNode) : List FieldDecl :=
  ((n.childIn? "name").map fun name =>
    { name := name.string
      owner
      typeName := owner
      modifiers := ["public", "static", "final"]
      span := n.info.span : FieldDecl }).toList

/-- The name in a package directive. -/
def packageName? (n : SyntaxNode) : Option String :=
  (n.namedChildren.find? (·.isAny ["scoped_identifier", "identifier"])).map SyntaxNode.string

/-- What an import directive imports; nothing without a path. -/
def importDecls (n : SyntaxNode) : List ImportDecl :=
  let path := ((n.children.filter (·.isAny ["scoped_identifier", "identifier"])).getLast?.map
    SyntaxNode.string).getD ""
  if path = "" then []
  else
    [{ path
       member := none
       localName := none
       wildcard := n.children.any (·.kind == "asterisk")
       isStatic := n.children.any (·.kind == "static")
       line := n.info.line
       statement := n.squashed }]

/-! ### The walk -/

/-- **What a node is to the walk.** -/
inductive Role where
  | packageLine
  | importLine
  | type (kind : TypeKind)
  | callable (kind : CallableKind)
  | field
  | constant
  /-- What is declared below belongs to no type that is listed. -/
  | apart
  | other

/-- The role of the nodes of a kind. -/
def roleOf (kind : String) : Role :=
  match kind with
  | "package_declaration" => .packageLine
  | "import_declaration" => .importLine
  | "class_declaration" => .type .plainClass
  | "interface_declaration" => .type .interface
  | "enum_declaration" => .type .enum
  | "record_declaration" => .type .record
  | "annotation_type_declaration" => .type .annotationType
  | "method_declaration" => .callable .method
  | "constructor_declaration" => .callable .constructor
  | "compact_constructor_declaration" => .callable .constructor
  | "field_declaration" => .field
  | "constant_declaration" => .field
  | "enum_constant" => .constant
  | "object_creation_expression" => .apart
  | "lambda_expression" => .apart
  | _ => .other

/-- **The state of the walk**: what has been found, and the nested names of the types around, the innermost
first. -/
structure Walker where
  package : Option String := none
  packageLine : Nat := 0
  facts : Declarations := {}
  owners : List String := []

namespace Walker

/-- The nested name of the innermost type around. -/
def owner (w : Walker) : Option String := w.owners.head?

/-- The walk has met a package directive. -/
def visitPackage (w : Walker) (n : SyntaxNode) : Walker :=
  match packageName? n with
  | some name => { w with package := some name, packageLine := n.info.line }
  | none => w

/-- The walk has met an import directive. -/
def visitImport (w : Walker) (n : SyntaxNode) : Walker :=
  { w with facts := { w.facts with imports := w.facts.imports ++ importDecls n } }

/-- The walk has found a type, after the fields that its header declares. -/
def addType (w : Walker) (header : List FieldDecl) (d : TypeDecl) : Walker :=
  { w with facts := { w.facts with fields := w.facts.fields ++ header, types := w.facts.types ++ [d] } }

/-- The walk has found a callable. -/
def addCallable (w : Walker) (d : CallableDecl) : Walker :=
  { w with facts := { w.facts with callables := w.facts.callables ++ [d] } }

/-- The walk has found fields. -/
def addFields (w : Walker) (l : List FieldDecl) : Walker :=
  { w with facts := { w.facts with fields := w.facts.fields ++ l } }

/-- The walk enters the body of a type. -/
def enter (w : Walker) (nested : String) : Walker := { w with owners := nested :: w.owners }

/-- The walk leaves the body of a type. -/
def leave (w : Walker) : Walker := { w with owners := w.owners.tail }

mutual

/-- **The walk visits a node**, given the node before it. A type or a callable without a name is passed by. -/
def visit (w : Walker) (previous : Option SyntaxNode) : SyntaxNode → Walker
  | ⟨info, children⟩ =>
    let n : SyntaxNode := ⟨info, children⟩
    match roleOf info.kind with
    | .packageLine => w.visitPackage n
    | .importLine => w.visitImport n
    | .type kind =>
      match n.childIn? "name" with
      | some name =>
        let decl := typeDecl w.owner previous kind n name
        let found := w.addType (componentFields kind decl.nestedName n) decl
        (visitBody (found.enter decl.nestedName) children).leave
      | none => w
    | .callable kind =>
      match n.childIn? "name" with
      -- Local types of the body belong to the type around the callable.
      | some name => visitBody (w.addCallable (callableDecl w.owner previous kind n name)) children
      | none => w
    | .field => w.addFields (fieldDecls w.owner n)
    | .constant => w.addFields (constantDecls w.owner n)
    | .apart => w
    | .other => visitChildren w none children

/-- The walk visits the children of a node that are named, given the child before them. -/
def visitChildren (w : Walker) (previous : Option SyntaxNode) : List SyntaxNode → Walker
  | [] => w
  | c :: rest => visitChildren (if c.info.isNamed then visit w previous c else w) (some c) rest

/-- The walk visits the children of the body, which is the first of some nodes in the field of that name. -/
def visitBody (w : Walker) : List SyntaxNode → Walker
  | [] => w
  | ⟨info, children⟩ :: rest =>
    if info.field == some "body" then visitChildren w none children else visitBody w rest

end

end Walker

/-! ### Calls -/

/-- The call of a method, from its node and the node of its name. -/
def methodCall (n name : SyntaxNode) : CallSite :=
  let qualifier := (n.childIn? "object").map SyntaxNode.squashed
  { callee := name.string, qualifier, line := name.info.line, isMethod := qualifier.isSome }

/-- The call of a constructor, from the node of its type. -/
def constructorCall (type : SyntaxNode) : CallSite :=
  { callee := String.ofList (Text.afterLast '.' (Fragment.baseTypeName type.text))
    qualifier := none
    line := type.info.line
    isMethod := false }

/-- The call that the query finds at a child of a node: at the name of a method invocation, and at the type of an
object creation. -/
def callAt? (parent child : SyntaxNode) : Option CallSite :=
  if parent.kind == "method_invocation" && child.info.field == some "name" && child.kind == "identifier" then
    (parent.childIn? "name").map (methodCall parent)
  else if parent.kind == "object_creation_expression" && child.info.field == some "type" && child.info.isNamed
  then (parent.childIn? "type").map constructorCall
  else none

mutual

/-- **The calls below a node**, in the order in which the query finds them. -/
def calls : SyntaxNode → List CallSite
  | ⟨info, children⟩ => callsAmong ⟨info, children⟩ children

/-- The calls at and below some children of a node. -/
def callsAmong (parent : SyntaxNode) : List SyntaxNode → List CallSite
  | [] => []
  | c :: rest => (callAt? parent c).toList ++ calls c ++ callsAmong parent rest

end

/-- **The record of a Java tree.** -/
def recordOf (t : SyntaxTree) : SourceRecord :=
  let w := ({} : Walker).visit none t.root
  .java w.package w.packageLine { w.facts with calls := (calls t.root).mergeSort CallSite.precedes }

end CodeAtlas.Java
