import CodeAtlas.Syntax.Tree
import CodeAtlas.PythonSource.ModuleName

/-!
# The walk through a Python tree

The record of a Python file is found by a walk through its syntax tree. The walk visits the statements of the
module and those of the bodies of classes that it visits, and hands the nested name of the class around down to
them. It looks at class definitions, function definitions, definitions with decorators and assignments; what is
defined in a function or below another statement is not listed.

Imports are collected from everywhere in the file, and calls are found by a query over the whole tree.
-/

namespace CodeAtlas.Python

/-! ### Documentation and decision points -/

/-- **The text of a documentation string**: the quotes around it are taken off, kind by kind. -/
def docText? (text : List Char) : Option String :=
  let strip := fun (s : List Char) (q : String) => Text.stripAllEnd q.toList (Text.stripAll q.toList s)
  let body := Text.trim (["\"\"\"", "'''", "\"", "'"].foldl strip text)
  if body = [] then none else some (String.ofList body)

/-- The documentation of a module or a body: its first statement, if that is a string. -/
def doc? (block : SyntaxNode) : Option String := do
  let first ← block.namedChildren.head?.filter (·.kind == "expression_statement")
  let string ← first.namedChildren.head?.filter (·.kind == "string")
  docText? string.text

/-- The kinds of nodes at which the flow of control branches. -/
def decisionKinds : List String :=
  ["if_statement", "elif_clause", "for_statement", "while_statement", "except_clause", "conditional_expression",
    "boolean_operator", "if_clause", "case_clause"]

/-- Whether a node is a definition, which is scored on its own. -/
def isDefinition (n : SyntaxNode) : Bool :=
  n.isAny ["function_definition", "class_definition"]

mutual

/-- The number of decision points from a node down, without those of the definitions below it. -/
def decisions : SyntaxNode → Nat
  | ⟨info, children⟩ => (if decisionKinds.contains info.kind then 1 else 0) + decisionsOf children

/-- The number of decision points from the named ones of some nodes down, leaving out definitions. -/
def decisionsOf : List SyntaxNode → Nat
  | [] => 0
  | c :: rest => (if c.info.isNamed && !isDefinition c then decisions c else 0) + decisionsOf rest

end

/-! ### Definitions -/

/-- The name of a decorator: what stands between its mark and its arguments. -/
def decoratorName (n : SyntaxNode) : String :=
  String.ofList (Text.trim (Text.before (· == '(') ((Text.trim n.text).dropWhile (· == '@'))))

/-- The names of the decorators of a definition. -/
def decoratorNames (n : SyntaxNode) : List String :=
  (n.namedChildren.filter (·.kind == "decorator")).map decoratorName

/-- The span of a definition, which starts where its name stands. `outer` is the definition or what holds it
together with its decorators. -/
def spanFrom (outer : NodeInfo) (name : SyntaxNode) : Span :=
  { outer.span with first := name.info.line }

/-- One argument of a class added to what is known: a name is a base, and a keyword argument counts as the choice
of a metaclass. -/
def addBase (decl : TypeDecl) (n : SyntaxNode) : TypeDecl :=
  if n.isAny ["identifier", "attribute"] then { decl with interfaces := decl.interfaces ++ [n.string] }
  else if n.kind = "keyword_argument" then
    match n.childIn? "value" with
    | some value => { decl with modifiers := decl.modifiers ++ ["metaclass=" ++ value.string] }
    | none => decl
  else decl

/-- A class with the given name. -/
def classDecl (owner : Option String) (outer : NodeInfo) (decorators : List String) (n name : SyntaxNode) :
    TypeDecl :=
  let decl : TypeDecl :=
    { name := name.string
      kind := .plainClass
      annotations := decorators
      enclosing := owner
      span := spanFrom outer name
      doc := (n.childIn? "body").bind doc? }
  (((n.childIn? "superclasses").map SyntaxNode.namedChildren).getD []).foldl addBase decl

/-- **A parameter**, if a node declares one. -/
def parameter? (n : SyntaxNode) : Option Parameter :=
  let parameter : Option Parameter :=
    match n.kind with
    | "identifier" => some { name := n.string, typeName := none }
    | "typed_parameter" =>
      some
        { name := (n.namedChildren.head?.map SyntaxNode.string).getD ""
          typeName := (n.childIn? "type").map SyntaxNode.string }
    | "default_parameter" | "typed_default_parameter" =>
      some
        { name := ((n.childIn? "name").map SyntaxNode.string).getD ""
          typeName := (n.childIn? "type").map SyntaxNode.string }
    | "list_splat_pattern" | "dictionary_splat_pattern" => some { name := n.string, typeName := none }
    | _ => none
  parameter.filter (·.name ≠ "")

/-- The visibility that a name tells of. -/
def visibility (name : List Char) : String :=
  if Text.startsWith "__".toList name && Text.endsWith "__".toList name then "public"
  else if Text.startsWith "_".toList name then "private"
  else "public"

/-- The kind of a function, given the class around it. -/
def functionKind (owner : Option String) (name : String) : CallableKind :=
  match owner with
  | some _ => if name = "__init__" then .constructor else .method
  | none => .function

/-- A function with the given name. -/
def functionDecl (owner : Option String) (outer : NodeInfo) (decorators : List String) (n name : SyntaxNode) :
    CallableDecl :=
  { name := name.string
    kind := functionKind owner name.string
    owner
    modifiers := visibility name.text :: if Text.startsWith "async".toList n.text then ["async"] else []
    annotations := decorators
    parameters := ((n.childIn? "parameters").map fun list => list.namedChildren.filterMap parameter?).getD []
    returnType := (n.childIn? "return_type").map SyntaxNode.squashed
    span := spanFrom outer name
    complexity := 1 + ((n.childIn? "body").map decisions).getD 0
    doc := (n.childIn? "body").bind doc? }

/-- Whether a name is written as a constant. -/
def isConstantName (name : List Char) : Bool :=
  name.all fun c => Text.isCapital c || Text.isAsciiDigit c || c == '_'

/-- **The variable that a statement assigns or declares**, if that is a single name. -/
def assigned? (owner : Option String) (statement : SyntaxNode) : Option FieldDecl := do
  let assignment ← statement.namedChildren.head?.filter (·.kind == "assignment")
  let left ← (assignment.childIn? "left").filter (·.kind == "identifier")
  return {
    name := left.string
    owner
    typeName := (assignment.childIn? "type").map SyntaxNode.squashed
    modifiers := if isConstantName left.text then ["constant"] else []
    span := statement.info.span }

/-! ### The walk -/

/-- What has been found with one more type. -/
def addType (d : Declarations) (t : TypeDecl) : Declarations := { d with types := d.types ++ [t] }

/-- What has been found with one more function. -/
def addFunction (d : Declarations) (c : CallableDecl) : Declarations := { d with callables := d.callables ++ [c] }

/-- What has been found with more variables. -/
def addVariables (d : Declarations) (l : List FieldDecl) : Declarations := { d with fields := d.fields ++ l }

/-- What has been found behind the function of a node; one without a name is passed by. -/
def visitFunction (owner : Option String) (outer : NodeInfo) (decorators : List String) (d : Declarations)
    (n : SyntaxNode) : Declarations :=
  match n.childIn? "name" with
  | some name => addFunction d (functionDecl owner outer decorators n name)
  | none => d

mutual

/-- What has been found behind the statements of the module or of a class body, which are the named ones of some
nodes. `owner` is the nested name of the class. -/
def visitBlock (owner : Option String) (d : Declarations) : List SyntaxNode → Declarations
  | [] => d
  | c :: rest => visitBlock owner (if c.info.isNamed then visitStatement owner d c else d) rest

/-- **What has been found behind a statement.** -/
def visitStatement (owner : Option String) (d : Declarations) : SyntaxNode → Declarations
  | ⟨info, children⟩ =>
    let n : SyntaxNode := ⟨info, children⟩
    match info.kind with
    | "class_definition" =>
      match n.childIn? "name" with
      | some name =>
        let decl := classDecl owner info [] n name
        visitBody (some decl.nestedName) (addType d decl) children
      | none => d
    | "function_definition" => visitFunction owner info [] d n
    | "decorated_definition" => visitDefinition owner info (decoratorNames n) d children
    | "expression_statement" => addVariables d (assigned? owner n).toList
    | _ => d

/-- What has been found behind a definition with decorators, which is the first of some nodes in the field of that
name. -/
def visitDefinition (owner : Option String) (outer : NodeInfo) (decorators : List String) (d : Declarations) :
    List SyntaxNode → Declarations
  | [] => d
  | ⟨info, children⟩ :: rest =>
    if info.field == some "definition" then
      let n : SyntaxNode := ⟨info, children⟩
      match info.kind with
      | "class_definition" =>
        match n.childIn? "name" with
        | some name =>
          let decl := classDecl owner outer decorators n name
          visitBody (some decl.nestedName) (addType d decl) children
        | none => d
      | "function_definition" => visitFunction owner outer decorators d n
      | _ => d
    else visitDefinition owner outer decorators d rest

/-- What has been found behind the body of a class, which is the first of some nodes in the field of that name. -/
def visitBody (owner : Option String) (d : Declarations) : List SyntaxNode → Declarations
  | [] => d
  | ⟨info, children⟩ :: rest =>
    if info.field == some "body" then visitBlock owner d children else visitBody owner d rest

end

/-! ### Imports -/

mutual

/-- The import statements from a node down. Of its children the last one is searched first. -/
def importNodes : SyntaxNode → List SyntaxNode
  | ⟨info, children⟩ =>
    if info.kind = "import_statement" ∨ info.kind = "import_from_statement" then [⟨info, children⟩]
    else importNodesOf children

/-- The import statements from the named ones of some nodes down, the last one first. -/
def importNodesOf : List SyntaxNode → List SyntaxNode
  | [] => []
  | c :: rest => importNodesOf rest ++ if c.info.isNamed then importNodes c else []

end

/-- An imported name and its alias. -/
def nameAndAlias (n : SyntaxNode) : String × Option String :=
  if n.kind = "aliased_import" then
    (((n.childIn? "name").map SyntaxNode.string).getD "", (n.childIn? "alias").map SyntaxNode.string)
  else (n.string, none)

/-- **What an import statement imports.** -/
def importDecls (n : SyntaxNode) : List ImportDecl :=
  let line := n.info.line
  let statement := n.squashed
  if n.kind = "import_statement" then
    (n.childrenIn "name").map fun c =>
      let (path, localName) := nameAndAlias c
      { path, member := none, localName, wildcard := false, isStatic := false, line, statement }
  else
    let path := ((n.childIn? "module_name").map SyntaxNode.string).getD ""
    if n.namedChildren.any (·.kind == "wildcard_import") then
      [{ path, member := some "*", localName := none, wildcard := true, isStatic := false, line, statement }]
    else
      (n.childrenIn "name").map fun c =>
        let (member, localName) := nameAndAlias c
        { path, member := some member, localName, wildcard := false, isStatic := false, line, statement }

/-- The imports of a tree, in the order of the source. -/
def imports (root : SyntaxNode) : List ImportDecl :=
  ((importNodes root).mergeSort fun a b => a.info.offset ≤ b.info.offset).flatMap importDecls

/-! ### Calls -/

/-- The call that the query finds at a child of a node: at the name that is called, or, if the node is itself what
is called, at the name of the attribute. -/
def callAt? (isCalled : Bool) (parent child : SyntaxNode) : Option CallSite :=
  let site := fun qualifier : Option String =>
    if child.text = [] then none
    else some { callee := child.string, qualifier, line := child.info.line, isMethod := qualifier.isSome }
  if child.kind ≠ "identifier" then none
  else if parent.kind = "call" ∧ child.info.field = some "function" then site none
  else if isCalled ∧ parent.kind = "attribute" ∧ child.info.field = some "attribute" then
    ((parent.childrenIn "object").find? (·.info.isNamed)).bind fun object => site (some object.squashed)
  else none

mutual

/-- **The calls below a node**, in the order in which the query finds them; `isCalled` says whether the node is what a
call calls. -/
def calls (isCalled : Bool) : SyntaxNode → List CallSite
  | ⟨info, children⟩ => callsAmong isCalled ⟨info, children⟩ children

/-- The calls at and below some children of a node. -/
def callsAmong (isCalled : Bool) (parent : SyntaxNode) : List SyntaxNode → List CallSite
  | [] => []
  | c :: rest =>
    (callAt? isCalled parent c).toList
      ++ calls (parent.kind == "call" && c.info.field == some "function") c
      ++ callsAmong isCalled parent rest

end

/-- **The record of a Python tree** at a path relative to the project. -/
def recordOf (path : String) (t : SyntaxTree) : SourceRecord :=
  .python (moduleName path) (doc? t.root)
    { visitBlock none {} t.root.children with
      imports := imports t.root
      calls := (calls false t.root).mergeSort CallSite.precedes }

end CodeAtlas.Python
