import CodeAtlas.PythonSource.Piece

/-!
# Statements

The nodes of simple statements (imports, assignments, expressions) and of the headers of compound ones (classes,
functions, branches, loops). A header ends at its colon; what follows on the same line is the body of the
statement.
-/

namespace CodeAtlas.Python

open CodeAtlas.Piece (leaf leafOver infoOver sourceText)

/-! ### Imports -/

/-- The node of an imported name, with its alias if it has one. -/
def importedName (keyword : Piece) (part : List Piece) : SyntaxNode :=
  match cutAt? "as" part with
  | some (name, given) =>
    ⟨{ infoOver "aliased_import" keyword part with field := some "name" },
      [(leafOver "dotted_name" keyword name).inField "name", (leafOver "identifier" keyword given).inField "alias"]⟩
  | none => (leafOver "dotted_name" keyword part).inField "name"

/-- The names that a `from` statement lists, possibly in parentheses. -/
def importedNames (l : List Piece) : List (List Piece) :=
  match l with
  | [p] => if p.isParens then commaParts p.inside else [[p]]
  | _ => commaParts l

/-- The node of an `import` statement. -/
def importNode (keyword : Piece) (rest : List Piece) : SyntaxNode :=
  ⟨infoOver "import_statement" keyword (keyword :: rest), (commaParts rest).map (importedName keyword)⟩

/-- The node of a `from` statement. One for the features of the language itself is of another kind. -/
def fromNode (keyword : Piece) (rest : List Piece) : SyntaxNode :=
  let statement := fun kind => infoOver kind keyword (keyword :: rest)
  match cutAt? "import" rest with
  | none => ⟨statement "import_from_statement", []⟩
  | some (origin, names) =>
    let imported :=
      match names.filter (·.is "*") with
      | [] => (importedNames names).map (importedName keyword)
      | stars => stars.map (leaf "wildcard_import")
    let kind :=
      if sourceText origin = "__future__".toList then "future_import_statement" else "import_from_statement"
    ⟨statement kind, (leafOver "dotted_name" keyword origin).inField "module_name" :: imported⟩

/-! ### Expressions and assignments -/

/-- The nodes of an expression statement: an assignment of a single name before an `=` or before the colon of its
type, a string that stands alone or before a comma, and the nodes of the code. -/
def expressionNodes (statement : List Piece) : List SyntaxNode :=
  let code := readCode statement
  match statement with
  | name :: mark :: rest =>
    if isName name && (mark.is "=" || mark.is ":") then
      let type := if mark.is ":" then [leafOver "type" mark (rest.takeWhile (!·.is "="))] else []
      [⟨infoOver "assignment" name statement,
        (leaf "identifier" name).inField "left" :: type.map (SyntaxNode.inField "type") ++ code⟩]
    else if isString name && mark.is "," then leaf "string" name :: code
    else code
  | [p] => if isString p then leaf "string" p :: code else code
  | [] => []

/-- **The node of a simple statement.** One that imports nothing counts as an expression. -/
def statementNode? (statement : List Piece) : Option SyntaxNode :=
  match statement with
  | [] => none
  | p :: rest =>
    if p.is "import" then some (importNode p rest)
    else if p.is "from" then some (fromNode p rest)
    else some ⟨infoOver "expression_statement" p statement, expressionNodes statement⟩

/-- **The nodes of the simple statements of a line.** -/
def statementNodes (l : List Piece) : List SyntaxNode :=
  (splitAt ";" [] l).filterMap statementNode?

/-! ### Headers -/

/-- The two sides of the colon that ends a header. A colon that belongs to a `lambda` does not. -/
def cutHeader (lambdas : Nat) : List Piece → List Piece × List Piece
  | [] => ([], [])
  | p :: rest =>
    if p.is ":" && lambdas == 0 then ([], rest)
    else
      let lambdas := if p.is ":" then lambdas - 1 else if p.is "lambda" then lambdas + 1 else lambdas
      let r := cutHeader lambdas rest
      (p :: r.1, r.2)

/-- The words that always start a compound statement. -/
def compoundWords : List String :=
  ["if", "elif", "else", "for", "while", "try", "except", "finally", "with", "def", "class"]

/-- **The word that makes a line a compound statement.** `match` does where a colon ends the line, and
`case` does directly inside a `match`. -/
def compoundWord? (inMatch : Bool) (l : List Piece) : Option String :=
  match l with
  | [] => none
  | p :: rest =>
    if p.is "async" then compoundWords.find? fun w => rest.head?.any (·.is w)
    else if p.is "match" then
      -- Elsewhere `match` is a name like any other.
      if l.getLast?.any (·.is ":") && 2 < l.length then some "match" else none
    else if p.is "case" then if inMatch then some "case" else none
    else compoundWords.find? p.is

/-- The kind of a compound statement that defines nothing, given what follows its word. -/
def compoundKind (word : String) (rest : List Piece) : String :=
  if word = "except" ∧ rest.head?.any (·.is "*") then "except_group_clause"
  else if ["elif", "else", "except", "finally", "case"].contains word then word ++ "_clause"
  else word ++ "_statement"

/-- The nodes of the header of a statement that defines nothing, given what follows its word. Patterns hold
none. -/
def headerNodes (word : String) (rest : List Piece) : List SyntaxNode :=
  readCode (if word = "case" then rest.dropWhile (!·.is "if") else rest)

/-! ### Classes -/

/-- Whether some pieces after an expression are trailers of which the last is an attribute. -/
def endsInAttribute : List Piece → Bool
  | dot :: name :: rest =>
    if dot.is "." && name.isWord then rest.isEmpty || endsInAttribute rest
    else if dot.isParens || dot.isBrackets then endsInAttribute (name :: rest)
    else false
  | _ => false

/-- Whether some pieces are an attribute of an expression. -/
def isAttribute (l : List Piece) : Bool :=
  match l with
  | [] => false
  | p :: rest =>
    let isAtom := match p with
      | .token t => p.isWord || t.kind == .literal
      | .group .. => true
    isAtom && endsInAttribute rest

/-- The node of an argument of a class. -/
def baseNode (name : Piece) (part : List Piece) : SyntaxNode :=
  match part with
  | [p] => if isName p then leaf "identifier" p else leaf "expression" p
  | p :: mark :: value =>
    if isName p && mark.is "=" then
      ⟨infoOver "keyword_argument" name part, [(leafOver "expression" mark value).inField "value"]⟩
    else if isAttribute part then leafOver "attribute" name part
    else leafOver "expression" name part
  | [] => leafOver "expression" name part

/-- The nodes of the header of a class: its name, its arguments, and the code of these. -/
def classNodes (name : Piece) (rest : List Piece) : List SyntaxNode :=
  let arguments := (rest.find? (·.isParens)).toList.map fun group : Piece =>
    (⟨{ infoOver "argument_list" group [group] with field := some "superclasses" },
      (commaParts group.inside).map (baseNode name)⟩ : SyntaxNode)
  (leaf "identifier" name).inField "name" :: arguments ++ readCode rest

/-! ### Functions -/

/-- **The node of a parameter.** Its name is what stands before its type and its default value; a lone star or
slash declares none. -/
def parameterNode? (function : Piece) (part : List Piece) : Option SyntaxNode :=
  let name := part.takeWhile fun p => !p.isAny [":", "="]
  let nameNode := fun kind => leafOver kind function name
  if name.isEmpty then none
  else if part.length = 1 ∧ name.head?.any (·.isAny ["*", "/"]) then none
  else
    match part.drop name.length with
    | [] =>
      some (nameNode
        (if name.head?.any (·.is "*") then "list_splat_pattern"
          else if name.head?.any (·.is "**") then "dictionary_splat_pattern"
          else "identifier"))
    | mark :: rest =>
      let type := (leafOver "type" mark (rest.takeWhile (!·.is "="))).inField "type"
      if mark.is "=" then some ⟨infoOver "default_parameter" function part, [(nameNode "identifier").inField "name"]⟩
      else if rest.any (·.is "=") then
        some ⟨infoOver "typed_default_parameter" function part, [(nameNode "identifier").inField "name", type]⟩
      else some ⟨infoOver "typed_parameter" function part, [nameNode "identifier", type]⟩

/-- The nodes of the header of a function: its name, its parameters, the type of its result, and the code of
these. -/
def functionNodes (name : Piece) (rest : List Piece) : List SyntaxNode :=
  let parameters := (rest.find? (·.isParens)).toList.map fun group : Piece =>
    (⟨{ infoOver "parameters" group [group] with field := some "parameters" },
      (commaParts group.inside).filterMap (parameterNode? name)⟩ : SyntaxNode)
  let result := (cutAt? "->" rest).toList.map fun (_, type) => (leafOver "type" name type).inField "return_type"
  (leaf "identifier" name).inField "name" :: parameters ++ result ++ readCode rest

/-- The node of a decorator, from the pieces of its line and what follows them. A comment on the line of a decorator
belongs to it. -/
def decoratorNode (mark : Piece) (rest : List Piece) (tail : List Char) : SyntaxNode :=
  let info := infoOver "decorator" mark (mark :: rest)
  ⟨{ info with text := info.text ++ tail }, readCode rest⟩

end CodeAtlas.Python
