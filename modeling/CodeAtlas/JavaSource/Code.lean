import CodeAtlas.JavaSource.TypeHeader

/-!
# Code

Statements and expressions are read in one pass from left to right. The reading keeps the *operand* that
it is in: the pieces of a primary expression so far, such as `a.b(c)[0]`. When a name with arguments
follows a dot, the operand up to the dot is what the call is made on.

* A name before a parenthesis is a method invocation, unless it stands in a pattern.
* `new` before a type and a parenthesis is an object creation, which holds the nodes of its arguments and of the
  class body after them.
* What follows the arrow of a lambda, up to the next comma or semicolon, stands in lambda expressions; the arrow
  of a switch rule is no lambda.
* The declaration of a type where a statement starts is a node as everywhere.
* Where a statement or an operator branches, a node of its kind stands as a mark.
-/

namespace CodeAtlas.Java

open CodeAtlas.Piece (leaf leafOver infoOver)

/-- Where in the label of a switch the reading is. -/
inductive LabelPart where
  | none
  /-- Among the patterns or constants of the label. -/
  | pattern
  /-- In the condition of the label. -/
  | guard
  deriving DecidableEq, Repr

/-- **The state of the reading.** -/
structure CodeState where
  /-- The pieces of the operand, the last one first. -/
  operand : List Piece := []
  /-- The type arguments after the dot that ends the operand, the last piece first. -/
  typeArguments : List Piece := []
  /-- The piece before. -/
  previous : Option Piece := none
  /-- Whether a statement may start here. -/
  fresh : Bool := true
  label : LabelPart := .none
  /-- Whether the reading is in the body of a lambda. -/
  quiet : Bool := false

namespace CodeState

/-- The state after a piece that is part of no operand. -/
def reset (s : CodeState) (p : Piece) : CodeState :=
  { s with operand := [], typeArguments := [], previous := some p, fresh := false }

/-- The state after a piece that continues the operand. -/
def extend (s : CodeState) (p : Piece) : CodeState :=
  { s with
    operand := p :: (s.typeArguments ++ s.operand)
    typeArguments := []
    previous := some p
    fresh := false }

/-- The state after a piece that starts an operand. -/
def start (s : CodeState) (p : Piece) : CodeState :=
  { s with operand := [p], typeArguments := [], previous := some p, fresh := false }

/-- Whether the piece before is a dot. -/
def afterDot (s : CodeState) : Bool :=
  s.previous.any (·.is ".")

/-- The state after a piece that continues the operand after a dot and starts one elsewhere. -/
def primary (s : CodeState) (p : Piece) : CodeState :=
  if s.afterDot then s.extend p else s.start p

/-- Nodes where the state lets them stand: in the body of a lambda, or directly in the code. -/
def placed (s : CodeState) (p : Piece) (nodes : List SyntaxNode) : List SyntaxNode :=
  if s.quiet then [⟨infoOver "lambda_expression" p [p], nodes⟩] else nodes

/-- What a method is called on, if the piece before its name is a dot: the operand before the dot, and before
the word `super` if that qualifies the call. -/
def object? (s : CodeState) : Option (List Piece) :=
  if s.afterDot then
    match s.operand with
    | _ :: sup :: dot :: q :: object =>
      if sup.is "super" && dot.is "." then some (q :: object).reverse
      else some (sup :: dot :: q :: object).reverse
    | _ :: object => some object.reverse
    | [] => some []
  else none

end CodeState

/-! ### Parts of expressions -/

/-- The number of pieces of a class type at the start of some pieces: names with type arguments between
dots. `skip` pieces are read already. -/
def classTypeLength (skip : Nat) : List Piece → Nat
  | [] => 0
  | p :: rest =>
    match skip with
    | skip + 1 => classTypeLength skip rest + 1
    | 0 =>
      if p.isWord || p.is "." then classTypeLength 0 rest + 1
      else if p.is "<" then
        let n := typeArgumentsLength (p :: rest)
        classTypeLength (n - 1) rest + 1
      else if p.is "@" then
        let n := (annotationLength (p :: rest)).1
        if n = 0 then 0 else classTypeLength (n - 1) rest + 1
      else 0

/-- What a `new` creates: the number of pieces between the word and the type, the type, and its
arguments. -/
structure Creation where
  before : Nat
  type : List Piece
  arguments : Option Piece
  body : Option Piece

/-- The creation whose `new` stands before some pieces. -/
def creation (l : List Piece) : Creation :=
  let noted := annotationsLength 0 l
  let args := typeArgumentsLength (l.drop noted)
  let before := noted + args + annotationsLength 0 (l.drop (noted + args))
  let type := (l.drop before).take (classTypeLength 0 (l.drop before))
  match l.drop (before + type.length) with
  | p :: rest =>
    if p.isParens then { before, type, arguments := some p, body := rest.head?.filter Piece.isBraces }
    else { before, type, arguments := none, body := none }
  | [] => { before, type, arguments := none, body := none }

/-- The number of pieces of the record pattern after `instanceof`; none if what follows is only a
type. -/
def recordPatternLength (l : List Piece) : Nat :=
  let before := (modifiers l).length
  let n := before + classTypeLength 0 (l.drop before)
  if (l.drop n).head?.any Piece.isParens then n + 1 else 0

/-- Whether a `?` is a wildcard of type arguments. -/
def isWildcard (previous next : Option Piece) : Bool :=
  previous.any (·.isAny ["<", ","]) || next.any (·.isAny [">", ",", "extends"])

/-! ### One piece -/

/-- What the reading of a piece gives: nodes, the state after it, and the number of pieces after it that
were read with it. -/
structure CodeStep where
  nodes : List SyntaxNode := []
  state : CodeState
  skip : Nat := 0

/-- A `new` read. -/
def readNew (s : CodeState) (p : Piece) (rest : List Piece) : CodeStep :=
  let c := creation rest
  let state := s.primary p
  let n := c.before + c.type.length
  match c.arguments with
  | none =>
    { state := (rest.take n).foldl CodeState.extend state, skip := n }
  | some arguments =>
    let n := n + 1 + if c.body.isSome then 1 else 0
    let type := (leafOver "type_identifier" p c.type).inField "type"
    let body := (c.body.map fun b => (readings b).members).getD []
    let noted := codeWithin (rest.take (c.before + c.type.length))
    { nodes := [⟨infoOver "object_creation_expression" p (p :: rest.take n),
        type :: (noted ++ (readings arguments).code ++ body)⟩]
      state := (rest.take n).foldl CodeState.extend state
      skip := n }

/-- The node of a method invocation with the given name. -/
def invocationNode (s : CodeState) (name : Piece) : SyntaxNode :=
  let object := s.object?.map fun l => (leafOver "primary_expression" name l).inField "object"
  ⟨infoOver "method_invocation" name ((s.object?.getD []) ++ [name]),
    object.toList ++ [(leaf "identifier" name).inField "name"]⟩

/-- A name read. In the label of a switch a name before a parenthesis is a record pattern, which holds no
code, and `when` after a pattern starts the condition. -/
def readName (s : CodeState) (p : Piece) (rest : List Piece) : CodeStep :=
  let called := rest.head?.any Piece.isParens
  if s.label = .pattern ∧ p.is "when" ∧ !s.previous.any (·.isAny ["case", ",", "."]) then
    { state := { s.reset p with label := .guard } }
  else if s.label = .pattern ∧ called then { state := s.reset p, skip := 1 }
  else if s.fresh && p.is "yield" && !rest.head?.any (·.isAny [".", "=", "::"]) then { state := s.reset p }
  else if called then { nodes := [invocationNode s p], state := s.primary p }
  else { state := s.primary p }

/-- The kind of the statement or the clause that branches at a word; a loop that ends in its condition is not
told from one that starts with it. -/
def branchKind? (p : Piece) : Option String :=
  if p.is "if" then some "if_statement"
  else if p.is "for" then some "for_statement"
  else if p.is "while" then some "while_statement"
  else if p.is "catch" then some "catch_clause"
  else none

/-- The node of a short-circuit operator. -/
def operatorNode (p : Piece) : SyntaxNode :=
  ⟨infoOver "binary_expression" p [p],
    [⟨{ infoOver (String.ofList p.text) p [p] with isNamed := false, field := some "operator" }, []⟩]⟩

/-- A token read that is neither `new` nor the start of a type. -/
def readToken (s : CodeState) (t : Token) (rest : List Piece) : CodeStep :=
  let p := Piece.token t
  let after := s.reset p
  -- A semicolon ends everything that was open, the body of a lambda too.
  if t.is ";" then { state := { previous := some p } }
  else if t.is "," then { state := { after with quiet := false } }
  else if t.is ":" then { state := { after with fresh := true, label := .none } }
  -- The arrow of a switch rule starts a statement, and that of a lambda hides what follows.
  else if t.is "->" then
    if s.label = .none then { state := { after with quiet := true } }
    else { state := { after with fresh := true, label := .none } }
  else if t.is "." then
    -- Explicit type arguments wait until it is known what they belong to.
    let n := typeArgumentsLength rest
    { state := { s.extend p with typeArguments := (rest.take n).reverse }, skip := n }
  -- The name of an annotation is no call; its arguments are read as code.
  else if t.is "@" then { state := after, skip := (annotationLength (p :: rest)).2 }
  else if t.is "case" then { nodes := [leaf "switch_label" p], state := { after with label := .pattern } }
  else if t.is "default" && rest.head?.any (·.isAny [":", "->"]) then
    -- In `case null, default` the label has been counted with its `case`.
    { nodes := if s.previous.any (·.is ",") then [] else [leaf "switch_label" p]
      state := { after with label := .pattern } }
  else if (branchKind? p).isSome then
    { nodes := (branchKind? p).toList.map fun kind => leaf kind p, state := after }
  else if p.isAny ["&&", "||"] then { nodes := [operatorNode p], state := after }
  else if t.is "?" then
    { nodes := if isWildcard s.previous rest.head? then [] else [leaf "ternary_expression" p], state := after }
  -- A record pattern looks like a call and is none.
  else if t.is "instanceof" then { state := after, skip := recordPatternLength rest }
  else if t.kind = .literal || p.isAny operandWords then { state := s.primary p }
  else if isName p then readName s p rest
  else { state := after }

/-- A group read as code. -/
def readGroup (s : CodeState) (p : Piece) : CodeStep :=
  let nodes := if s.label = .pattern then [] else s.placed p (readings p).code
  if p.isParens then
    -- Behind a name the parenthesis holds arguments and the operand goes on.
    if s.previous.any fun q => isName q || q.isAny ["this", "super"] then { nodes, state := s.extend p }
    else { nodes, state := s.start p }
  else if p.isBrackets then { nodes, state := if s.operand.isEmpty then s.start p else s.extend p }
  -- Braces behind brackets are the elements of an array.
  else if s.previous.any Piece.isBrackets then { nodes, state := s.extend p }
  else { nodes, state := { s.reset p with fresh := true } }

/-- **One piece read.** -/
def readPiece (s : CodeState) (p : Piece) (rest : List Piece) : CodeStep :=
  match p with
  | .group .. => readGroup s p
  | .token t =>
    -- Only where a statement may start can a type be declared.
    match if s.fresh then typeNodes? (p :: rest) else none with
    | some (nodes, n) => { nodes := s.placed p nodes, state := { previous := some p }, skip := n - 1 }
    | none =>
      if t.is "new" && !s.previous.any (·.is "::") then readNew s p rest else readToken s t rest

/-- Pieces read from a state, of which `skip` are read already. -/
def readCodeFrom (s : CodeState) (skip : Nat) : List Piece → List SyntaxNode
  | [] => []
  | p :: rest =>
    match skip with
    | skip + 1 => readCodeFrom s skip rest
    | 0 =>
      let r := readPiece s p rest
      r.nodes ++ readCodeFrom r.state r.skip rest

/-- **The nodes of some code.** -/
def readCode (l : List Piece) : List SyntaxNode :=
  readCodeFrom {} 0 l

end CodeAtlas.Java
