import CodeAtlas.Syntax.Piece
import CodeAtlas.PythonSource.Token

/-!
# Code

The nodes of Python code that a walk through the tree looks at: calls, and marks where an operator or a clause
branches. As in any expression language a call is made on the *operand* before it, so the reading keeps the pieces
of the primary expression that it is in. Only a name and an attribute can be called here; a call of anything else
makes no node. The parts of an expression make no nodes of their own: what they hold stands directly among the
nodes around it, in the order of the source.
-/

namespace CodeAtlas.Python

/-- **A piece of a Python file.** A group is read as code. -/
abbrev Piece := CodeAtlas.Piece (List SyntaxNode)

open CodeAtlas.Piece (leaf leafOver infoOver)

/-- The nodes between the brackets of a piece. -/
def inner (p : Piece) : List SyntaxNode :=
  p.reading?.getD []

/-- Whether a piece is a word that is not reserved. -/
def isName (p : Piece) : Bool :=
  p.isWord && !p.isAny reservedWords

/-- Whether a token ends in a quote. -/
def isQuoteToken (t : Token) : Bool :=
  t.text.getLast?.any fun c => c == '"' || c == '\''

/-- Whether a piece is a string. -/
def isString (p : Piece) : Bool :=
  match p with
  | .token t => t.kind == .literal && isQuoteToken t
  | .group opening _ _ _ _ => isQuoteToken opening

/-! ### Expressions -/

/-- **The state of the reading**: the pieces of the operand, the last one first. -/
structure CodeState where
  operand : List Piece := []
  deriving Inhabited

namespace CodeState

/-- The last piece of the operand. -/
def last (s : CodeState) : Option Piece := s.operand.head?

/-- Whether the operand ends in a dot. -/
def afterDot (s : CodeState) : Bool := s.last.any (·.is ".")

/-- The state after a piece that belongs to the operand. -/
def extend (s : CodeState) (p : Piece) : CodeState := { operand := p :: s.operand }

/-- The state after a piece that starts an operand. -/
def start (p : Piece) : CodeState := { operand := [p] }

/-- Whether the operand has come to a piece on which a trailer can follow. -/
def isComplete (s : CodeState) : Bool := !s.operand.isEmpty && !s.afterDot

end CodeState

/-- The node of the call of a name, given the operand before it. -/
def callNode (s : CodeState) (p : Piece) : SyntaxNode :=
  if s.afterDot then
    let called := s.operand.reverse ++ [p]
    let object := leafOver "primary_expression" p (s.operand.drop 1).reverse
    ⟨infoOver "call" p called,
      [⟨{ infoOver "attribute" p called with field := some "function" },
        [object.inField "object", (leaf "identifier" p).inField "attribute"]⟩]⟩
  else ⟨infoOver "call" p [p], [(leaf "identifier" p).inField "function"]⟩

/-- The kind of the node that an operator or the word of a clause makes, if it branches. -/
def branchKind? (p : Piece) : Option String :=
  if p.is "if" then some "if_clause"
  else if p.isAny ["and", "or"] then some "boolean_operator"
  else none

/-- **One piece read**, given the piece after it: its nodes and the state after it. -/
def readPiece (s : CodeState) (p : Piece) (next : Option Piece) : List SyntaxNode × CodeState :=
  match p with
  | .group .. =>
    let joins := if isString p then s.last.any isString else s.isComplete
    (inner p, if joins then s.extend p else .start p)
  | .token t =>
    match branchKind? p with
    | some kind => ([leaf kind p], {})
    | none =>
      if t.is "." then ([], s.extend p)
      else if isName p then
        let nodes := if next.any (·.isParens) then [callNode s p] else []
        (nodes, if s.afterDot then s.extend p else .start p)
      else if t.kind = .literal || p.isAny ["None", "True", "False", "..."] then
        ([], if isString p && s.last.any isString then s.extend p else .start p)
      else ([], {})

/-- Pieces read from a state. -/
def readCodeFrom (s : CodeState) : List Piece → List SyntaxNode
  | [] => []
  | p :: rest =>
    let r := readPiece s p rest.head?
    r.1 ++ readCodeFrom r.2 rest

/-- **The nodes of some code.** -/
def readCode (l : List Piece) : List SyntaxNode :=
  readCodeFrom {} l

/-! ### Brackets -/

/-- Whether a token opens a group. A quote as a symbol opens a formatted string, unless one is open. -/
def isOpening (outer : Option Token) (t : Token) : Bool :=
  t.kind == .symbol
    && (t.is "(" || t.is "[" || t.is "\x7b" || (isQuoteToken t && !outer.any isQuoteToken))

/-- Whether the second token closes the group that the first one opens. -/
def isClosing (opening t : Token) : Bool :=
  t.kind == .symbol
    && (if opening.is "(" then t.is ")"
      else if opening.is "[" then t.is "]"
      else if opening.is "\x7b" then t.is "\x7d"
      else isQuoteToken t)

/-- The brackets of Python. -/
def brackets : Brackets (List SyntaxNode) where
  opens := isOpening
  closes := isClosing
  read := fun _ => readCode

/-! ### Cuts -/

/-- The parts of some pieces between the tokens with a given text. -/
def splitAt (mark : String) (run : List Piece) : List Piece → List (List Piece)
  | [] => [run.reverse]
  | p :: rest => if p.is mark then run.reverse :: splitAt mark [] rest else splitAt mark (p :: run) rest

/-- The parts of some pieces between their commas, without empty ones. -/
def commaParts (l : List Piece) : List (List Piece) :=
  (splitAt "," [] l).filter (!·.isEmpty)

/-- The two sides of the first token with a given text. -/
def cutAt? (mark : String) (l : List Piece) : Option (List Piece × List Piece) :=
  let front := l.takeWhile (!·.is mark)
  match l.drop front.length with
  | _ :: rest => some (front, rest)
  | [] => none

end CodeAtlas.Python
