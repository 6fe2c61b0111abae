import CodeAtlas.PythonSource.Statement

/-!
# Python

A parser of Python. The pieces of a file are cut into logical lines, and the indentation of a line says which
blocks it ends. A block is open while its lines come in; when it is closed it becomes a node of the block around
it.

A comment after the last statement of a block still belongs to the block if it is indented like it, and
then the definition reaches to the comment. The first comment that is not ends the block.

The tree has the nodes that a walk through it looks at, under the kinds and in the fields of the grammar, and
leaves out levels in between (`CodeAtlas.PythonSource.Piece`).
-/

namespace CodeAtlas.Python

open CodeAtlas.Piece (infoOver lastRowOf)

/-! ### Logical lines -/

/-- **A logical line.** The end of the file is an empty line without indentation. -/
structure Line where
  indent : Nat
  /-- The comments since the line before. -/
  comments : List Comment
  pieces : List Piece
  /-- What follows the last piece on its line: blanks, and a comment if there is one. -/
  tail : List Char

/-- Whether blanks hold the end of a line that no backslash continues. -/
def hasLineEnd : List Char → Bool
  | [] => false
  | '\\' :: '\n' :: rest => hasLineEnd rest
  | '\\' :: '\r' :: '\n' :: rest => hasLineEnd rest
  | c :: rest => c == '\n' || hasLineEnd rest

/-- Whether a piece starts a line. A comment runs to the end of its line. -/
def startsLine (p : Piece) : Bool :=
  p.first.kind == .ending || !p.first.comments.isEmpty || hasLineEnd p.first.lead

/-- The line with the given pieces, given the piece after it. -/
def makeLine (p : Piece) (rest : List Piece) (next : Option Piece) : Line :=
  let tail := (next.map fun q => Text.before (· == '\n') q.first.lead).getD []
  if p.first.kind == .ending then { indent := 0, comments := p.first.comments, pieces := [], tail }
  else { indent := p.first.place.column, comments := p.first.comments, pieces := p :: rest, tail }

/-- The lines of some pieces after a piece that starts a line; `run` holds the pieces of the line so far,
reversed. -/
def linesFrom (start : Piece) (run : List Piece) : List Piece → List Line
  | [] => [makeLine start run.reverse none]
  | p :: rest =>
    if startsLine p then makeLine start run.reverse (some p) :: linesFrom p [] rest
    else linesFrom start (p :: run) rest

/-- **The logical lines of a file.** -/
def logicalLines : List Piece → List Line
  | [] => []
  | p :: rest => linesFrom p [] rest

/-! ### Blocks -/

/-- **A compound statement up to its body**: what its node says of itself, the nodes of its header, and the decorators
before it. -/
structure Head where
  info : NodeInfo
  nodes : List SyntaxNode := []
  decorators : List SyntaxNode := []

/-- **A block whose lines are coming in.** -/
structure Block where
  head : Head
  /-- The indentation of the header. -/
  indent : Nat
  /-- The indentation of the body, once it has a line. -/
  bodyIndent : Option Nat := none
  nodes : List SyntaxNode := []
  /-- The decorators that wait for a definition. -/
  decorators : List SyntaxNode := []
  /-- The last row of the last statement. -/
  lastRow : Nat

namespace Block

/-- The last row of a block, given the comments after its last statement: those that are indented like
the block belong to it, up to the first that is not. -/
def endRow (b : Block) (comments : List Comment) : Nat :=
  match b.bodyIndent with
  | none => b.lastRow
  | some n =>
    let own := (comments.filter fun c => b.lastRow < c.place.row).takeWhile fun c => n ≤ c.place.column
    (own.getLast?.map fun c => c.place.row).getD b.lastRow

/-- **The node that a block becomes** when it ends in a row. -/
def toNode (b : Block) (lastRow : Nat) : SyntaxNode :=
  let info := { b.head.info with lastRow }
  let body : SyntaxNode := ⟨{ info with kind := "block", field := some "body" }, b.nodes⟩
  let node : SyntaxNode := ⟨info, b.head.nodes ++ [body]⟩
  match b.head.decorators with
  | [] => node
  | decorators => ⟨{ info with kind := "decorated_definition" }, decorators ++ [node.inField "definition"]⟩

/-- The block with the nodes of a line. -/
def add (b : Block) (indent : Nat) (nodes : List SyntaxNode) (lastRow : Nat) : Block :=
  { b with bodyIndent := some (b.bodyIndent.getD indent), nodes := b.nodes ++ nodes, lastRow }

/-- Whether the lines of a block are the cases of a `match`. -/
def listsCases (b : Block) : Bool := b.head.info.kind == "match_statement"

end Block

/-- The compound statement that a word opens. Only a definition takes the decorators. -/
def headOf (word : String) (start : Piece) (header : List Piece) (decorators : List SyntaxNode) : Head :=
  let rest := header.drop (if start.is "async" then 2 else 1)
  match word, rest with
  | "class", name :: rest => { info := infoOver "class_definition" start header, nodes := classNodes name rest, decorators }
  | "def", name :: rest =>
    { info := infoOver "function_definition" start header, nodes := functionNodes name rest, decorators }
  | _, _ => { info := infoOver (compoundKind word rest) start header, nodes := headerNodes word rest }

/-- **The state of the reading**: the innermost open block and the blocks around it. -/
structure Reading where
  block : Block
  outer : List Block := []

/-- The state after all blocks are closed that a line of the given indentation ends. The module itself is
never closed. -/
def closeTo (indent : Nat) (comments : List Comment) (block : Block) : List Block → Reading
  | [] => { block }
  | parent :: outer =>
    if indent ≤ block.indent then
      let last := block.endRow comments
      closeTo indent comments { parent with nodes := parent.nodes ++ [block.toNode last], lastRow := last }
        outer
    else { block, outer := parent :: outer }

/-- The state after a compound statement. A body on the line of the header is complete at once. -/
def addCompound (r : Reading) (word : String) (start : Piece) (line : Line) (last : Nat) : Reading :=
  let (header, rest) := cutHeader 0 line.pieces
  let head := headOf word start header r.block.decorators
  let parent := { r.block.add line.indent [] last with decorators := [] }
  let opened : Block := { head, indent := line.indent, lastRow := last }
  -- Nothing behind the colon: the body is on the lines that follow.
  if rest.isEmpty then { block := opened, outer := parent :: r.outer }
  else
    let body := opened.add line.indent (statementNodes rest) last
    { r with block := { parent with nodes := parent.nodes ++ [body.toNode last] } }

/-- **The state after a line.** -/
def addLine (r : Reading) (line : Line) : Reading :=
  -- The indentation decides first: it ends blocks before the line belongs to one.
  let r := closeTo line.indent line.comments r.block r.outer
  match line.pieces with
  | [] => r
  | p :: rest =>
    let last := lastRowOf p.row line.pieces
    -- A decorator waits for the definition below it.
    if p.is "@" then
      let decorators := r.block.decorators ++ [decoratorNode p rest line.tail]
      { r with block := { r.block.add line.indent [] last with decorators } }
    else
      match compoundWord? r.block.listsCases line.pieces with
      | some word => addCompound r word p line last
      | none => { r with block := r.block.add line.indent (statementNodes line.pieces) last }

/-! ### Files -/

/-- The comments before the first line of a file. -/
def commentNodes (l : List Line) : List SyntaxNode :=
  ((l.head?.map Line.comments).getD []).map (Comment.node "comment")

/-- **The tree of a Python source.** -/
def parse (source : List Char) : SyntaxTree :=
  let lines := logicalLines (brackets.pieces (lexicon.tokens source))
  let info : NodeInfo := { kind := "module", text := source, firstRow := 0, lastRow := 0 }
  let start : Reading := { block := { head := { info }, indent := 0, nodes := commentNodes lines, lastRow := 0 } }
  .ofNode ⟨info, (lines.foldl addLine start).block.nodes⟩

end CodeAtlas.Python
