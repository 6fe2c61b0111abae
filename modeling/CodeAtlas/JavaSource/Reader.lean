import CodeAtlas.JavaSource.Member

/-!
# Java

A parser of Java. The tokens of a file are grouped by their brackets, a group is read when it closes (by then the
groups inside it have been read), and the pieces that remain are the package, the imports and the types of the
file.

The tree has the nodes that a walk through it looks at, under the kinds and in the fields of the grammar, and
leaves out levels in between (`CodeAtlas.JavaSource.Piece`).
-/

namespace CodeAtlas.Java

open CodeAtlas.Piece (leaf leafOver infoOver)

/-! ### Brackets -/

/-- Whether a token is an opening bracket. -/
def isOpening (t : Token) : Bool :=
  t.kind == .symbol && (t.is "(" || t.is "[" || t.is "\x7b")

/-- The bracket that closes a given one. -/
def closingOf (opening : Token) : String :=
  if opening.is "(" then ")" else if opening.is "[" then "]" else "\x7d"

/-- The readings of what stands between two brackets. Only braces hold members. -/
def readingsOf (opening : Token) (inside : List Piece) : Readings :=
  if opening.is "\x7b" then
    { code := readCode inside, members := readMembers inside, constants := readConstants inside }
  else { code := readCode inside }

/-- The brackets of Java. -/
def brackets : Brackets Readings where
  opens := fun _ => isOpening
  closes := fun opening t => t.kind == .symbol && t.is (closingOf opening)
  read := readingsOf

/-! ### Files -/

/-- The node of a package directive, whose keyword comes behind `noted` pieces. -/
def packageNode (start : Piece) (l : List Piece) (noted : Nat) : SyntaxNode :=
  ⟨infoOver "package_declaration" start l,
    [leafOver "scoped_identifier" start ((l.drop (noted + 1)).takeWhile fun p => !p.is ";")]⟩

/-- The node of an import directive: the pieces from the keyword to the semicolon. -/
def importNode (keyword : Piece) (l : List Piece) : SyntaxNode :=
  let static := (l.drop 1).takeWhile (·.is "static")
  let path := (l.drop (1 + static.length)).takeWhile fun p => !p.is ";"
  let asterisk := (path.drop (path.length - 1)).takeWhile (·.is "*")
  ⟨infoOver "import_declaration" keyword l,
    static.map (leaf "static")
      ++ [leafOver "scoped_identifier" keyword (if asterisk.isEmpty then path else path.dropLast.dropLast)]
      ++ asterisk.map (leaf "asterisk")⟩

/-- Whether some pieces start the declaration of a module. -/
def startsModule (l : List Piece) : Bool :=
  match l with
  | p :: q :: _ => (p.is "module" && isName q) || (p.is "open" && q.is "module")
  | _ => false

/-- A variable outside of all types is no field. -/
def asTopLevel (n : SyntaxNode) : SyntaxNode :=
  if n.kind = "field_declaration" then n.withKind "local_variable_declaration" else n

/-- **What stands at the start of a file**, and the number of its pieces. -/
def unitStep (p : Piece) (rest : List Piece) : List SyntaxNode × Nat :=
  let l := p :: rest
  let noted := annotationsLength 0 l
  let unnoted := l.drop noted
  if unnoted.head?.any (·.is "package") then
    let n := noted + toSemicolon unnoted
    ([packageNode p (l.take n) noted], n)
  else if p.is "import" then
    let n := toSemicolon l
    ([importNode p (l.take n)], n)
  else if startsModule unnoted then ([], noted + toMethodEnd unnoted)
  else
    let (nodes, n) := memberStep p rest
    (nodes.map asTopLevel, n)

/-- The nodes of a file, of which `skip` pieces are read already. -/
def readUnitFrom (skip : Nat) : List Piece → List SyntaxNode
  | [] => []
  | p :: rest =>
    match skip with
    | skip + 1 => readUnitFrom skip rest
    | 0 =>
      let (nodes, n) := unitStep p rest
      nodes ++ readUnitFrom (n - 1) rest

/-- **The tree of a Java source.** -/
def parse (source : List Char) : SyntaxTree :=
  let pieces := brackets.pieces ((lexicon.tokens source).filter fun t => t.kind ≠ .ending)
  .ofNode ⟨{ kind := "program", text := source, firstRow := 0, lastRow := 0 }, readUnitFrom 0 pieces⟩

end CodeAtlas.Java
