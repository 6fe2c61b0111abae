import CodeAtlas.Syntax.Piece
import CodeAtlas.JavaSource.Token

/-!
# Pieces of Java

What is between two brackets can be read in more than one way: as code, as the members of a type, as the
body of an enumeration. A group carries the nodes of each reading (`Readings`), and whoever meets a group
picks the one that its context asks for.

The rest of the module holds what declarations and code share: annotations, type arguments, modifiers, lists
of types, parameters.

The nodes are those that a walk through the tree looks at. Code in between (expressions, statements that
declare nothing) makes no nodes of its own: what it holds stands directly among the nodes around it, in the
order of the source.
-/

namespace CodeAtlas.Java

/-- **What stands between two brackets**, read in each of the ways in which it can be meant. -/
structure Readings where
  code : List SyntaxNode := []
  members : List SyntaxNode := []
  constants : List SyntaxNode := []

/-- **A piece of a Java file.** -/
abbrev Piece := CodeAtlas.Piece Readings

/-- What was read between the brackets of a piece. -/
def readings (p : Piece) : Readings :=
  p.reading?.getD {}

/-- The nodes of the code between the brackets of some pieces. In what a declaration says before its body,
only the arguments of annotations hold any. -/
def codeWithin (l : List Piece) : List SyntaxNode :=
  l.flatMap fun p => (readings p).code

/-- Whether a piece is a word that is not reserved. -/
def isName (p : Piece) : Bool :=
  p.isWord && !p.isAny reservedWords

open CodeAtlas.Piece (leaf leafOver infoOver)

/-! ### Type arguments and lists -/

/-- The number of pieces up to and with the `>` that closes `level` angle brackets. -/
def angleLength (level : Nat) : List Piece → Nat
  | [] => 0
  | p :: rest =>
    if p.is "<" then angleLength (level + 1) rest + 1
    else if p.is ">" then if level ≤ 1 then 1 else angleLength (level - 1) rest + 1
    else angleLength level rest + 1

/-- The number of pieces of the list in angle brackets at the start of some pieces. -/
def typeArgumentsLength (l : List Piece) : Nat :=
  match l with
  | p :: rest => if p.is "<" then angleLength 1 rest + 1 else 0
  | [] => 0

/-- Whether a piece may stand between the angle brackets of type arguments. -/
def isTypePiece (p : Piece) : Bool :=
  isName p || p.isBrackets || p.isParens
    || p.isAny [".", ",", "?", "&", "@", "<", ">", "extends", "super", "boolean", "byte", "char", "double",
      "float", "int", "long", "short"]

/-- The number of pieces of the type arguments at the start of some pieces of an expression; none if the
`<` there is a comparison. -/
def expressionTypeArgumentsLength (l : List Piece) : Nat :=
  let n := typeArgumentsLength l
  if (l.take n).all isTypePiece && (l.take n).getLast?.any (·.is ">") then n else 0

/-- The parts of a list at its separators, which are those outside of angle brackets. A part comes with
the comments before the separator that ends it; `run` is the part being read, reversed. -/
def splitParts (isEnd : Piece → Bool) (level : Nat) (run : List Piece) :
    List Piece → List (List Piece × List Comment)
  | [] => [(run.reverse, [])]
  | p :: rest =>
    if level = 0 ∧ isEnd p then (run.reverse, p.comments) :: splitParts isEnd 0 [] rest
    else
      let level := if p.is "<" then level + 1 else if p.is ">" then level - 1 else level
      splitParts isEnd level (p :: run) rest

/-- The parts of a list between its commas. -/
def commaParts (l : List Piece) : List (List Piece × List Comment) :=
  splitParts (·.is ",") 0 [] l

/-- The node of a comment. -/
def commentNode (c : Comment) : SyntaxNode :=
  c.node (if Text.startsWith "/*".toList c.text then "block_comment" else "line_comment")

/-- **The entries of a list of types**: each part, and the comments that stand among them. -/
def listEntries (l : List Piece) : List SyntaxNode :=
  (commaParts l).flatMap fun (part, after) =>
    match part with
    | [] => after.map commentNode
    | p :: _ => p.comments.map commentNode ++ leafOver "type_identifier" p part :: after.map commentNode

/-! ### Annotations and modifiers -/

/-- The number of pieces of a dotted name at the start of some pieces. -/
def nameLength : List Piece → Nat
  | p :: q :: rest =>
    if p.isWord then if q.is "." then 2 + nameLength rest else 1 else 0
  | [p] => if p.isWord then 1 else 0
  | [] => 0

/-- The number of pieces of the annotation at the start of some pieces, and how many of them, after the
mark, are its name. An annotation has a mark, a dotted name and possibly arguments; `@interface` is
none. -/
def annotationLength (l : List Piece) : Nat × Nat :=
  match l with
  | p :: rest =>
    let n := nameLength rest
    if p.is "@" && n ≠ 0 && !rest.head?.any (·.is "interface") then
      (n + 1 + if (rest.drop n).head?.any Piece.isParens then 1 else 0, n)
    else (0, 0)
  | [] => (0, 0)

/-- The number of pieces of the annotations at the start of some pieces, of which `skip` are read
already. -/
def annotationsLength (skip : Nat) : List Piece → Nat
  | [] => 0
  | p :: rest =>
    match skip with
    | skip + 1 => annotationsLength skip rest + 1
    | 0 =>
      let n := (annotationLength (p :: rest)).1
      if n = 0 then 0 else annotationsLength (n - 1) rest + 1

/-- The nodes of the modifiers and the annotations at the start of a declaration, and the number of their
pieces. -/
structure Modifiers where
  nodes : List SyntaxNode := []
  length : Nat := 0

/-- The node of an annotation with a name of `n` pieces after its mark. -/
def annotationNode (p : Piece) (l : List Piece) (n : Nat) : SyntaxNode :=
  ⟨infoOver "annotation" p l, [(leafOver "identifier" p ((l.drop 1).take n)).inField "name"]⟩

/-- The node of a keyword. -/
def keywordNode (p : Piece) : SyntaxNode :=
  ⟨{ infoOver (String.ofList p.text) p [p] with isNamed := false }, []⟩

/-- Whether the first of some pieces is a modifier. `sealed` is one only before another modifier or the
keyword of a type. -/
def isModifier (p : Piece) (rest : List Piece) : Bool :=
  p.isAny modifierWords
    || (p.is "sealed" && rest.head?.any fun q => q.isAny (modifierWords ++ ["class", "interface", "@"]))

/-- The modifiers at the start of some pieces, of which `skip` are read already. -/
def modifiersFrom (skip : Nat) : List Piece → Modifiers
  | [] => {}
  | p :: rest =>
    match skip with
    | skip + 1 =>
      let m := modifiersFrom skip rest
      { m with length := m.length + 1 }
    | 0 =>
      let (n, names) := annotationLength (p :: rest)
      if n ≠ 0 then
        let m := modifiersFrom (n - 1) rest
        { nodes := annotationNode p ((p :: rest).take n) names :: m.nodes, length := m.length + 1 }
      else if isModifier p rest then
        let m := modifiersFrom 0 rest
        { nodes := keywordNode p :: m.nodes, length := m.length + 1 }
      else {}

/-- The modifiers at the start of some pieces. -/
def modifiers (l : List Piece) : Modifiers :=
  modifiersFrom 0 l

/-- The list of modifiers at the start of a declaration, unless it is empty. -/
def modifiersNode (p : Piece) (l : List Piece) : List SyntaxNode :=
  let m := modifiers l
  if m.length = 0 then [] else [⟨infoOver "modifiers" p (l.take m.length), m.nodes⟩]

/-! ### Parameters -/

/-- Some pieces without the groups in square brackets at their end. -/
def dropDimensions (l : List Piece) : List Piece :=
  (l.reverse.dropWhile Piece.isBrackets).reverse

/-- The type and the name that some pieces declare, dimensions after the name aside. -/
def typeAndName? (l : List Piece) : Option (List Piece × Piece) :=
  let l := dropDimensions l
  l.getLast?.map fun name => (l.dropLast, name)

/-- The node of a parameter. One that takes a variable number of arguments has no parts of its own, and the
receiver `this` is of another kind. -/
def parameterNode? (part : List Piece) : Option SyntaxNode :=
  match part with
  | [] => none
  | p :: _ =>
    if part.any (·.is "...") then some (leafOver "spread_parameter" p part)
    else
      (typeAndName? (part.drop (modifiers part).length)).map fun (type, name) =>
        if name.is "this" then leafOver "receiver_parameter" p part
        else
          ⟨infoOver "formal_parameter" p part,
            [(leafOver "type_identifier" p type).inField "type", (leaf "identifier" name).inField "name"]⟩

/-- The node of the parameters in parentheses. -/
def parametersNode (group : Piece) : SyntaxNode :=
  ⟨{ infoOver "formal_parameters" group [group] with field := some "parameters" },
    (commaParts group.inside).filterMap fun part => parameterNode? part.1⟩

end CodeAtlas.Java
