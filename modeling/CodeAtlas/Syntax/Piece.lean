import CodeAtlas.Syntax.Token
import CodeAtlas.Syntax.Tree

/-!
# Tokens with their brackets matched

A `Piece` is a token, or a bracket with all up to the bracket that closes it. A group carries a *reading*
of what is between its brackets, made when the group was closed. By then the groups inside it have been
closed and read, so a reading is made from one list of pieces and never has to descend.

`Brackets` says which tokens open a group, which tokens close it and how its contents are read;
`Brackets.pieces` matches the brackets of a list of tokens.
-/

namespace CodeAtlas

/-- The node of a comment. -/
def Comment.node (kind : String) (c : Comment) : SyntaxNode :=
  ⟨{ kind
     text := c.text
     offset := c.place.offset
     firstRow := c.place.row
     lastRow := Token.endRow c.place.row c.text }, []⟩

/-- **A token or a bracketed group.** -/
inductive Piece (ρ : Type) where
  | token (t : Token)
  /-- The opening bracket, the text from bracket to bracket, the pieces in between, the closing bracket,
  and what was read between them. -/
  | group (opening : Token) (text : List Char) (inside : List (Piece ρ)) (closing : Token) (reading : ρ)

namespace Piece

variable {ρ : Type}

/-! ### Views -/

/-- The first token of a piece. -/
def first : Piece ρ → Token
  | .token t => t
  | .group opening _ _ _ _ => opening

/-- The source text of a piece. -/
def text : Piece ρ → List Char
  | .token t => t.text
  | .group _ text _ _ _ => text

/-- The source text of a piece with the blanks and comments before it. -/
def fullText (p : Piece ρ) : List Char :=
  p.first.lead ++ p.text

/-- The row in which a piece starts. -/
def row (p : Piece ρ) : Nat := p.first.place.row

/-- The row in which a piece ends. -/
def lastRow : Piece ρ → Nat
  | .token t => t.lastRow
  | .group _ _ _ closing _ => closing.lastRow

/-- The comments before a piece. -/
def comments (p : Piece ρ) : List Comment := p.first.comments

/-- Whether a piece is a token with the given text. -/
def is (p : Piece ρ) (s : String) : Bool :=
  match p with
  | .token t => t.is s
  | .group .. => false

/-- Whether a piece is a token with one of the given texts. -/
def isAny (p : Piece ρ) (l : List String) : Bool :=
  l.any p.is

/-- Whether a piece is a word. -/
def isWord : Piece ρ → Bool
  | .token t => t.kind == .word
  | .group .. => false

/-- Whether a piece is a group with the given opening bracket. -/
def opensWith (p : Piece ρ) (s : String) : Bool :=
  match p with
  | .token _ => false
  | .group opening _ _ _ _ => opening.is s

/-- Whether a piece is a group in parentheses. -/
def isParens (p : Piece ρ) : Bool := p.opensWith "("

/-- Whether a piece is a group in square brackets. -/
def isBrackets (p : Piece ρ) : Bool := p.opensWith "["

/-- Whether a piece is a group in braces. -/
def isBraces (p : Piece ρ) : Bool := p.opensWith "\x7b"

/-- The pieces of a group. -/
def inside : Piece ρ → List (Piece ρ)
  | .token _ => []
  | .group _ _ inside _ _ => inside

/-- The reading of a group. -/
def reading? : Piece ρ → Option ρ
  | .token _ => none
  | .group _ _ _ _ reading => some reading

/-! ### Stretches of source text -/

/-- The source text of a stretch of pieces. -/
def sourceText : List (Piece ρ) → List Char
  | [] => []
  | p :: rest => p.text ++ rest.flatMap Piece.fullText

/-- The row in which a stretch of pieces ends, or a given row if it is empty. -/
def lastRowOf (row : Nat) (l : List (Piece ρ)) : Nat :=
  (l.getLast?.map Piece.lastRow).getD row

/-! ### Nodes over pieces -/

/-- What a node says of itself that extends over a stretch of pieces; if there are none, it stands where a given
piece does. -/
def infoOver (kind : String) (p : Piece ρ) (l : List (Piece ρ)) : NodeInfo :=
  let start := (l.head?.getD p).first.place
  { kind, text := sourceText l, offset := start.offset, firstRow := start.row, lastRow := lastRowOf start.row l }

/-- A node over a stretch of pieces that has no children. -/
def leafOver (kind : String) (p : Piece ρ) (l : List (Piece ρ)) : SyntaxNode :=
  ⟨infoOver kind p l, []⟩

/-- A node over a piece that has no children. -/
def leaf (kind : String) (p : Piece ρ) : SyntaxNode :=
  leafOver kind p [p]

end Piece

/-! ### Matching brackets -/

/-- **Which tokens are brackets**, and how what they hold is read. -/
structure Brackets (ρ : Type) where
  /-- Whether a token opens a group, given the bracket of the innermost open one. -/
  opens : Option Token → Token → Bool
  /-- Whether the second token closes the group that the first one opens. -/
  closes : Token → Token → Bool
  /-- The reading of the pieces after an opening bracket. -/
  read : Token → List (Piece ρ) → ρ

namespace Brackets

variable {ρ : Type}

/-- A group from its brackets and the pieces between them. -/
def group (b : Brackets ρ) (opening : Token) (inside : List (Piece ρ)) (closing : Token) : Piece ρ :=
  .group opening (opening.text ++ inside.flatMap Piece.fullText ++ closing.lead ++ closing.text) inside
    closing (b.read opening inside)

/-- **The state of the matching**: the groups that are open, innermost first, each with the pieces before
it (reversed) and its bracket, and the pieces (reversed) of the innermost. -/
structure Nesting (ρ : Type) where
  outer : List (List (Piece ρ) × Token) := []
  pieces : List (Piece ρ) := []

/-- The state after a token. A closing bracket that closes nothing is a piece like any other. -/
def push (b : Brackets ρ) (n : Nesting ρ) (t : Token) : Nesting ρ :=
  if b.opens (n.outer.head?.map (·.2)) t then { outer := (n.pieces, t) :: n.outer, pieces := [] }
  else
    match n.outer with
    | (before, opening) :: outer =>
      if b.closes opening t then { outer, pieces := b.group opening n.pieces.reverse t :: before }
      else { n with pieces := .token t :: n.pieces }
    | [] => { n with pieces := .token t :: n.pieces }

/-- All pieces read, with the brackets that are still open as tokens. -/
def finish (n : Nesting ρ) : List (Piece ρ) :=
  n.outer.foldl (fun inner (before, opening) => before.reverse ++ .token opening :: inner)
    n.pieces.reverse

/-- **The pieces of some tokens.** -/
def pieces (b : Brackets ρ) (l : List Token) : List (Piece ρ) :=
  finish (l.foldl b.push {})

end Brackets

end CodeAtlas
