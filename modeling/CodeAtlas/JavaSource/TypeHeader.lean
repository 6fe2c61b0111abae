import CodeAtlas.JavaSource.Piece

/-!
# Declarations of types

A type is declared by modifiers, a keyword, a name, and clauses up to the braces of its body. This module
makes the node of the declaration at the start of some pieces; the nodes of the body come from the readings of
its braces.
-/

namespace CodeAtlas.Java

open CodeAtlas.Piece (leaf leafOver infoOver)

/-- The sort of the type whose keyword is at the start of some pieces, and the number of pieces of the
keyword. `record` is a keyword only before a name and a list. -/
def typeKeyword? (l : List Piece) : Option (String × Nat) :=
  match l with
  | p :: q :: rest =>
    if p.is "class" then some ("class", 1)
    else if p.is "interface" then some ("interface", 1)
    else if p.is "enum" then some ("enum", 1)
    -- The mark of an annotation type is not the mark of an annotation.
    else if p.is "@" && q.is "interface" then some ("annotation_type", 2)
    else if p.is "record" && isName q && rest.head?.any (fun r => r.isParens || r.is "<") then
      some ("record", 1)
    else none
  | _ => none

/-- The pieces of a type header before its first clause, and the clauses: each keyword with the pieces up
to the next. Inside of `level` angle brackets no word starts a clause. -/
def typeClauses (level : Nat) : List Piece → List Piece × List (Piece × List Piece)
  | [] => ([], [])
  | p :: rest =>
    let inner := if p.is "<" then level + 1 else if p.is ">" then level - 1 else level
    let (run, clauses) := typeClauses inner rest
    if level = 0 ∧ p.isAny ["extends", "implements", "permits"] then ([], (p, run) :: clauses)
    else (p :: run, clauses)

/-- The node of a clause with the given keyword. An interface that extends others lists them in a clause that
stands in no field. -/
def clauseNode (sort : String) (keyword : Piece) (l : List Piece) : SyntaxNode :=
  let clause := fun kind => infoOver kind keyword (keyword :: l)
  let list : SyntaxNode := ⟨infoOver "type_list" keyword l, listEntries l⟩
  if keyword.is "extends" then
    if sort = "interface" then ⟨clause "extends_interfaces", [list]⟩
    else ⟨{ clause "superclass" with field := some "superclass" }, listEntries l⟩
  else if keyword.is "implements" then ⟨{ clause "super_interfaces" with field := some "interfaces" }, [list]⟩
  else ⟨{ clause "permits" with field := some "permits" }, [list]⟩

/-- The node of type parameters in angle brackets, if there are any. -/
def typeParametersNode (l : List Piece) : List SyntaxNode :=
  match l with
  | [] => []
  | p :: inside =>
    let closing := (inside.getLast?.map Piece.comments).getD []
    [⟨{ infoOver "type_parameters" p l with field := some "type_parameters" },
      listEntries inside.dropLast ++ closing.map commentNode⟩]

/-- A method of an annotation type is an element of it. -/
def asElement (n : SyntaxNode) : SyntaxNode :=
  if n.kind = "method_declaration" then n.withKind "annotation_type_element_declaration" else n

/-- The nodes of the body of a type. -/
def bodyNodes (sort : String) (body : Piece) : List SyntaxNode :=
  match sort with
  | "enum" => (readings body).constants
  | "annotation_type" => (readings body).members.map asElement
  | _ => (readings body).members

/-- **The type declared at the start of some pieces**, behind the comments before it, and the number of its
pieces. -/
def typeNodes? (l : List Piece) : Option (List SyntaxNode × Nat) := do
  let start ← l.head?
  let mods := (modifiers l).length
  let (sort, keywordLength) ← typeKeyword? (l.drop mods)
  let name :: rest := l.drop (mods + keywordLength) | none
  let header := rest.takeWhile fun p => !p.isBraces
  let body ← (rest.drop header.length).head?
  let argsLength := typeArgumentsLength header
  let afterArgs := header.drop argsLength
  let params := if sort = "record" then afterArgs.head?.filter Piece.isParens else none
  let clauses := (typeClauses 0 (if params.isSome then afterArgs.drop 1 else afterArgs)).2
  let length := mods + keywordLength + 1 + header.length + 1
  let children :=
    codeWithin (l.take mods ++ header)
      ++ modifiersNode start l
      ++ [(leaf "identifier" name).inField "name"]
      ++ typeParametersNode (header.take argsLength)
      ++ (params.map parametersNode).toList
      ++ clauses.map (fun (keyword, types) => clauseNode sort keyword types)
      ++ [⟨{ infoOver (sort ++ "_body") body [body] with field := some "body" }, bodyNodes sort body⟩]
  return (start.comments.map commentNode
      ++ [⟨infoOver (sort ++ "_declaration") start (l.take length), children⟩],
    length)

end CodeAtlas.Java
