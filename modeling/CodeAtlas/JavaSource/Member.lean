import CodeAtlas.JavaSource.Code

/-!
# Members

The members of a type: nested types, methods and constructors, fields, initialiser blocks. What follows
the modifiers and type parameters of a member decides: a parenthesis makes it a method or a constructor,
braces a compact constructor, and anything else is a declaration of fields.

A body of an enumeration lists its constants first, and its members after a semicolon.
-/

namespace CodeAtlas.Java

open CodeAtlas.Piece (leaf leafOver infoOver)

/-! ### Methods and constructors -/

/-- The number of pieces up to and with the body or the semicolon that ends a method. -/
def toMethodEnd : List Piece → Nat
  | [] => 0
  | p :: rest => if p.isBraces || p.is ";" then 1 else toMethodEnd rest + 1

/-- The number of pieces up to and with the semicolon that ends a declaration. -/
def toSemicolon : List Piece → Nat
  | [] => 0
  | p :: rest => if p.is ";" then 1 else toSemicolon rest + 1

/-- The number of pieces after the parameters of a method. The default value of an annotation element
may hold braces, so an element ends at its semicolon. -/
def methodTailLength (l : List Piece) : Nat :=
  let n := toMethodEnd l
  if (l.take n).any (·.is "default") then toSemicolon l else n

/-- **The node of a method or a constructor** over some pieces, whose name comes behind the type of its result or
behind nothing. `noted` is the code in what the declaration says before its body. -/
def callableNode (start : Piece) (l : List Piece) (kind : String) (type : List Piece) (name : Piece)
    (params body : Option Piece) (noted : List SyntaxNode) : SyntaxNode :=
  let typeNode := if type.isEmpty then [] else [(leafOver "type_identifier" name type).inField "type"]
  let bodyNode := body.toList.map fun b : Piece =>
    (⟨{ infoOver "block" b [b] with field := some "body" }, (readings b).code⟩ : SyntaxNode)
  ⟨infoOver kind start l,
    noted ++ modifiersNode start l ++ typeNode ++ [(leaf "identifier" name).inField "name"]
      ++ (params.map parametersNode).toList ++ bodyNode⟩

/-! ### Fields -/

/-- The pieces of an initialiser up to the comma or semicolon that ends it; `skip` pieces are read
already. Commas between type arguments end nothing. -/
def initialiserLength (skip : Nat) : List Piece → Nat
  | [] => 0
  | p :: rest =>
    match skip with
    | skip + 1 => initialiserLength skip rest + 1
    | 0 =>
      if p.is "," || p.is ";" then 0
      else initialiserLength (expressionTypeArgumentsLength (p :: rest) - 1) rest + 1

/-- The declarators of a declaration of fields: the pieces of each and of its initialiser, and whether
the first is still to come. `skip` pieces are read already; `run` is the declarator being read,
reversed. -/
def declarators (skip : Nat) (run : List Piece) : List Piece → List (List Piece × List Piece)
  | [] => []
  | p :: rest =>
    match skip with
    | skip + 1 => declarators skip run rest
    | 0 =>
      if p.is ";" then [(run.reverse, [])]
      else if p.is "," then (run.reverse, []) :: declarators 0 [] rest
      else if p.is "=" then
        let n := initialiserLength 0 rest
        (run.reverse, rest.take n) :: declarators (n + 1) [] rest
      else if p.is "<" then
        let n := typeArgumentsLength (p :: rest)
        declarators (n - 1) (((p :: rest).take n).reverse ++ run) rest
      else declarators 0 (p :: run) rest

/-- The node of a declarator with its name and the nodes of its initialiser. -/
def declaratorNode (name : Piece) (init : List Piece) : SyntaxNode :=
  ⟨{ infoOver "variable_declarator" name (name :: init) with field := some "declarator" },
    (leaf "identifier" name).inField "name" :: readCode init⟩

/-- **The node of a declaration of fields.** The first declarator holds the type; `noted` is the code before
it. -/
def fieldNode? (start : Piece) (l rest : List Piece) (noted : List SyntaxNode) : Option SyntaxNode :=
  match declarators 0 [] rest with
  | [] => none
  | (first, init) :: more =>
    (typeAndName? first).map fun (type, name) =>
      let declared := (name, init) :: more.filterMap fun (d, i) => (typeAndName? d).map fun (_, n) => (n, i)
      ⟨infoOver "field_declaration" start l,
        noted ++ modifiersNode start l ++ codeWithin first
          ++ [(leafOver "type_identifier" name type).inField "type"]
          ++ declared.map fun (n, i) => declaratorNode n i⟩

/-! ### Members of a type -/

/-- The number of pieces before the one that decides what a member is; `skip` pieces are read already. -/
def memberHeadLength (skip : Nat) : List Piece → Nat
  | [] => 0
  | p :: rest =>
    match skip with
    | skip + 1 => memberHeadLength skip rest + 1
    | 0 =>
      if p.isParens || p.isBraces || p.isAny ["=", ",", ";"] then 0
      else if p.is "<" then memberHeadLength (typeArgumentsLength (p :: rest) - 1) rest + 1
      else if p.is "@" then memberHeadLength ((annotationLength (p :: rest)).1 - 1) rest + 1
      else memberHeadLength 0 rest + 1

/-- **The member at the start of some pieces** that is no type and no block, behind the comments before it, and
the number of its pieces. -/
def memberNodes (l : List Piece) : List SyntaxNode × Nat :=
  match l with
  | [] => ([], 0)
  | start :: _ =>
    let mods := (modifiers l).length
    let generics := typeArgumentsLength (l.drop mods)
    let before := mods + generics + annotationsLength 0 (l.drop (mods + generics))
    let noted := codeWithin (l.take before)
    let rest := l.drop before
    let head := rest.take (memberHeadLength 0 rest)
    let comments := start.comments.map commentNode
    match head.getLast?, rest.drop head.length with
    | some name, mark :: tail =>
      -- A parenthesis: a method, or a constructor if nothing stands before its name.
      if mark.isParens then
        let tail := tail.take (methodTailLength tail)
        let n := before + head.length + 1 + tail.length
        let type := head.dropLast
        let kind := if type.isEmpty then "constructor_declaration" else "method_declaration"
        let noted := noted ++ codeWithin (head ++ mark :: tail.dropLast)
        (comments ++ [callableNode start (l.take n) kind type name (some mark)
          (tail.getLast?.filter Piece.isBraces) noted], n)
      -- Braces behind a name: the compact constructor of a record.
      else if mark.isBraces then
        let n := before + head.length + 1
        (comments ++ [callableNode start (l.take n) "compact_constructor_declaration" [] name none (some mark)
          noted], n)
      else
        let n := toSemicolon rest
        ((fieldNode? start (l.take (before + n)) (rest.take n) noted).toList, before + n)
    | _, _ => ([], 1)

/-- **What stands at the start of the members of a type**, and the number of its pieces. -/
def memberStep (p : Piece) (rest : List Piece) : List SyntaxNode × Nat :=
  if p.is ";" then ([], 1)
  else if p.isBraces then ((readings p).code, 1)
  else
    match rest with
    | q :: _ =>
      if p.is "static" && q.isBraces then ((readings q).code, 2)
      else (typeNodes? (p :: rest)).getD (memberNodes (p :: rest))
    | [] => ([], 1)

/-- The nodes of members, of which `skip` pieces are read already. -/
def readMembersFrom (skip : Nat) : List Piece → List SyntaxNode
  | [] => []
  | p :: rest =>
    match skip with
    | skip + 1 => readMembersFrom skip rest
    | 0 =>
      let (nodes, n) := memberStep p rest
      nodes ++ readMembersFrom (n - 1) rest

/-- **The nodes of the members of a type.** -/
def readMembers (l : List Piece) : List SyntaxNode :=
  readMembersFrom 0 l

/-! ### Bodies of enumerations -/

/-- The node of a constant of an enumeration, which holds the nodes of its arguments and of its body. -/
def constantNode? (part : List Piece) : Option SyntaxNode :=
  let mods := (modifiers part).length
  match part, part.drop mods with
  | start :: _, name :: rest =>
    some ⟨infoOver "enum_constant" start part,
      (leaf "identifier" name).inField "name" :: codeWithin (part.take mods)
        ++ rest.flatMap fun p => if p.isBraces then (readings p).members else (readings p).code⟩
  | _, _ => none

/-- **The nodes of the body of an enumeration.** -/
def readConstants (l : List Piece) : List SyntaxNode :=
  let listed := l.takeWhile fun p => !p.is ";"
  (commaParts listed).filterMap (fun part => constantNode? part.1)
    ++ readMembers (l.drop (listed.length + 1))

end CodeAtlas.Java
