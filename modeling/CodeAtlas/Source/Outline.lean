import CodeAtlas.Record.Basic
import CodeAtlas.Source.Extent
import CodeAtlas.Source.Fragment

/-!
# Declarations read line by line

Kotlin and Dart are read without a grammar. A line is looked at when it stands at the depth of a
declaration: directly in the file, or directly in the body of a type that is open. What stands deeper
belongs to the body of something else and is only searched for calls.

The walk over the lines is the same for both languages and stands here; a `Dialect` says what the code of
a line at the depth of a declaration declares. A declaration may take more lines than its first, and it
says how many.

Annotations may stand on lines of their own before a declaration. They are kept in
`Outline.annotations` until something takes them.
-/

namespace CodeAtlas

/-- **The body of a type that is open.** -/
structure OpenBody where
  /-- The nested name of the type. -/
  name : String
  /-- The name of the type itself. -/
  simpleName : String
  /-- The brace depth of the lines directly in the body. -/
  depth : Nat
  /-- Whether the body is still at the values of an enumeration. -/
  listsValues : Bool := false
  deriving DecidableEq, Repr

/-- **What has been read of a file so far.** -/
structure Outline where
  /-- The package or library that the file names. -/
  scope : Option String := none
  /-- The line on which it does. -/
  scopeLine : Nat := 0
  facts : Declarations := {}
  /-- The type bodies that are open, the innermost first. -/
  bodies : List OpenBody := []
  /-- The annotations that wait for a declaration. -/
  annotations : List String := []
  deriving DecidableEq, Repr

namespace Outline

/-- The nested name of the innermost open type. -/
def owner (o : Outline) : Option String :=
  o.bodies.head?.map (·.name)

/-- The brace depth at which declarations stand. -/
def memberDepth (o : Outline) : Nat :=
  (o.bodies.head?.map (·.depth)).getD 0

/-- The state at a line of the given depth: the bodies that reach deeper are closed. -/
def leaveTo (depth : Nat) (o : Outline) : Outline :=
  { o with bodies := o.bodies.dropWhile fun b => depth < b.depth }

/-- The state without waiting annotations. -/
def clearAnnotations (o : Outline) : Outline :=
  { o with annotations := [] }

/-- The state with one more import. -/
def addImport (o : Outline) (d : ImportDecl) : Outline :=
  { o with facts := { o.facts with imports := o.facts.imports ++ [d] } }

/-- The state with one more type. -/
def addType (o : Outline) (d : TypeDecl) : Outline :=
  { o with facts := { o.facts with types := o.facts.types ++ [d] } }

/-- The state with one more callable. -/
def addCallable (o : Outline) (d : CallableDecl) : Outline :=
  { o with facts := { o.facts with callables := o.facts.callables ++ [d] } }

/-- The state with more fields. -/
def addFields (o : Outline) (l : List FieldDecl) : Outline :=
  { o with facts := { o.facts with fields := o.facts.fields ++ l } }

/-- The calls of some code on a line, apart from the words to skip. A dot without a name before it makes
a call a method call, but is no qualifier. -/
def callSites (skip : List (List Char)) (code : List Char) (line : Nat) : List CallSite :=
  (Fragment.calls code skip).map fun (qualifier, callee) =>
    { callee := String.ofList callee
      qualifier := (qualifier.filter (· ≠ [])).map String.ofList
      line
      isMethod := qualifier.isSome }

/-- The state with more calls. -/
def addCalls (o : Outline) (l : List CallSite) : Outline :=
  { o with facts := { o.facts with calls := o.facts.calls ++ l } }

/-- The state inside the body of a type, if its header opens one. The header starts on the first of the
lines and ends at an offset. -/
def enter (o : Outline) (lines : List SourceLine) (headerEnd : Nat) (body : Nat → OpenBody) : Outline :=
  match lines.head?, lines[headerEnd]? with
  | some first, some last =>
    if first.depth < last.depthAfter then { o with bodies := body (first.depth + 1) :: o.bodies } else o
  | _, _ => o

end Outline

/-- **How the lines of a language are read.** -/
structure Dialect where
  /-- The calls of a line inside the body of something that is no type. -/
  bodyCalls : SourceLine → List CallSite
  /-- What the first of some lines declares. The code is the line without its leading annotations and
  without white space at its ends, and it is not empty. The result holds the number of lines that the
  declaration takes after its first. -/
  declare : (code : List Char) → (line : SourceLine) → (rest : List SourceLine) → Outline → Outline × Nat

namespace Dialect

/-- **One line read.** The result holds the number of lines after it that were read with it. -/
def readLine (d : Dialect) (line : SourceLine) (rest : List SourceLine) (o : Outline) : Outline × Nat :=
  let o := o.leaveTo line.depth
  -- A blank line keeps the annotations that wait.
  if line.isBlank then (o, 0)
  -- Deeper than the members: the line is inside the body of something else.
  else if line.depth ≠ o.memberDepth then (o.addCalls (d.bodyCalls line), 0)
  else
    let (annotations, code) := Fragment.stripAnnotations line.code
    let o := { o with annotations := o.annotations ++ annotations.map String.ofList }
    let code := Text.trim code
    -- A line of annotations alone leaves them to the next declaration.
    if code = [] then (o, 0) else d.declare code line rest o

/-- Lines read one after the other, of which the first `skip` have been read already. -/
def readLines (d : Dialect) : (skip : Nat) → List SourceLine → Outline → Outline
  | _, [], o => o
  | skip + 1, _ :: rest, o => readLines d skip rest o
  | 0, line :: rest, o =>
    let r := d.readLine line rest o
    readLines d r.2 rest r.1

/-- **The outline of a source text.** -/
def outline (d : Dialect) (source : List Char) : Outline :=
  d.readLines 0 (SourceLine.ofSource source) {}

end Dialect

end CodeAtlas
