import CodeAtlas.Pattern.Basic
import CodeAtlas.Source.Outline

/-!
# Kotlin

What a line of Kotlin declares: a package, an import, a type alias, a type, a function or a property.
The shape of the start of a declaration is given by a `Pattern`; what follows it (type parameters, the
primary constructor, supertypes, parameters) is cut apart by the functions of `Fragment`.
-/

namespace CodeAtlas.Kotlin

open Text

/-! ### Words -/

/-- The modifiers of declarations. -/
def modifierWords : List String :=
  ["public", "private", "protected", "internal", "abstract", "open", "final", "sealed", "data", "enum",
    "annotation", "inner", "value", "inline", "expect", "actual", "external", "companion", "override",
    "suspend", "operator", "infix", "tailrec", "lateinit", "const", "crossinline", "noinline", "vararg"]

/-- The keywords that are decision points. -/
def decisionWords : List (List Char) :=
  ["if", "for", "while", "catch"].map String.toList

/-- The words that a parenthesis may follow without making them calls. -/
def noCalls : List (List Char) :=
  ["if", "for", "while", "when", "catch", "return", "fun", "constructor", "init", "throw", "super",
    "this", "object", "class", "interface", "get", "set"].map String.toList

/-! ### Patterns -/

open Pattern

/-- A character of a dotted name. -/
def isPathChar (c : Char) : Bool :=
  isWord c || c == '.'

/-- A character that may start the name of a declaration. -/
def isNameStart (c : Char) : Bool :=
  isAsciiLetter c || c == '_'

/-- The name of a declaration. -/
def namePattern : Pattern :=
  .seq (.one isNameStart) (many (.one isWord))

/-- Modifiers, each followed by white space, as group 1. -/
def modifiersPattern (words : List String) : Pattern :=
  .group 1 (many (.seq (anyText words) blanks1))

/-- A list of type parameters, without nesting, and white space after it. -/
def typeParametersPattern : Pattern :=
  maybe (all [char '<', many (.one (· != '>')), char '>', blanks])

/-- A package directive; group 1 is the package. -/
def packagePattern : Pattern :=
  all [text "package", blanks1, .group 1 (many1 (.one isPathChar))]

/-- An import directive; the groups are the path, the mark of a wildcard and the alias. -/
def importPattern : Pattern :=
  all [text "import", blanks1, .group 1 (few1 (.one isPathChar)), maybe (.group 2 (text ".*")),
    maybe (all [blanks1, text "as", blanks1, .group 3 (many1 (.one isWord))]),
    blanks, maybe (char ';'), blanks, atEnd]

/-- The start of a type; the groups are the modifiers, the keyword and the name. -/
def typePattern : Pattern :=
  all [modifiersPattern (modifierWords ++ ["fun"]), .group 2 (anyText ["class", "interface", "object"]),
    wordEdge, blanks, maybe (.group 3 namePattern)]

/-- The start of a type alias; the groups are the modifiers and the name. -/
def aliasPattern : Pattern :=
  all [modifiersPattern modifierWords, text "typealias", blanks1, .group 2 namePattern]

/-- A character of the receiver of an extension function. -/
def isReceiverChar (c : Char) : Bool :=
  isWord c || ['.', '<', '>', '?', ',', ' ', '*'].contains c

/-- The start of a function up to its parameters; the groups are the modifiers, the receiver and the
name. -/
def functionPattern : Pattern :=
  all [modifiersPattern modifierWords, text "fun", blanks1, typeParametersPattern,
    maybe (.seq (.group 2 (few1 (.one isReceiverChar))) (char '.')),
    .group 3 (.alt namePattern (all [char '\x60', many1 (.one (· != '\x60')), char '\x60'])),
    blanks, char '(']

/-- A character of the receiver of an extension property. -/
def isPropertyReceiverChar (c : Char) : Bool :=
  isWord c || ['.', '<', '>', '?'].contains c

/-- A property up to its value; the groups are the modifiers, the keyword, the receiver, the name and the
type. -/
def propertyPattern : Pattern :=
  all [modifiersPattern modifierWords, .group 2 (anyText ["val", "var"]), blanks1, typeParametersPattern,
    maybe (.seq (.group 3 (few1 (.one isPropertyReceiverChar))) (char '.')),
    .group 4 namePattern, blanks,
    maybe (all [char ':', blanks, .group 5 (few1 (.one (· != '=')))]), blanks,
    any [char '=', all [wordEdge, text "by", wordEdge], atEnd]]

/-! ### Parts of declarations -/

/-- The words of a text as strings. -/
def wordList (s : List Char) : List String :=
  (words s).map String.ofList

/-- **A parameter and its keyword**, if the parameter also declares a property. Of the words before the
type the last one that is no keyword is the name; a parameter without a name is none. -/
def parameter? (text : List Char) : Option (Parameter × Option String) :=
  -- Neither the annotations nor the default value belong to the name and the type.
  let decl := trim (before (· == '=') (Fragment.stripAnnotations text).2)
  let (names, typeName) :=
    match cut? ':' decl with
    | some (n, t) => (n, some (String.ofList (trim t)))
    | none => (decl, none)
  let isKeyword := fun w => w == "val" || w == "var"
  let ws := wordList names
  (ws.filter (!isKeyword ·)).getLast?.map fun name =>
    ({ name, typeName }, (ws.filter isKeyword).getLast?)

/-- **The parameters of a list**, without its parentheses. -/
def parameters (text : List Char) : List (Parameter × Option String) :=
  (Fragment.splitTopLevel text ',').filterMap parameter?

/-- The name of a type parameter, without its variance and its bound. -/
def typeParameterName? (text : List Char) : Option String :=
  (((pieces (fun c => c == ':' || c == ' ') text).map String.ofList).filter fun s =>
    s ≠ "" && s ∉ ["in", "out", "reified"]).head?

/-- **What follows the name of a type.** -/
structure TypeTail where
  typeParameters : List String := []
  superclass : Option String := none
  interfaces : List String := []
  /-- The properties that the primary constructor declares, with their keywords. -/
  properties : List (Parameter × String) := []
  deriving DecidableEq, Repr

/-- A text without one of some words at its start, each tried once and in the given order. -/
def dropWords (ws : List String) (text : List Char) : List Char :=
  ws.foldl (fun s w => ((stripPrefix? w.toList s).map trimStart).getD s) text

/-- The parameters of a primary constructor, between its parentheses, and what follows them. -/
def primaryConstructor? (text : List Char) : Option (List Char × List Char) :=
  let ctor := dropWords ["private", "protected", "internal", "public", "constructor"]
    (Fragment.stripAnnotations text).2
  match ctor with
  | '(' :: _ => (Fragment.closing? ctor).map fun r => (r.1.drop 1, trimStart r.2)
  | _ => none

/-- One entry of a list of supertypes added to what is known: a constructor call marks the superclass,
and the first one counts. -/
def addSupertype (t : TypeTail) (entry : List Char) : TypeTail :=
  let entry := (Fragment.stripAnnotations (trim (beforeText " by ".toList entry))).2
  let name := String.ofList (Fragment.baseTypeName entry)
  if name = "" then t
  else if entry.contains '(' ∧ t.superclass.isNone then { t with superclass := some name }
  else { t with interfaces := t.interfaces ++ [name] }

/-- **The tail of a type header** taken apart. -/
def typeTail (text : List Char) : TypeTail :=
  let (args, rest) := Fragment.typeArguments (trimStart text)
  let rest := trimStart rest
  let typeParameters := (Fragment.splitTopLevel args ',').filterMap typeParameterName?
  let (properties, rest) :=
    match primaryConstructor? rest with
    | some (params, after) =>
      ((parameters params).filterMap fun (p, keyword) => keyword.map fun k => (p, k), after)
    | none => ([], rest)
  let tail : TypeTail := { typeParameters, properties }
  match rest with
  | ':' :: supers =>
    -- The list of supertypes ends at the constraints or at the body.
    (Fragment.splitTopLevel (beforeText " where ".toList (before (· == '{') supers)) ',').foldl
      addSupertype tail
  | _ => tail

/-- The kind of a type with the given keyword and modifiers. -/
def typeKind (keyword : String) (modifiers : List String) : TypeKind :=
  if keyword = "interface" then .interface
  else if keyword = "object" then .object
  else if modifiers.contains "data" then .dataClass
  else if modifiers.contains "sealed" then .sealedClass
  else if modifiers.contains "enum" then .enum
  else if modifiers.contains "annotation" then .annotationType
  else .plainClass

/-- The result type after the parameters of a function. -/
def returnType? (afterParameters : List Char) : Option String :=
  match trimStart afterParameters with
  | ':' :: ret =>
    let ret := trim (beforeText " where ".toList (before (fun c => c == '{' || c == '=') ret))
    if ret = [] then none else some (String.ofList ret)
  | _ => none

/-- The decision points of a line: keywords, short-circuit operators and the choice of a default. -/
def lineDecisions (line : SourceLine) : Nat :=
  Fragment.decisions line.code decisionWords + countPair '?' ':' line.code

/-- The calls of a line. A line that starts a function has none: its parentheses hold parameters. -/
def lineCalls (line : SourceLine) : List CallSite :=
  if functionPattern.startsIn (trim (Fragment.stripAnnotations line.code).2) then []
  else Outline.callSites noCalls line.code line.number

/-! ### Declarations -/

/-- The name of the type at the start of a header; a companion object needs none. -/
def typeName? (c : Cursor) (modifiers : List String) : Option String :=
  match c.group? 3 with
  | some name => some (String.ofList name)
  | none => if modifiers.contains "companion" then some "Companion" else none

/-- **A type.** -/
def declareType (line : SourceLine) (rest : List SourceLine) (o : Outline) : Outline × Nat :=
  let lines := line :: rest
  let (header, headerEnd) := SourceLine.header lines
  match typePattern.match? (Fragment.stripAnnotations header).2 with
  | none => (o, 0)
  | some c =>
    let modifiers := wordList (c.group 1)
    match typeName? c modifiers with
    | none => (o, 0)
    | some name =>
      let tail := typeTail c.rest
      let last := SourceLine.numberAt lines (SourceLine.blockEnd lines headerEnd)
      let decl : TypeDecl :=
        { name
          kind := typeKind (String.ofList (c.group 2)) modifiers
          modifiers
          annotations := o.annotations
          superclass := tail.superclass
          interfaces := tail.interfaces
          enclosing := o.owner
          typeParameters := tail.typeParameters
          span := Span.new line.number last }
      let fields := tail.properties.map fun (p, keyword) =>
        { name := p.name
          owner := some decl.nestedName
          typeName := p.typeName
          modifiers := [keyword]
          span := Span.single line.number : FieldDecl }
      let o := ((o.clearAnnotations.addFields fields).addType decl)
      (o.enter lines headerEnd fun depth =>
        { name := decl.nestedName, simpleName := name, depth }, headerEnd)

/-- **A function.** Its calls are those after its parameters and those of the lines of its body. -/
def declareFunction (line : SourceLine) (rest : List SourceLine) (o : Outline) : Outline × Nat :=
  let lines := line :: rest
  let (header, headerEnd) := SourceLine.header lines
  match functionPattern.match? (Fragment.stripAnnotations header).2 with
  | none => (o, 0)
  | some c =>
    let receiver := (c.group? 2).map fun r => String.ofList (trim r)
    let isQuote := fun c : Char => c == '\x60'
    let closed := Fragment.closing? ('(' :: c.rest)
    let last := SourceLine.blockEnd lines headerEnd
    let decl : CallableDecl :=
      { name := String.ofList (dropEndWhile isQuote ((c.group 3).dropWhile isQuote))
        kind :=
          if receiver.isSome then .extensionFunction else if o.owner.isSome then .method else .function
        owner := o.owner
        receiver
        modifiers := wordList (c.group 1)
        annotations := o.annotations
        parameters := ((closed.map fun r => parameters (r.1.drop 1)).getD []).map (·.1)
        returnType := closed.bind fun r => returnType? r.2
        span := Span.new line.number (SourceLine.numberAt lines last)
        complexity := (lines.take (last + 1)).foldl (fun n l => n + lineDecisions l) 1 }
    -- What follows the parameters on the lines of the header may already be the body.
    let tailCalls := (closed.map fun r =>
      Outline.callSites noCalls r.2 (SourceLine.numberAt lines headerEnd)).getD []
    let bodyCalls := ((lines.take (last + 1)).drop (headerEnd + 1)).flatMap lineCalls
    ((o.clearAnnotations.addCallable decl).addCalls (tailCalls ++ bodyCalls), last)

/-- A package directive. -/
def declarePackage (c : Cursor) (line : SourceLine) (o : Outline) : Outline :=
  { o with scope := some (String.ofList (c.group 1)), scopeLine := line.number }

/-- An import directive. -/
def declareImport (c : Cursor) (line : SourceLine) (o : Outline) : Outline :=
  o.addImport
    { path := String.ofList (c.group 1)
      member := none
      localName := (c.group? 3).map String.ofList
      wildcard := (c.group? 2).isSome
      isStatic := false
      line := line.number
      statement := String.ofList (trim line.raw) }

/-- A type alias; what it stands for counts as its superclass. -/
def declareAlias (c : Cursor) (code : List Char) (line : SourceLine) (o : Outline) : Outline :=
  o.clearAnnotations.addType
    { name := String.ofList (c.group 2)
      kind := .typeAlias
      modifiers := wordList (c.group 1)
      annotations := o.annotations
      superclass := (cut? '=' code).map fun r => String.ofList (trim r.2)
      enclosing := o.owner
      span := Span.single line.number }

/-- A property. -/
def declareProperty (c : Cursor) (line : SourceLine) (o : Outline) : Outline :=
  (o.clearAnnotations.addFields
    [{ name := String.ofList (c.group 4)
       owner := o.owner
       typeName := (c.group? 5).map fun t => String.ofList (trim (beforeText " get".toList t))
       modifiers := wordList (c.group 1) ++ [String.ofList (c.group 2)]
       annotations := o.annotations
       receiver := (c.group? 3).map String.ofList
       span := Span.single line.number }]).addCalls (lineCalls line)

/-- **What a line declares.** A line that declares nothing drops the annotations that wait. -/
def declare (code : List Char) (line : SourceLine) (rest : List SourceLine) (o : Outline) :
    Outline × Nat :=
  match packagePattern.match? code with
  | some c => (declarePackage c line o, 0)
  | none =>
  match importPattern.match? code with
  | some c => (declareImport c line o, 0)
  | none =>
  match aliasPattern.match? code with
  | some c => (declareAlias c code line o, 0)
  | none =>
  if typePattern.startsIn code then declareType line rest o
  else if functionPattern.startsIn code then declareFunction line rest o
  else
  match propertyPattern.match? code with
  | some c => (declareProperty c line o, 0)
  | none => (o.clearAnnotations.addCalls (lineCalls line), 0)

/-- The dialect of Kotlin. -/
def dialect : Dialect where
  bodyCalls := lineCalls
  declare := declare

/-- **The record of a Kotlin source text.** -/
def record (source : List Char) : SourceRecord :=
  let o := dialect.outline source
  .kotlin o.scope o.scopeLine o.facts

end CodeAtlas.Kotlin
