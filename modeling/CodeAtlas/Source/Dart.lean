import CodeAtlas.Pattern.Basic
import CodeAtlas.Source.Outline

/-!
# Dart

What a line of Dart declares: a library, a directive, a type definition, a class, a mixin, an extension,
an enumeration, a member. Types are told by a `Pattern` for their start. A member has no keyword of its
own, so its header is looked at as a whole: a parenthesis before any `=` makes it callable, the word `get`
makes it a getter, a `;` or an `=` makes it a field.
-/

namespace CodeAtlas.Dart

open Text

/-! ### Words -/

/-- The modifiers of members. -/
def memberModifiers : List String :=
  ["static", "external", "abstract", "const", "factory", "late", "final", "covariant", "var"]

/-- The keywords that are decision points. -/
def decisionWords : List (List Char) :=
  ["if", "for", "while", "catch", "case"].map String.toList

/-- The words that a parenthesis may follow without making them calls. -/
def noCalls : List (List Char) :=
  ["if", "for", "while", "switch", "catch", "return", "super", "this", "assert", "await", "throw",
    "get", "set", "operator"].map String.toList

/-- The words that start a statement and no declaration. -/
def statementWords : List String :=
  ["return", "if", "else", "for", "while", "do", "switch", "case", "default", "throw", "try", "catch",
    "finally", "await", "yield", "assert", "super", "this", "break", "continue"]

/-! ### Patterns -/

open Pattern

/-- The name of a declaration. -/
def namePattern : Pattern :=
  .seq (.one fun c => isAsciiLetter c || c == '_' || c == '$') (many (.one fun c => isWord c || c == '$'))

/-- A library directive; group 1 is the name, which may be empty. -/
def libraryPattern : Pattern :=
  all [text "library", wordEdge, blanks, .group 1 (many (.one fun c => isWord c || c == '.')), blanks,
    char ';']

/-- The start of another directive; the groups are its word and the mark of the owning library. -/
def directivePattern : Pattern :=
  all [.group 1 (anyText ["import", "export", "part"]), blanks1,
    maybe (.group 2 (.seq (text "of") wordEdge))]

/-- A quote of either kind. -/
def isQuote (c : Char) : Bool :=
  c == '\'' || c == '"'

/-- A quoted text; group 1 is what the quotes hold. -/
def quotedPattern : Pattern :=
  all [.one isQuote, .group 1 (many1 (.one (!isQuote ·))), .one isQuote]

/-- The start of a class; the groups are the modifiers and the name. -/
def classPattern : Pattern :=
  all [.group 1 (many (.seq (anyText ["abstract", "sealed", "base", "final", "interface", "mixin"])
      blanks1)),
    text "class", blanks1, .group 2 namePattern]

/-- The start of a mixin; group 1 is the name. -/
def mixinPattern : Pattern :=
  all [maybe (.seq (text "base") blanks1), text "mixin", blanks1, .group 1 namePattern]

/-- The start of an extension; the groups are the name and the type that is extended. -/
def extensionPattern : Pattern :=
  all [text "extension", blanks1,
    maybe (all [.group 1 namePattern, blanks,
      maybe (all [char '<', many (.one (· != '>')), char '>']), blanks1]),
    text "on", blanks1, .group 2 (many1 (.one (· != '\x7b')))]

/-- The start of an enumeration; group 1 is the name. -/
def enumPattern : Pattern :=
  all [text "enum", blanks1, .group 1 namePattern]

/-! ### Parts of declarations -/

/-- The words of a text as strings. -/
def wordList (s : List Char) : List String :=
  (words s).map String.ofList

/-- Words with spaces between them, or nothing. -/
def phrase? (l : List String) : Option String :=
  if l = [] then none else some (joined " " l)

/-- **A parameter.** Its name is the last word before the default value, without a mark of the field that
it sets; what stands before the name is its type. -/
def parameter? (text : List Char) : Option Parameter :=
  let decl := trim (before (· == '=') (Fragment.stripAnnotations text).2)
  let ws := (wordList decl).filter fun w => w ∉ ["required", "final", "covariant", "const"]
  ws.getLast?.map fun name =>
    { name := strippedAll "super." (strippedAll "this." name)
      typeName := phrase? ws.dropLast }

/-- A text with spaces in place of the brackets of named and optional groups. -/
def flatten (text : List Char) : List Char :=
  text.map fun c => if c == '\x7b' || c == '\x7d' || c == '[' || c == ']' then ' ' else c

/-- **The parameters of a list**, without its parentheses. -/
def parameters (text : List Char) : List Parameter :=
  (Fragment.splitTopLevel (flatten text) ',').filterMap parameter?

/-- **The clauses of a type header.** -/
structure Clauses where
  typeParameters : List String := []
  superclass : Option String := none
  mixins : List String := []
  interfaces : List String := []
  onType : Option String := none
  deriving DecidableEq, Repr

/-- The words that start a clause. -/
def clauseWords : List String :=
  ["extends", "with", "implements", "on"]

/-- The clauses of a list of words: each word that starts one, with the words up to the next. Words
before the first clause belong to none. -/
def clausesOf : List String → List (String × List String)
  | [] => []
  | w :: ws =>
    if clauseWords.contains w then
      (w, ws.takeWhile fun v => !clauseWords.contains v) :: clausesOf ws
    else clausesOf ws

/-- One clause added to what is known. -/
def Clauses.add (c : Clauses) (clause : String × List String) : Clauses :=
  let names := (Fragment.splitTopLevel (joined " " clause.2).toList ',').map fun t =>
    String.ofList (Fragment.baseTypeName t)
  let names := names.filter (· ≠ "")
  match clause.1 with
  | "extends" => { c with superclass := names.head? }
  | "with" => { c with mixins := c.mixins ++ names }
  | "implements" => { c with interfaces := c.interfaces ++ names }
  | "on" => { c with onType := names.head? }
  | _ => c

/-- **The clauses after the name of a type**, up to its body. -/
def clauses (text : List Char) : Clauses :=
  let (args, rest) := Fragment.typeArguments (trim (before (· == '\x7b') text))
  let typeParameters := (Fragment.splitTopLevel args ',').filterMap fun p => (wordList p).head?
  (clausesOf (wordList rest)).foldl Clauses.add { typeParameters }

/-- The values of an enumeration on one line. -/
def enumFields (line : Nat) (code : List Char) (owner enumName : String) : List FieldDecl :=
  (Fragment.splitTopLevel (before (fun c => c == ';' || c == '\x7d') code) ',').filterMap fun value =>
    (Fragment.leadingIdentifier? value).map fun name =>
      { name := String.ofList name
        owner := some owner
        typeName := some enumName
        modifiers := ["static", "const"]
        span := Span.single line }

/-- Whether the values of an enumeration end on a line. -/
def valuesEnd (code : List Char) : Bool :=
  code.any fun c => c == ';' || c == '\x7d'

/-- The calls of a line. -/
def lineCalls (line : SourceLine) : List CallSite :=
  Outline.callSites noCalls line.code line.number

/-- The decision points of a line: keywords, short-circuit operators and the choice of a default. -/
def lineDecisions (line : SourceLine) : Nat :=
  Fragment.decisions line.code decisionWords + countPair '?' '?' line.code

/-! ### Types -/

/-- What the start of a type says about it. -/
structure TypeHead where
  kind : TypeKind
  name : String
  modifiers : List String := []
  /-- The number of characters of the start. -/
  length : Nat := 0
  /-- The type that an extension extends. -/
  onType : Option String := none
  deriving DecidableEq, Repr

/-- The type that starts with some code. -/
def typeHead? (code : List Char) : Option TypeHead :=
  match classPattern.match? code with
  | some c =>
    some { kind := .plainClass, name := String.ofList (c.group 2), modifiers := wordList (c.group 1),
           length := c.position }
  | none =>
  match mixinPattern.match? code with
  | some c =>
    some { kind := .mixin, name := String.ofList (c.group 1),
           modifiers := if startsWith "base ".toList code then ["base"] else [], length := c.position }
  | none =>
  match extensionPattern.match? code with
  | some c =>
    let onType := String.ofList (Fragment.baseTypeName (c.group 2))
    let name := match c.group? 1 with
      | some n => String.ofList n
      | none => "_" ++ onType ++ "Extension"
    some { kind := .extension, name, onType := some onType }
  | none =>
    (enumPattern.match? code).map fun c =>
      { kind := .enum, name := String.ofList (c.group 1), length := c.position }

/-- **A type.** The values of an enumeration may start in its header. -/
def declareType (head : TypeHead) (line : SourceLine) (rest : List SourceLine) (o : Outline) :
    Outline × Nat :=
  let lines := line :: rest
  let (header, headerEnd) := SourceLine.header lines
  let header := (Fragment.stripAnnotations header).2
  let last := SourceLine.numberAt lines (SourceLine.blockEnd lines headerEnd)
  let c : Clauses :=
    if head.kind = .extension then { onType := head.onType } else clauses (header.drop head.length)
  let decl : TypeDecl :=
    { name := head.name
      kind := head.kind
      modifiers := head.modifiers
      annotations := o.annotations
      superclass := c.superclass
      interfaces := c.interfaces
      mixins := c.mixins
      onType := c.onType
      enclosing := o.owner
      typeParameters := c.typeParameters
      span := Span.new line.number last }
  -- A header that opens the body may list the first values behind the brace.
  let values := if head.kind = .enum then (cut? '\x7b' header).map (·.2) else none
  let fields := (values.map fun code =>
    enumFields (SourceLine.numberAt lines headerEnd) code decl.nestedName decl.name).getD []
  let o := (o.clearAnnotations.addType decl).addFields fields
  (o.enter lines headerEnd fun depth =>
    { name := decl.nestedName
      simpleName := decl.name
      depth
      listsValues := head.kind = .enum && !(values.any valuesEnd) }, headerEnd)

/-- A type definition; what it stands for counts as its superclass. -/
def declareAlias (code : List Char) (line : SourceLine) (o : Outline) : Outline :=
  let body := trim (stripAll "typedef".toList code)
  let name := match cut? '=' body with
    | some (left, _) => Fragment.baseTypeName left
    | none => ((words (before (· == '(') body)).getLast?.map Fragment.baseTypeName).getD []
  if name = [] then o
  else
    o.clearAnnotations.addType
      { name := String.ofList name
        kind := .typeAlias
        annotations := o.annotations
        superclass := (cut? '=' body).map fun r =>
          String.ofList (trim (dropEndWhile (· == ';') (trim r.2)))
        enclosing := o.owner
        span := Span.single line.number }

/-! ### Directives -/

/-- The alias of a directive: the word after the first `as`. -/
def localName? (code : List Char) : Option String :=
  match (wordList code).dropWhile (· ≠ "as") with
  | _ :: a :: _ => some (String.ofList (dropEndWhile (· == ';') a.toList))
  | _ => none

/-- An import, an export or a part. The path is read off the line as it stands, because the code of the
line has no string contents. -/
def declareDirective (word : String) (code : List Char) (line : SourceLine) (o : Outline) : Outline :=
  match quotedPattern.search? line.raw with
  | none => o
  | some c =>
    o.addImport
      { path := String.ofList (c.group 1)
        member := some word
        localName := localName? code
        wildcard := false
        isStatic := false
        line := line.number
        statement := String.ofList (trim line.raw) }

/-- A library directive. -/
def declareLibrary (c : Cursor) (line : SourceLine) (o : Outline) : Outline :=
  let name := String.ofList (c.group 1)
  { o with scope := if name = "" then none else some name, scopeLine := line.number }

/-! ### Members -/

/-- The kind of a member that is called. -/
def memberKind (o : Outline) : CallableKind :=
  if o.bodies.isEmpty then .function else .method

/-- **A getter without a parameter list**: the words before `get`, and its name. -/
def declareGetter (front : List String) (name : String) (lines : List SourceLine) (headerEnd : Nat)
    (o : Outline) : Outline × Nat :=
  let last := SourceLine.blockEnd lines headerEnd
  let body := lines.take (last + 1)
  let decl : CallableDecl :=
    { name
      kind := memberKind o
      owner := o.owner
      modifiers := front.filter memberModifiers.contains ++ ["get"]
      annotations := o.annotations
      returnType := phrase? (front.filter (!memberModifiers.contains ·))
      span := Span.new (SourceLine.numberAt lines 0) (SourceLine.numberAt lines last) }
  ((o.clearAnnotations.addCallable decl).addCalls (body.flatMap lineCalls), last)

/-- **Fields**: one declaration may name several, and only the first name has the type before it. -/
def declareFields (header : List Char) (line headerLine : Nat) (o : Outline) : Outline :=
  let calls := ((cut? '=' header).map fun r => Outline.callSites noCalls r.2 headerLine).getD []
  match Fragment.splitTopLevel (dropEndWhile (· == ';') header) ',' with
  | [] => o
  | first :: more =>
    let ws := wordList (trim (before (· == '=') first))
    match ws.getLast? with
    | none => o
    | some name =>
      let front := ws.dropLast
      let names := name.toList :: more.filterMap fun extra =>
        Fragment.leadingIdentifier? (before (· == '=') extra)
      let fields := (names.filter fun n => n.all isIdentifier).map fun n =>
        { name := String.ofList n
          owner := o.owner
          typeName := phrase? (front.filter (!memberModifiers.contains ·))
          modifiers := front.filter memberModifiers.contains
          annotations := o.annotations
          span := Span.single line : FieldDecl }
      (o.clearAnnotations.addFields fields).addCalls calls

/-- The words before the name of a callable, its name, and whether it is an operator. -/
def callableName? (front : List String) : Option (List String × String × Bool) :=
  if front.contains "operator" then
    let ret := front.takeWhile (· ≠ "operator")
    some (ret, "operator " ++ String.join (front.drop (ret.length + 1)), true)
  else front.getLast?.map fun name => (front.dropLast, name, false)

/-- Whether a text can be the name of a callable: identifiers, dots and type arguments. -/
def isCallableName (name : String) : Bool :=
  name.toList.all fun c => isIdentifier c || c == '.' || c == '<' || c == '>' || c == ','

/-- The modifier that the first word after the parameters gives: `async` and what is written with it. -/
def asyncModifier (tail : List Char) : List String :=
  match wordList tail with
  | w :: _ =>
    if startsWith "async".toList w.toList then
      [String.ofList (dropEndWhile (· == '\x7b') w.toList)]
    else []
  | [] => []

/-- **A function, a method or a constructor.** A constructor has the name of the type around it, and may
have a name of its own after a dot. -/
def declareCallable (header : List Char) (lines : List SourceLine) (headerEnd : Nat) (o : Outline) :
    Outline × Nat :=
  match callableName? (wordList (before (· == '(') header)) with
  | none => (o, 0)
  | some (front, written, isOperator) =>
    if !isOperator && !isCallableName written then (o.clearAnnotations, 0)
    else
      let name := String.ofList (before (· == '<') written.toList)
      let simple := String.ofList (before (· == '.') name.toList)
      -- A constructor is called like the type, or like the type and a name after a dot.
      let isConstructor := !isOperator && o.bodies.head?.any fun b =>
        b.simpleName == name || b.simpleName == simple
      let last := SourceLine.blockEnd lines headerEnd
      let isModifier := fun w => memberModifiers.contains w || w == "set"
      let closed := Fragment.closing? (header.dropWhile (· != '('))
      let tail := (closed.map (·.2)).getD []
      let decl : CallableDecl :=
        { name
          kind := if isConstructor then .constructor else memberKind o
          owner := o.owner
          modifiers := front.filter isModifier ++ asyncModifier tail
          annotations := o.annotations
          parameters := (closed.map fun r => parameters (r.1.drop 1)).getD []
          returnType := if isConstructor then none else phrase? (front.filter (!isModifier ·))
          span := Span.new (SourceLine.numberAt lines 0) (SourceLine.numberAt lines last)
          complexity := (lines.take (last + 1)).foldl (fun n l => n + lineDecisions l) 1 }
      let tailCalls := Outline.callSites noCalls tail (SourceLine.numberAt lines headerEnd)
      let bodyCalls := ((lines.take (last + 1)).drop (headerEnd + 1)).flatMap lineCalls
      ((o.clearAnnotations.addCallable decl).addCalls (tailCalls ++ bodyCalls), last)

/-- Whether a header starts a statement, or nothing that has a name. -/
def startsStatement (header : List Char) : Bool :=
  let word := header.takeWhile isIdentifier
  word.isEmpty || statementWords.contains (String.ofList word)

/-- Whether a parenthesis comes first, before any `=`. -/
def parenFirst (decl : List Char) : Bool :=
  (decl.find? fun c => c == '(' || c == '=') == some '('

/-- **A member.** The part of its header that declares ends at a body, an arrow or a semicolon. -/
def declareMember (line : SourceLine) (rest : List SourceLine) (o : Outline) : Outline × Nat :=
  let lines := line :: rest
  let (header, headerEnd) := SourceLine.header lines
  let header := trim (Fragment.stripAnnotations header).2
  let other := (o.clearAnnotations.addCalls (lineCalls line), 0)
  if startsStatement header then other
  else
    -- Past a body, an arrow or a semicolon nothing declares any more.
    let decl := beforeText "=>".toList (before (fun c => c == '\x7b' || c == ';') header)
    if parenFirst decl then declareCallable header lines headerEnd o
    else
      let ws := wordList decl
      -- A getter without parameters is told by the word before its name.
      let front := ws.takeWhile (· ≠ "get")
      match ws.drop (front.length + 1) with
      | name :: _ => declareGetter front name lines headerEnd o
      | [] =>
        if header.getLast? = some ';' ∨ decl.contains '=' then
          (declareFields header line.number (SourceLine.numberAt lines headerEnd) o, headerEnd)
        else other

/-! ### Lines -/

/-- The values of an enumeration on a line of its body. -/
def declareValues (body : OpenBody) (bodies : List OpenBody) (code : List Char) (line : SourceLine)
    (o : Outline) : Outline :=
  { o.addFields (enumFields line.number code body.name body.simpleName) with
    bodies := { body with listsValues := !valuesEnd code } :: bodies }

/-- What a line declares that is not inside the values of an enumeration. -/
def declareOther (code : List Char) (line : SourceLine) (rest : List SourceLine) (o : Outline) :
    Outline × Nat :=
  match libraryPattern.match? code with
  | some c => (declareLibrary c line o, 0)
  | none =>
  match directivePattern.match? code with
  | some c =>
    -- `part of` names the library that the file belongs to; it imports nothing.
    if (c.group? 2).isSome then (o, 0)
    else (declareDirective (String.ofList (c.group 1)) code line o, 0)
  | none =>
  if startsWith "typedef ".toList code then (declareAlias code line o, 0)
  else
  match typeHead? code with
  | some head => declareType head line rest o
  | none => declareMember line rest o

/-- **What a line declares.** -/
def declare (code : List Char) (line : SourceLine) (rest : List SourceLine) (o : Outline) :
    Outline × Nat :=
  match o.bodies with
  | body :: bodies =>
    if body.listsValues then (declareValues body bodies code line o, 0)
    else declareOther code line rest o
  | [] => declareOther code line rest o

/-- The dialect of Dart. -/
def dialect : Dialect where
  bodyCalls := lineCalls
  declare := declare

/-- **The record of a Dart source text.** -/
def record (source : List Char) : SourceRecord :=
  let o := dialect.outline source
  .dart o.scope o.scopeLine o.facts

end CodeAtlas.Dart
