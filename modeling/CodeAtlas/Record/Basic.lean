import CodeAtlas.Path
import CodeAtlas.Json.Basic

/-!
# What is known about one source file

A reader turns the text of a file into a `SourceRecord`: plain data about its imports, declarations and
calls. The record says nothing about the graph; what becomes a node or an edge is decided later.

All languages share the shape of their declarations (`Declarations`) and differ in the scope that a file
names: a package, a library or a module.
-/

namespace CodeAtlas

/-! ### Spans -/

/-- **The lines of a declaration**, from the first to the last, counted from one. -/
structure Span where
  first : Nat
  last : Nat
  deriving DecidableEq, Repr

namespace Span

/-- The span between two lines; it never ends before it starts. -/
def new (first last : Nat) : Span := ⟨first, max last first⟩

/-- The span of one line. -/
def single (line : Nat) : Span := new line line

/-- Whether a line lies in the span. -/
def contains (s : Span) (line : Nat) : Bool :=
  s.first ≤ line && line ≤ s.last

/-- The number of lines of a span. -/
def len (s : Span) : Nat := s.last - s.first + 1

/-- Whether the span was never set: lines are counted from one. -/
def isEmpty (s : Span) : Bool := s.first == 0

theorem first_le_last_new (first last : Nat) : (new first last).first ≤ (new first last).last :=
  Nat.le_max_right last first

end Span

/-! ### Declarations -/

/-- **An import directive.** -/
structure ImportDecl where
  /-- The imported path as written. -/
  path : String
  /-- The imported member, or the word of the directive. -/
  member : Option String
  /-- The name that the importing file gives to what it imports. -/
  localName : Option String
  wildcard : Bool
  isStatic : Bool
  line : Nat
  /-- The source text of the directive. -/
  statement : String
  deriving DecidableEq, Repr

/-- The kind of a type declaration, as it is written in the source. -/
inductive TypeKind where
  | plainClass
  | dataClass
  | sealedClass
  | interface
  | object
  | enum
  | record
  | annotationType
  | typeAlias
  | mixin
  | extension
  deriving DecidableEq, Repr

namespace TypeKind

/-- Every kind of type declaration. -/
def all : List TypeKind :=
  [plainClass, dataClass, sealedClass, interface, object, enum, record, annotationType, typeAlias,
    mixin, extension]

/-- The tag of a kind in records. -/
def tag : TypeKind → String
  | plainClass => "class"
  | dataClass => "data_class"
  | sealedClass => "sealed_class"
  | interface => "interface"
  | object => "object"
  | enum => "enum"
  | record => "record"
  | annotationType => "annotation"
  | typeAlias => "type_alias"
  | mixin => "mixin"
  | extension => "extension"

/-- The kind with the given tag. -/
def ofTag? (s : String) : Option TypeKind :=
  all.find? fun k => k.tag == s

end TypeKind

/-- **A declaration of a type.** -/
structure TypeDecl where
  name : String
  kind : TypeKind
  modifiers : List String := []
  annotations : List String := []
  superclass : Option String := none
  /-- The interfaces, or all supertypes where the language makes no difference. -/
  interfaces : List String := []
  mixins : List String := []
  /-- The type that an extension or a mixin is declared on. -/
  onType : Option String := none
  /-- The nested name of the type around this one. -/
  enclosing : Option String := none
  typeParameters : List String := []
  span : Span
  doc : Option String := none
  deriving DecidableEq, Repr

namespace TypeDecl

/-- Whether the declaration has a modifier. -/
def hasModifier (d : TypeDecl) (m : String) : Bool :=
  d.modifiers.contains m

/-- The name of a type below the type that encloses it. -/
def nestedName (d : TypeDecl) : String :=
  match d.enclosing with
  | some outer => outer ++ "." ++ d.name
  | none => d.name

end TypeDecl

/-- The kind of a callable. -/
inductive CallableKind where
  | function
  | method
  | constructor
  | extensionFunction
  deriving DecidableEq, Repr

namespace CallableKind

/-- Every kind of callable. -/
def all : List CallableKind := [function, method, constructor, extensionFunction]

/-- The tag of a kind in records. -/
def tag : CallableKind → String
  | function => "function"
  | method => "method"
  | constructor => "constructor"
  | extensionFunction => "extension_function"

/-- The kind with the given tag. -/
def ofTag? (s : String) : Option CallableKind :=
  all.find? fun k => k.tag == s

end CallableKind

/-- A parameter of a callable. -/
structure Parameter where
  name : String
  typeName : Option String
  deriving DecidableEq, Repr

/-- **A declaration of a function, a method or a constructor.** -/
structure CallableDecl where
  name : String
  kind : CallableKind
  /-- The nested name of the type around the callable. -/
  owner : Option String := none
  /-- The type that an extension function is declared on. -/
  receiver : Option String := none
  modifiers : List String := []
  annotations : List String := []
  parameters : List Parameter := []
  returnType : Option String := none
  span : Span
  /-- One more than the number of decision points. -/
  complexity : Nat := 1
  doc : Option String := none
  deriving DecidableEq, Repr

namespace CallableDecl

/-- Whether the declaration has a modifier. -/
def hasModifier (d : CallableDecl) (m : String) : Bool :=
  d.modifiers.contains m

/-- Whether the declaration has an annotation, with or without its mark. -/
def hasAnnotation (d : CallableDecl) (a : String) : Bool :=
  d.annotations.any fun b => Text.strippedAll "@" b == a

/-- The declaration's name, parameters and result, for display. -/
def signature (d : CallableDecl) : String :=
  let params := d.parameters.map fun p =>
    match p.typeName with
    | some t => p.name ++ ": " ++ t
    | none => p.name
  let head := d.name ++ "(" ++ Text.joined ", " params ++ ")"
  match d.returnType with
  | some ret => head ++ " -> " ++ ret
  | none => head

end CallableDecl

/-- **A declaration of a field, a property or a variable.** -/
structure FieldDecl where
  name : String
  /-- The nested name of the type around the field. -/
  owner : Option String := none
  typeName : Option String := none
  modifiers : List String := []
  annotations : List String := []
  /-- The type that an extension property is declared on. -/
  receiver : Option String := none
  span : Span
  deriving DecidableEq, Repr

/-- **A call.** -/
structure CallSite where
  callee : String
  /-- The text of the receiver. -/
  qualifier : Option String
  line : Nat
  isMethod : Bool
  deriving DecidableEq, Repr

/-- The order in which calls are listed: by line, then by the name of what is called. -/
def CallSite.precedes (a b : CallSite) : Bool :=
  a.line < b.line || (a.line == b.line && !(b.callee < a.callee))

/-! ### Records -/

/-- What every language declares. -/
structure Declarations where
  imports : List ImportDecl := []
  types : List TypeDecl := []
  callables : List CallableDecl := []
  fields : List FieldDecl := []
  calls : List CallSite := []
  deriving DecidableEq, Repr

/-- **The facts of one source file.** -/
inductive SourceRecord where
  | java (package : Option String) (line : Nat) (facts : Declarations)
  | kotlin (package : Option String) (line : Nat) (facts : Declarations)
  | dart (library : Option String) (line : Nat) (facts : Declarations)
  | python (module : String) (doc : Option String) (facts : Declarations)
  deriving DecidableEq, Repr

namespace SourceRecord

/-- The language of a record. -/
def language : SourceRecord → Language
  | .java .. => .java
  | .kotlin .. => .kotlin
  | .dart .. => .dart
  | .python .. => .python

/-- The declarations of a record. -/
def facts : SourceRecord → Declarations
  | .java _ _ d => d
  | .kotlin _ _ d => d
  | .dart _ _ d => d
  | .python _ _ d => d

/-- The number of declarations of a record. -/
def declarationCount (r : SourceRecord) : Nat :=
  r.facts.types.length + r.facts.callables.length + r.facts.fields.length + r.facts.imports.length

end SourceRecord

end CodeAtlas
