import CodeAtlas.Text.Basic

/-!
# The taxonomy of the graph

Everything in the graph carries a kind, and a kind is a pair: the *namespace* that owns it and, within
the namespace, a *category* for nodes or a *verb* for relationships. The three lists are closed, so a
kind is a value of a finite type and its label is computed, not stored.

* `Namespace` — the language-neutral namespace and one for each language with kinds of its own;
* `Category`, `NodeKind` — what a node stands for; `JavaClass` is the label of `⟨java, plainClass⟩`;
* `Verb`, `RelKind` — how two nodes are related; `KOTLIN_IMPLEMENTS` is the label of
  `⟨kotlin, implementing⟩`.

Reading a label back (`NodeKind.ofLabel?`, `RelKind.ofLabel?`) tries the namespaces with a head of their
own first and the language-neutral one last.
-/

namespace CodeAtlas

/-! ### Namespaces -/

/-- **The owner of a slice of the taxonomy.** Languages without kinds of their own use `generic`. -/
inductive Namespace where
  | generic
  | java
  | kotlin
  | dart
  deriving DecidableEq, Repr

namespace Namespace

/-- Every namespace, in the order in which kinds are listed. -/
def all : List Namespace := [generic, java, kotlin, dart]

/-- The namespaces whose labels have a head. -/
def specific : List Namespace := [java, kotlin, dart]

/-- The name of a namespace. -/
def name : Namespace → String
  | generic => "generic"
  | java => "java"
  | kotlin => "kotlin"
  | dart => "dart"

/-- What stands before the category in a node label. -/
def labelHead : Namespace → String
  | generic => ""
  | java => "Java"
  | kotlin => "Kotlin"
  | dart => "Dart"

/-- What stands before the verb in a relationship label. -/
def verbHead : Namespace → String
  | generic => ""
  | java => "JAVA_"
  | kotlin => "KOTLIN_"
  | dart => "DART_"

/-- The namespace with the given name, white space around it and the case of ASCII letters aside. -/
def ofName? (s : String) : Option Namespace :=
  all.find? fun ns => Text.sameName ns.name (Text.trimmed s)

end Namespace

/-! ### Categories of nodes -/

/-- What a node stands for within its namespace. -/
inductive Category where
  | file
  | module
  | package
  | library
  | plainClass
  | dataClass
  | sealedClass
  | record
  | interface
  | object
  | enum
  | annotationType
  | typeAlias
  | mixin
  | extension
  | function
  | extensionFunction
  | method
  | constructor
  | field
  | property
  | binding
  | importLine
  deriving DecidableEq, Repr

namespace Category

/-- Every category, in the order in which kinds are listed. -/
def all : List Category :=
  [file, module, package, library, plainClass, dataClass, sealedClass, record, interface, object,
    enum, annotationType, typeAlias, mixin, extension, function, extensionFunction, method,
    constructor, field, property, binding, importLine]

/-- The name of a category, as labels spell it. -/
def name : Category → String
  | file => "File"
  | module => "Module"
  | package => "Package"
  | library => "Library"
  | plainClass => "Class"
  | dataClass => "DataClass"
  | sealedClass => "SealedClass"
  | record => "Record"
  | interface => "Interface"
  | object => "Object"
  | enum => "Enum"
  | annotationType => "Annotation"
  | typeAlias => "TypeAlias"
  | mixin => "Mixin"
  | extension => "Extension"
  | function => "Function"
  | extensionFunction => "ExtensionFunction"
  | method => "Method"
  | constructor => "Constructor"
  | field => "Field"
  | property => "Property"
  | binding => "Variable"
  | importLine => "Import"

/-- The category with the given name. -/
def ofName? (s : String) : Option Category :=
  all.find? fun c => c.name == s

/-- Whether the category is a type declaration. -/
def isType : Category → Bool
  | plainClass | dataClass | sealedClass | record | interface | object | enum | annotationType
  | typeAlias | mixin | extension => true
  | _ => false

/-- Whether the category can be called. -/
def isCallable : Category → Bool
  | function | extensionFunction | method | constructor => true
  | _ => false

/-- Whether the category names a scope that holds top-level declarations. -/
def isScope : Category → Bool
  | file | module | package | library => true
  | _ => false

/-- Every category is listed. -/
theorem mem_all (c : Category) : c ∈ all := by
  cases c <;> decide

end Category

/-! ### Kinds of nodes -/

/-- **A kind of node**: the namespace that owns it and its category there. -/
structure NodeKind where
  /-- The owner of the kind. -/
  space : Namespace
  /-- What a node of this kind stands for. -/
  category : Category
  deriving DecidableEq, Repr

namespace NodeKind

/-- The language-neutral kind of a category. -/
def generic (c : Category) : NodeKind := ⟨.generic, c⟩

/-- Every kind of node: by namespace, then by category. -/
def all : List NodeKind :=
  Namespace.all.flatMap fun ns => Category.all.map fun c => ⟨ns, c⟩

/-- The label of a kind: the head of its namespace and the name of its category. -/
def label (k : NodeKind) : String :=
  k.space.labelHead ++ k.category.name

/-- The kind of the given namespace that a label names. -/
def ofLabelIn? (ns : Namespace) (label : String) : Option NodeKind :=
  match Text.stripPrefix? ns.labelHead.toList label.toList with
  | some rest => (Category.ofName? (String.ofList rest)).map fun c => ⟨ns, c⟩
  | none => none

/-- **The kind that a label names**, if there is one. -/
def ofLabel? (label : String) : Option NodeKind :=
  match Namespace.specific.findSome? fun ns => ofLabelIn? ns label with
  | some k => some k
  | none => (Category.ofName? label).map generic

/-- Every kind is listed. -/
theorem mem_all (k : NodeKind) : k ∈ all := by
  obtain ⟨ns, c⟩ := k
  simp only [all, List.mem_flatMap, List.mem_map, NodeKind.mk.injEq]
  exact ⟨ns, by cases ns <;> decide, c, Category.mem_all c, rfl, rfl⟩

end NodeKind

/-! ### Verbs of relationships -/

/-- How the source of a relationship relates to its target. -/
inductive Verb where
  /-- A parent holds a child: a file its package, a class its method. -/
  | containing
  /-- A file imports another file of the project. -/
  | importing
  /-- A callable calls a callable. -/
  | calling
  /-- A module defines a top-level function. -/
  | definingFunction
  /-- A module defines a top-level class. -/
  | definingClass
  /-- A class inherits from a class, where the language makes no further difference. -/
  | inheriting
  | extending
  | implementing
  | overriding
  | mixingIn
  /-- An extension is declared on the type that it extends. -/
  | extensionOf
  | annotatedWith
  deriving DecidableEq, Repr

namespace Verb

/-- Every verb, in the order in which kinds are listed. -/
def all : List Verb :=
  [containing, importing, calling, definingFunction, definingClass, inheriting, extending,
    implementing, overriding, mixingIn, extensionOf, annotatedWith]

/-- The name of a verb, as labels spell it. -/
def name : Verb → String
  | containing => "CONTAINS"
  | importing => "IMPORTS"
  | calling => "CALLS"
  | definingFunction => "DEFINES_FUNCTION"
  | definingClass => "DEFINES_CLASS"
  | inheriting => "INHERITS"
  | extending => "EXTENDS"
  | implementing => "IMPLEMENTS"
  | overriding => "OVERRIDES"
  | mixingIn => "MIXES_IN"
  | extensionOf => "EXTENSION_OF"
  | annotatedWith => "ANNOTATED_WITH"

/-- The verb with the given name. -/
def ofName? (s : String) : Option Verb :=
  all.find? fun v => v.name == s

/-- Whether the verb links a type to one of its supertypes. -/
def isHierarchy : Verb → Bool
  | inheriting | extending | implementing | mixingIn => true
  | _ => false

/-- Every verb is listed. -/
theorem mem_all (v : Verb) : v ∈ all := by
  cases v <;> decide

end Verb

/-! ### Kinds of relationships -/

/-- **A kind of relationship**: the namespace that owns it and its verb there. -/
structure RelKind where
  /-- The owner of the kind. -/
  space : Namespace
  /-- How source and target are related. -/
  verb : Verb
  deriving DecidableEq, Repr

namespace RelKind

/-- The language-neutral kind of a verb. -/
def generic (v : Verb) : RelKind := ⟨.generic, v⟩

/-- A parent holds a child. -/
def contains : RelKind := generic .containing

/-- A file imports a file. -/
def imports : RelKind := generic .importing

/-- A callable calls a callable. -/
def calls : RelKind := generic .calling

/-- A module defines a function. -/
def definesFunction : RelKind := generic .definingFunction

/-- A module defines a class. -/
def definesClass : RelKind := generic .definingClass

/-- Every kind of relationship: by namespace, then by verb. -/
def all : List RelKind :=
  Namespace.all.flatMap fun ns => Verb.all.map fun v => ⟨ns, v⟩

/-- The label of a kind: the head of its namespace and the name of its verb. -/
def label (k : RelKind) : String :=
  k.space.verbHead ++ k.verb.name

/-- **The label under which the store keeps a kind.** `CONTAINS` is a word of the query language, so it
is kept behind an underscore. -/
def storeLabel (k : RelKind) : String :=
  if k.label = "CONTAINS" then "_" ++ k.label else k.label

/-- The kind of the given namespace that a label names. -/
def ofLabelIn? (ns : Namespace) (label : String) : Option RelKind :=
  match Text.stripPrefix? ns.verbHead.toList label.toList with
  | some rest => (Verb.ofName? (String.ofList rest)).map fun v => ⟨ns, v⟩
  | none => none

/-- **The kind that a label names**, if there is one; one underscore in front does not matter. -/
def ofLabel? (label : String) : Option RelKind :=
  let bare := match Text.stripPrefix? ['_'] label.toList with
    | some rest => String.ofList rest
    | none => label
  match Namespace.specific.findSome? fun ns => ofLabelIn? ns bare with
  | some k => some k
  | none => (Verb.ofName? bare).map generic

/-- Every kind is listed. -/
theorem mem_all (k : RelKind) : k ∈ all := by
  obtain ⟨ns, v⟩ := k
  simp only [all, List.mem_flatMap, List.mem_map, RelKind.mk.injEq]
  exact ⟨ns, by cases ns <;> decide, v, Verb.mem_all v, rfl, rfl⟩

end RelKind

/-- A label that names no kind. -/
inductive LabelError where
  | node (label : String)
  | relationship (label : String)

/-- The wording of a label error. -/
def LabelError.message : LabelError → String
  | .node label => "unknown node type: " ++ label
  | .relationship label => "unknown relationship type: " ++ label

/-- The kind of node that a label names, or what is wrong with the label. -/
def NodeKind.read (label : String) : Except LabelError NodeKind :=
  match NodeKind.ofLabel? label with
  | some k => .ok k
  | none => .error (.node label)

/-- The kind of relationship that a label names, or what is wrong with the label. -/
def RelKind.read (label : String) : Except LabelError RelKind :=
  match RelKind.ofLabel? label with
  | some k => .ok k
  | none => .error (.relationship label)

end CodeAtlas
