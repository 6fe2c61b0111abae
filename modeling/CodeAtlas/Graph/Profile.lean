import CodeAtlas.Record.Basic
import CodeAtlas.Graph.Reference

/-!
# How the languages map onto the graph

Records have one shape for all languages; what the parts of a record become in the graph depends on the
language. The functions here hold those choices: categories of nodes, verbs of inheritance, what counts
as an override. A language uses the part of the taxonomy that is its namespace (`Language.space`).
-/

namespace CodeAtlas

/-- The package, library or module that a record names, its line and its documentation. -/
structure RecordScope where
  name : String
  line : Nat
  doc : Option String := none
  deriving DecidableEq, Repr

/-- The module name of the file that stands for the root of a project. -/
def rootModule : String := "__init__"

/-- The scope that a record names. -/
def SourceRecord.scope? : SourceRecord → Option RecordScope
  | .java package line _ => package.map fun name => { name, line }
  | .kotlin package line _ => package.map fun name => { name, line }
  | .dart library line _ => library.map fun name => { name, line }
  | .python module doc _ => some { name := if module = "" then rootModule else module, line := 1, doc }

namespace Language

/-- The language whose declarations are in a namespace. -/
def ofSpace? (ns : Namespace) : Option Language :=
  all.find? fun l => l.space == ns

/-! ### Categories -/

/-- The category of scopes. -/
def scopeCategory : Language → Category
  | .java => .package
  | .kotlin => .package
  | .dart => .library
  | .python => .module

/-- The category of a type. -/
def typeCategory : Language → TypeKind → Category
  | .java, .interface => .interface
  | .java, .enum => .enum
  | .java, .record => .record
  | .java, .annotationType => .annotationType
  | .kotlin, .dataClass => .dataClass
  | .kotlin, .sealedClass => .sealedClass
  | .kotlin, .interface => .interface
  | .kotlin, .object => .object
  | .kotlin, .enum => .enum
  | .kotlin, .annotationType => .annotationType
  | .kotlin, .typeAlias => .typeAlias
  | .dart, .mixin => .mixin
  | .dart, .extension => .extension
  | .dart, .enum => .enum
  | .dart, .typeAlias => .typeAlias
  | _, _ => .plainClass

/-- The category of a callable. -/
def callableCategory (l : Language) (d : CallableDecl) : Category :=
  match l with
  | .java => if d.kind = .constructor then .constructor else .method
  | .kotlin =>
    if d.kind = .extensionFunction ∨ d.receiver.isSome then .extensionFunction else .function
  | .dart =>
    if d.kind = .constructor then .constructor else if d.owner.isSome then .method else .function
  | .python => .function

/-- The category of fields. -/
def fieldCategory : Language → Category
  | .java => .field
  | .kotlin => .property
  | .dart => .field
  | .python => .binding

/-- The relationship from a scope to a declaration directly in it. -/
def scopeLink : Language → Category → RelKind
  | .python, .plainClass => .definesClass
  | .python, .function => .definesFunction
  | _, _ => .contains

/-! ### Inheritance -/

/-- The supertypes of a declaration, superclass first, with the clauses that name them. -/
def clausesOf (d : TypeDecl) : List (SuperClause × String) :=
  (d.superclass.toList.map fun n => (.superclass, n)) ++ (d.interfaces.map fun n => (.interface, n))

/-- **The supertypes that a type names.** What an alias stands for is no supertype. -/
def supertypes (l : Language) (d : TypeDecl) : List (SuperClause × String) :=
  let mixins := d.mixins.map fun n => (SuperClause.mixin, n)
  match l with
  | .java => clausesOf d ++ mixins
  | .kotlin => if d.kind = .typeAlias then [] else clausesOf d
  | .dart => if d.kind = .typeAlias ∨ d.kind = .extension then [] else clausesOf d ++ mixins
  | .python =>
    ((d.superclass.toList ++ d.interfaces).filter (· ≠ "object")).map fun n => (.superclass, n)

/-- The category of the stand-in for a supertype outside the project. -/
def stubCategory : Language → SuperClause → Category
  | .java, .superclass => .plainClass
  | .java, _ => .interface
  | .kotlin, .interface => .interface
  | .kotlin, _ => .plainClass
  | .dart, .mixin => .mixin
  | .dart, _ => .plainClass
  | .python, _ => .plainClass

/-- **The verb of an inheritance.** On the JVM it follows from the categories of both ends: what is no
interface implements an interface. -/
def hierarchyVerb (l : Language) (source target : Category) (clause : SuperClause) : Verb :=
  let jvm := if target = .interface ∧ source ≠ .interface then Verb.implementing else .extending
  match l with
  | .java => jvm
  | .kotlin => jvm
  | .dart =>
    match clause with
    | .superclass => .extending
    | .interface => .implementing
    | .mixin => .mixingIn
  | .python => .inheriting

/-- Whether a member says that it overrides another. -/
def isOverride (l : Language) (d : CallableDecl) : Bool :=
  match l with
  | .java => d.hasAnnotation "Override"
  | .kotlin => d.hasModifier "override"
  | .dart => d.hasAnnotation "override"
  | .python => false

/-- Whether annotations are declared types. -/
def linksAnnotations : Language → Bool
  | .java => true
  | .kotlin => true
  | .dart => false
  | .python => false

/-- The type that a declaration extends from outside. -/
def extensionTarget? (l : Language) (d : TypeDecl) : Option String :=
  if l = .dart ∧ d.kind = .extension then d.onType else none

end Language

end CodeAtlas
