import CodeAtlas.Schema.Basic

/-!
# The standard schema

The kinds that the four languages bring to the graph. Each namespace has a registration of its own, and
the standard schema is the four of them one after the other.
-/

namespace CodeAtlas.Schema

/-! ### Properties that kinds share -/

/-- The optional properties of type declarations. -/
def typeProperties : List String :=
  ["modifiers", "annotations", "superclass", "interfaces", "mixins", "on_type", "type_parameters",
    "enclosing", "end_line", "doc", "stub"]

/-- The optional properties of callables. -/
def callableProperties : List String :=
  ["modifiers", "annotations", "owner", "receiver", "parameters", "parameter_count", "return_type",
    "signature", "complexity", "end_line", "doc", "stub"]

/-- The optional properties of fields, properties and variables. -/
def memberProperties : List String :=
  ["modifiers", "annotations", "owner", "receiver", "type"]

/-- The optional properties of imports. -/
def importProperties : List String :=
  ["alias", "wildcard", "static", "imported_name"]

/-- The kinds of several categories of one namespace. -/
def kindsOf (ns : Namespace) (categories : List Category) : List NodeKind :=
  categories.map fun c => ⟨ns, c⟩

/-- The kind of source files. -/
def fileKind : NodeKind := .generic .file

/-! ### The language-neutral kinds -/

/-- The language-neutral kinds registered; Python's nodes live here. -/
def registerGeneric (s : Schema) : Schema :=
  let module : NodeKind := .generic .module
  let plain : NodeKind := .generic .plainClass
  let function : NodeKind := .generic .function
  let binding : NodeKind := .generic .binding
  let importLine : NodeKind := .generic .importLine
  s.node fileKind ["language"] ["relative_path", "line_count", "fidelity"]
    |>.node module ["qualified_name"] ["doc"]
    |>.node plain ["qualified_name"] typeProperties
    |>.node function ["qualified_name"] callableProperties
    |>.node binding ["qualified_name"] memberProperties
    |>.node importLine ["statement"] importProperties
    |>.relationship .contains [fileKind] [module, importLine]
    |>.relationship .contains [module] [binding]
    |>.relationship .contains [plain] [function, plain, binding]
    |>.relationship .definesClass [module] [plain]
    |>.relationship .definesFunction [module] [function]
    |>.relationship .imports [fileKind] [fileKind]
    |>.relationship .calls [function] [function]
    |>.relationship (.generic .inheriting) [plain] [plain]

/-! ### Java -/

/-- The categories of Java types. -/
def javaTypes : List Category := [.plainClass, .interface, .enum, .record, .annotationType]

/-- The categories of Java callables. -/
def javaCallables : List Category := [.method, .constructor]

/-- The kinds of Java registered. -/
def registerJava (s : Schema) : Schema :=
  let kind (c : Category) : NodeKind := ⟨.java, c⟩
  let rel (v : Verb) : RelKind := ⟨.java, v⟩
  let types := kindsOf .java javaTypes
  let callables := kindsOf .java javaCallables
  let members := callables ++ [kind .field]
  s.node (kind .package) ["qualified_name"] []
    |>.node (kind .importLine) ["statement"] importProperties
    |>.nodesOf .java javaTypes ["qualified_name"] typeProperties
    |>.nodesOf .java javaCallables ["qualified_name"] callableProperties
    |>.node (kind .field) ["qualified_name"] memberProperties
    |>.relationship .contains [fileKind] [kind .package, kind .importLine]
    |>.relationship .contains [fileKind] types
    |>.relationship .contains [kind .package] types
    |>.relationship .contains types members
    |>.relationship .contains types types
    |>.relationship .calls callables callables
    |>.relationship (rel .extending) [kind .plainClass] [kind .plainClass]
    |>.relationship (rel .extending) [kind .interface] [kind .interface]
    |>.relationship (rel .implementing) [kind .plainClass, kind .enum, kind .record] [kind .interface]
    |>.relationship (rel .overriding) [kind .method] [kind .method]
    |>.relationship (rel .annotatedWith) (types ++ members) [kind .annotationType]

/-! ### Kotlin -/

/-- The categories of Kotlin types that may declare members. -/
def kotlinBodied : List Category :=
  [.plainClass, .dataClass, .sealedClass, .interface, .object, .enum, .annotationType]

/-- The categories of Kotlin types. -/
def kotlinTypes : List Category := kotlinBodied ++ [.typeAlias]

/-- The categories of Kotlin types that may extend a class or implement interfaces. -/
def kotlinClassLike : List Category := [.plainClass, .dataClass, .sealedClass, .object, .enum]

/-- The categories of Kotlin callables. -/
def kotlinCallables : List Category := [.function, .extensionFunction]

/-- The kinds of Kotlin registered. -/
def registerKotlin (s : Schema) : Schema :=
  let kind (c : Category) : NodeKind := ⟨.kotlin, c⟩
  let rel (v : Verb) : RelKind := ⟨.kotlin, v⟩
  let types := kindsOf .kotlin kotlinTypes
  let bodied := kindsOf .kotlin kotlinBodied
  let classLike := kindsOf .kotlin kotlinClassLike
  let callables := kindsOf .kotlin kotlinCallables
  let members := callables ++ [kind .property]
  let declarations := types ++ members
  s.node (kind .package) ["qualified_name"] []
    |>.node (kind .importLine) ["statement"] importProperties
    |>.nodesOf .kotlin kotlinTypes ["qualified_name"] typeProperties
    |>.nodesOf .kotlin kotlinCallables ["qualified_name"] callableProperties
    |>.node (kind .property) ["qualified_name"] memberProperties
    |>.relationship .contains [fileKind] [kind .package, kind .importLine]
    |>.relationship .contains [fileKind] declarations
    |>.relationship .contains [kind .package] declarations
    |>.relationship .contains bodied members
    |>.relationship .contains bodied types
    |>.relationship .calls callables callables
    |>.relationship (rel .extending) classLike [kind .plainClass, kind .sealedClass]
    |>.relationship (rel .extending) [kind .interface] [kind .interface]
    |>.relationship (rel .implementing) classLike [kind .interface]
    |>.relationship (rel .overriding) [kind .function] [kind .function]
    |>.relationship (rel .extensionOf) [kind .extensionFunction, kind .property] bodied
    |>.relationship (rel .annotatedWith) declarations [kind .annotationType]

/-! ### Dart -/

/-- The categories of Dart types that may declare members. -/
def dartBodied : List Category := [.plainClass, .mixin, .extension, .enum]

/-- The categories of Dart types. -/
def dartTypes : List Category := dartBodied ++ [.typeAlias]

/-- The categories of Dart callables. -/
def dartCallables : List Category := [.function, .method, .constructor]

/-- The kinds of Dart registered. -/
def registerDart (s : Schema) : Schema :=
  let kind (c : Category) : NodeKind := ⟨.dart, c⟩
  let rel (v : Verb) : RelKind := ⟨.dart, v⟩
  let types := kindsOf .dart dartTypes
  let bodied := kindsOf .dart dartBodied
  let callables := kindsOf .dart dartCallables
  let topLevel := types ++ [kind .function, kind .field]
  let members := [kind .method, kind .constructor, kind .field]
  s.node (kind .library) ["qualified_name"] []
    |>.node (kind .importLine) ["statement"] importProperties
    |>.nodesOf .dart dartTypes ["qualified_name"] typeProperties
    |>.nodesOf .dart dartCallables ["qualified_name"] callableProperties
    |>.node (kind .field) ["qualified_name"] memberProperties
    |>.relationship .contains [fileKind] [kind .library, kind .importLine]
    |>.relationship .contains [fileKind] topLevel
    |>.relationship .contains [kind .library] topLevel
    |>.relationship .contains bodied members
    |>.relationship .calls callables callables
    |>.relationship (rel .extending) [kind .plainClass] [kind .plainClass]
    |>.relationship (rel .implementing) [kind .plainClass, kind .mixin, kind .enum]
        [kind .plainClass]
    |>.relationship (rel .mixingIn) [kind .plainClass, kind .enum] [kind .mixin]
    |>.relationship (rel .extensionOf) [kind .extension] [kind .plainClass]
    |>.relationship (rel .overriding) [kind .method] [kind .method]

/-- **The schema with the kinds of every language registered.** -/
def standard : Schema :=
  registerDart (registerKotlin (registerJava (registerGeneric empty)))

end CodeAtlas.Schema
