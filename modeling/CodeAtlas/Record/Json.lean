import CodeAtlas.Record.Basic

/-!
# Records as JSON

Every record has a JSON form, tagged with its language, and `SourceRecord.ofJson?` reads it back. Optional
texts may be missing in the form that is read and are always present in the form that is written; all
other fields have to be there.
-/

namespace CodeAtlas

namespace Json

/-- A required field of an object, read by `f`. -/
def req {α : Type} (v : Json) (name : String) (f : Json → Option α) : Option α :=
  (v.field? name).bind f

/-- An optional text: a missing field and null both mean none. -/
def optText (v : Json) (name : String) : Option (Option String) :=
  match v.field? name with
  | none => some none
  | some .null => some none
  | some (.str s) => some (some s)
  | some _ => none

/-- A truth value. -/
def bool? : Json → Option Bool
  | .bool b => some b
  | _ => none

/-- A natural number. -/
def nat? : Json → Option Nat
  | .int n => if 0 ≤ n then some n.toNat else none
  | _ => none

/-- An array whose items are all read by `f`. -/
def list? {α : Type} (f : Json → Option α) : Json → Option (List α)
  | .arr items => items.mapM f
  | _ => none

end Json

open Json

namespace Span

/-- The JSON form of a span. -/
def toJson (s : Span) : Json :=
  .obj [("start_line", .int s.first), ("end_line", .int s.last)]

/-- The span of a JSON form. -/
def ofJson? (v : Json) : Option Span := do
  let first ← v.req "start_line" nat?
  let last ← v.req "end_line" nat?
  return ⟨first, last⟩

end Span

namespace ImportDecl

/-- The JSON form of an import. -/
def toJson (d : ImportDecl) : Json :=
  .obj [("path", .str d.path), ("name", ofText? d.member), ("alias", ofText? d.localName),
    ("wildcard", .bool d.wildcard), ("is_static", .bool d.isStatic), ("line", .int d.line),
    ("statement", .str d.statement)]

/-- The import of a JSON form. -/
def ofJson? (v : Json) : Option ImportDecl := do
  let path ← v.req "path" text?
  let member ← v.optText "name"
  let localName ← v.optText "alias"
  let wildcard ← v.req "wildcard" bool?
  let isStatic ← v.req "is_static" bool?
  let line ← v.req "line" nat?
  let statement ← v.req "statement" text?
  return { path, member, localName, wildcard, isStatic, line, statement }

end ImportDecl

namespace TypeDecl

/-- The JSON form of a type declaration. -/
def toJson (d : TypeDecl) : Json :=
  .obj [("name", .str d.name), ("kind", .str d.kind.tag), ("modifiers", ofTexts d.modifiers),
    ("annotations", ofTexts d.annotations), ("superclass", ofText? d.superclass),
    ("interfaces", ofTexts d.interfaces), ("mixins", ofTexts d.mixins),
    ("on_type", ofText? d.onType), ("enclosing", ofText? d.enclosing),
    ("type_parameters", ofTexts d.typeParameters), ("span", d.span.toJson), ("doc", ofText? d.doc)]

/-- The type declaration of a JSON form. -/
def ofJson? (v : Json) : Option TypeDecl := do
  let name ← v.req "name" text?
  let kind ← v.req "kind" fun k => (text? k).bind TypeKind.ofTag?
  let modifiers ← v.req "modifiers" texts?
  let annotations ← v.req "annotations" texts?
  let superclass ← v.optText "superclass"
  let interfaces ← v.req "interfaces" texts?
  let mixins ← v.req "mixins" texts?
  let onType ← v.optText "on_type"
  let enclosing ← v.optText "enclosing"
  let typeParameters ← v.req "type_parameters" texts?
  let span ← v.req "span" Span.ofJson?
  let doc ← v.optText "doc"
  return { name, kind, modifiers, annotations, superclass, interfaces, mixins, onType, enclosing,
           typeParameters, span, doc }

end TypeDecl

namespace Parameter

/-- The JSON form of a parameter. -/
def toJson (p : Parameter) : Json :=
  .obj [("name", .str p.name), ("type_name", ofText? p.typeName)]

/-- The parameter of a JSON form. -/
def ofJson? (v : Json) : Option Parameter := do
  let name ← v.req "name" text?
  let typeName ← v.optText "type_name"
  return { name, typeName }

end Parameter

namespace CallableDecl

/-- The JSON form of a callable. -/
def toJson (d : CallableDecl) : Json :=
  .obj [("name", .str d.name), ("kind", .str d.kind.tag), ("owner", ofText? d.owner),
    ("receiver", ofText? d.receiver), ("modifiers", ofTexts d.modifiers),
    ("annotations", ofTexts d.annotations), ("parameters", .arr (d.parameters.map Parameter.toJson)),
    ("return_type", ofText? d.returnType), ("span", d.span.toJson),
    ("complexity", .int d.complexity), ("doc", ofText? d.doc)]

/-- The callable of a JSON form. -/
def ofJson? (v : Json) : Option CallableDecl := do
  let name ← v.req "name" text?
  let kind ← v.req "kind" fun k => (text? k).bind CallableKind.ofTag?
  let owner ← v.optText "owner"
  let receiver ← v.optText "receiver"
  let modifiers ← v.req "modifiers" texts?
  let annotations ← v.req "annotations" texts?
  let parameters ← v.req "parameters" (list? Parameter.ofJson?)
  let returnType ← v.optText "return_type"
  let span ← v.req "span" Span.ofJson?
  let complexity ← v.req "complexity" nat?
  let doc ← v.optText "doc"
  return { name, kind, owner, receiver, modifiers, annotations, parameters, returnType, span,
           complexity, doc }

end CallableDecl

namespace FieldDecl

/-- The JSON form of a field. -/
def toJson (d : FieldDecl) : Json :=
  .obj [("name", .str d.name), ("owner", ofText? d.owner), ("type_name", ofText? d.typeName),
    ("modifiers", ofTexts d.modifiers), ("annotations", ofTexts d.annotations),
    ("receiver", ofText? d.receiver), ("span", d.span.toJson)]

/-- The field of a JSON form. -/
def ofJson? (v : Json) : Option FieldDecl := do
  let name ← v.req "name" text?
  let owner ← v.optText "owner"
  let typeName ← v.optText "type_name"
  let modifiers ← v.req "modifiers" texts?
  let annotations ← v.req "annotations" texts?
  let receiver ← v.optText "receiver"
  let span ← v.req "span" Span.ofJson?
  return { name, owner, typeName, modifiers, annotations, receiver, span }

end FieldDecl

namespace CallSite

/-- The JSON form of a call. -/
def toJson (c : CallSite) : Json :=
  .obj [("callee", .str c.callee), ("qualifier", ofText? c.qualifier), ("line", .int c.line),
    ("is_method", .bool c.isMethod)]

/-- The call of a JSON form. -/
def ofJson? (v : Json) : Option CallSite := do
  let callee ← v.req "callee" text?
  let qualifier ← v.optText "qualifier"
  let line ← v.req "line" nat?
  let isMethod ← v.req "is_method" bool?
  return { callee, qualifier, line, isMethod }

end CallSite

namespace SourceRecord

/-- The names under which a language lists its types, callables and fields. -/
structure FieldNames where
  types : String
  callables : String
  fields : String

/-- The names of the lists of each language. -/
def fieldNames : Language → FieldNames
  | .java => ⟨"types", "callables", "fields"⟩
  | .kotlin => ⟨"types", "callables", "properties"⟩
  | .dart => ⟨"types", "callables", "fields"⟩
  | .python => ⟨"classes", "functions", "variables"⟩

/-- The fields of the declarations of a record. -/
def factsFields (names : FieldNames) (d : Declarations) : List (String × Json) :=
  [("imports", .arr (d.imports.map ImportDecl.toJson)),
    (names.types, .arr (d.types.map TypeDecl.toJson)),
    (names.callables, .arr (d.callables.map CallableDecl.toJson)),
    (names.fields, .arr (d.fields.map FieldDecl.toJson)),
    ("calls", .arr (d.calls.map CallSite.toJson))]

/-- The fields of the scope that a record names. -/
def scopeFields : SourceRecord → List (String × Json)
  | .java package line _ => [("package", ofText? package), ("package_line", .int line)]
  | .kotlin package line _ => [("package", ofText? package), ("package_line", .int line)]
  | .dart library line _ => [("library", ofText? library), ("library_line", .int line)]
  | .python module doc _ => [("module", .str module), ("doc", ofText? doc)]

/-- **The JSON form of a record.** -/
def toJson (r : SourceRecord) : Json :=
  .obj (("language", .str r.language.tag) :: r.scopeFields
    ++ factsFields (fieldNames r.language) r.facts)

/-- The declarations of a JSON form. -/
def factsOfJson? (names : FieldNames) (v : Json) : Option Declarations := do
  let imports ← v.req "imports" (list? ImportDecl.ofJson?)
  let types ← v.req names.types (list? TypeDecl.ofJson?)
  let callables ← v.req names.callables (list? CallableDecl.ofJson?)
  let fields ← v.req names.fields (list? FieldDecl.ofJson?)
  let calls ← v.req "calls" (list? CallSite.ofJson?)
  return { imports, types, callables, fields, calls }

/-- **The record of a JSON form.** -/
def ofJson? (v : Json) : Option SourceRecord := do
  let language ← v.req "language" fun l => (text? l).bind Language.ofTag?
  let facts ← factsOfJson? (fieldNames language) v
  match language with
  | .java => return .java (← v.optText "package") (← v.req "package_line" nat?) facts
  | .kotlin => return .kotlin (← v.optText "package") (← v.req "package_line" nat?) facts
  | .dart => return .dart (← v.optText "library") (← v.req "library_line" nat?) facts
  | .python => return .python (← v.req "module" text?) (← v.optText "doc") facts

end SourceRecord

end CodeAtlas
