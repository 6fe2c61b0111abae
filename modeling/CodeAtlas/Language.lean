import CodeAtlas.Taxonomy

/-!
# The languages that are read

Four languages have a reader. A file is assigned to a language by its extension alone, compared in
small letters, and the language decides the namespace in which the facts of the file live. Python has no
kinds of its own and shares the language-neutral namespace.

`Language.ofPath?` takes the extension of a slash-separated path: what follows the last dot of the last
component, provided that something stands before that dot.
-/

namespace CodeAtlas

/-- **A language with a reader.** -/
inductive Language where
  | java
  | kotlin
  | dart
  | python
  deriving DecidableEq, Repr

namespace Language

/-- Every language, in the order in which languages are listed. -/
def all : List Language := [java, kotlin, dart, python]

/-- The display name of a language. -/
def name : Language → String
  | java => "Java"
  | kotlin => "Kotlin"
  | dart => "Dart"
  | python => "Python"

/-- The tag of a language in records and settings. -/
def tag : Language → String
  | java => "java"
  | kotlin => "kotlin"
  | dart => "dart"
  | python => "python"

/-- The place of a language in the listing order. -/
def rank : Language → Nat
  | java => 0
  | kotlin => 1
  | dart => 2
  | python => 3

/-- The extensions of the files of a language, without their dots. -/
def extensions : Language → List String
  | java => ["java"]
  | kotlin => ["kt", "kts"]
  | dart => ["dart"]
  | python => ["py", "pyi"]

/-- The namespace of the facts of a language. -/
def space : Language → Namespace
  | java => .java
  | kotlin => .kotlin
  | dart => .dart
  | python => .generic

/-- The language of an extension, the case of its letters aside. -/
def ofExtension? (ext : String) : Option Language :=
  let small := String.ofList (ext.toList.map Text.toSmallAscii)
  all.find? fun l => l.extensions.contains small

/-- The language with the given tag exactly. -/
def ofTag? (s : String) : Option Language :=
  all.find? fun l => l.tag == s

/-- A text that names no language. -/
structure UnknownLanguage where
  /-- The text as it was given. -/
  text : String

/-- The wording of the error. -/
def UnknownLanguage.message (e : UnknownLanguage) : String :=
  "unknown language: " ++ e.text

/-- The language that a text names, white space around it and the case of ASCII letters aside. -/
def read (s : String) : Except UnknownLanguage Language :=
  match all.find? fun l => Text.sameName l.tag (Text.trimmed s) with
  | some l => .ok l
  | none => .error ⟨s⟩

end Language

end CodeAtlas
