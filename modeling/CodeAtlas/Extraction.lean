import CodeAtlas.Source.Kotlin
import CodeAtlas.Source.Dart
import CodeAtlas.JavaSource.Reader
import CodeAtlas.JavaSource.Walker
import CodeAtlas.PythonSource.Reader
import CodeAtlas.PythonSource.Walker

/-!
# From source text to records

Every language has its reader. They agree in what they give: the record of a file, whatever its text is. Kotlin and
Dart are read line by line. For Java and Python a parser delivers a syntax tree, and a walk through the tree finds
the record; any parser will do that keeps the promise of `SyntaxTree`.
-/

namespace CodeAtlas

/-- **The parsers of the languages that are read from trees.** -/
structure Parsers where
  java : List Char → SyntaxTree
  python : List Char → SyntaxTree

/-- The parsers of this library. -/
def Parsers.own : Parsers where
  java := Java.parse
  python := Python.parse

/-- **The record of a source text.** The path relative to the project matters where it names the
module. -/
def Language.record (language : Language) (path : String) (source : List Char) (parsers : Parsers := .own) :
    SourceRecord :=
  match language with
  | .java => Java.recordOf (parsers.java source)
  | .kotlin => Kotlin.record source
  | .dart => Dart.record source
  | .python => Python.recordOf path (parsers.python source)

/-- The languages that a project is read with. -/
abbrev Readers := List Language

namespace Readers

/-- The readers of all languages. -/
def standard : Readers := Language.all

/-- The reader of the files with an extension. -/
def forExtension? (r : Readers) (ext : String) : Option Language :=
  (Language.ofExtension? ext).filter r.contains

/-- The reader of a file. -/
def forPath? (r : Readers) (path : String) : Option Language :=
  (Language.ofPath? path).filter r.contains

end Readers

end CodeAtlas
