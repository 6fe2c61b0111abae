import CodeAtlas.Record.Json

/-!
# The outcome of reading a project

Every file of a project gives a `ParsedFile`: its record, or the reason why there is none. A
`ParseResult` puts the files of a project in the order of their paths and sums them up.
-/

namespace CodeAtlas

/-- How closely a record follows its source. -/
inductive Fidelity where
  /-- The record was read from the syntax of the file. -/
  | parser
  /-- The record was read line by line, by likeness. -/
  | heuristic
  deriving DecidableEq, Repr

/-- The name of a fidelity. -/
def Fidelity.name : Fidelity → String
  | .parser => "parser"
  | .heuristic => "heuristic"

/-- The fidelity with the given name. -/
def Fidelity.ofName? (s : String) : Option Fidelity :=
  [parser, heuristic].find? fun f => f.name == s

/-- The fidelity with which a language is read. -/
def Language.fidelity : Language → Fidelity
  | .java => .parser
  | .python => .parser
  | .kotlin => .heuristic
  | .dart => .heuristic

/-- **The outcome of reading one file.** -/
structure ParsedFile where
  /-- The path relative to the project. -/
  path : String
  language : Language
  record : Option SourceRecord
  success : Bool
  error : Option String := none
  /-- The number of declarations found. -/
  declarations : Nat := 0
  lines : Nat := 0
  fidelity : Fidelity
  deriving DecidableEq, Repr

namespace ParsedFile

/-- The successful outcome with a given record. -/
def ofRecord (path : String) (record : SourceRecord) : ParsedFile :=
  { path := Path.normalize path
    language := record.language
    record := some record
    success := true
    declarations := record.declarationCount
    fidelity := record.language.fidelity }

/-- The JSON form of an outcome. -/
def toJson (f : ParsedFile) : Json :=
  .obj [("relative_path", .str f.path), ("language", .str f.language.tag),
    ("record", match f.record with
      | some r => r.toJson
      | none => .null),
    ("success", .bool f.success), ("error_message", Json.ofText? f.error),
    ("node_count", .int f.declarations), ("line_count", .int f.lines), ("fidelity", .str f.fidelity.name)]

end ParsedFile

/-- A file that could not be read. -/
structure ParseFailure where
  path : String
  language : Language
  message : String
  deriving DecidableEq, Repr

/-- The order of failures: by path, then by language, then by message. -/
def ParseFailure.precedes (a b : ParseFailure) : Bool :=
  a.path < b.path || (a.path == b.path &&
    (a.language.rank < b.language.rank || (a.language.rank == b.language.rank &&
      !(b.message < a.message))))

/-- The totals of one language. -/
structure LanguageTotals where
  files : Nat
  lines : Nat
  failures : Nat
  deriving DecidableEq, Repr

/-- **The outcome of reading a project.** -/
structure ParseResult where
  /-- The files, in the order of their paths. -/
  files : List ParsedFile := []
  /-- Why the files could not be listed. -/
  enumerationError : Option String := none
  deriving DecidableEq, Repr

namespace ParseResult

/-- The outcome with files that come in any order. Files with the same path keep their order. -/
def ofFiles (files : List ParsedFile) : ParseResult :=
  { files := files.mergeSort fun a b => !(b.path < a.path) }

/-- Whether the files could be listed. Failures of single files do not matter. -/
def success (r : ParseResult) : Bool :=
  r.enumerationError.isNone

/-- The files that were read. -/
def successful (r : ParseResult) : List ParsedFile :=
  r.files.filter (·.success)

/-- The files of a language. -/
def filesOf (r : ParseResult) (l : Language) : List ParsedFile :=
  r.files.filter fun f => f.language == l

/-- The languages of the files, in the order of the languages. -/
def languages (r : ParseResult) : List Language :=
  Language.all.filter fun l => !(r.filesOf l).isEmpty

/-- The totals of a language. -/
def totals (r : ParseResult) (l : Language) : LanguageTotals :=
  let files := r.filesOf l
  { files := files.length
    lines := files.foldl (fun n f => n + f.lines) 0
    failures := (files.filter fun f => !f.success).length }

/-- The files that could not be read, in order. -/
def failures (r : ParseResult) : List ParseFailure :=
  ((r.files.filter fun f => !f.success).map fun f =>
    { path := f.path, language := f.language, message := f.error.getD "unknown error" }).mergeSort
      ParseFailure.precedes

/-- The number of lines of all files. -/
def totalLines (r : ParseResult) : Nat :=
  r.files.foldl (fun n f => n + f.lines) 0

/-- The JSON form of an outcome. -/
def toJson (r : ParseResult) : Json :=
  .obj [("languages", Json.ofTexts (r.languages.map (·.tag))),
    ("parsed_files", .arr (r.files.map ParsedFile.toJson)), ("total_files", .int r.files.length),
    ("total_lines", .int r.totalLines),
    ("parse_errors", .arr (r.failures.map fun f =>
      .obj [("file_path", .str f.path), ("language", .str f.language.tag), ("message", .str f.message)])),
    ("language_stats", .obj (r.languages.map fun l =>
      let t := r.totals l
      (l.tag, .obj [("files", .int t.files), ("lines", .int t.lines), ("failures", .int t.failures)]))),
    ("enumeration_error", Json.ofText? r.enumerationError)]

end ParseResult

end CodeAtlas
