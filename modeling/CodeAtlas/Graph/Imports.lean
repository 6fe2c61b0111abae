import CodeAtlas.PythonSource.ModuleName
import CodeAtlas.Graph.Profile
import CodeAtlas.Graph.WorkingSet

/-!
# The files that an import refers to

* On the JVM an import names a declaration, and the files that declare it are meant; a member stands for
  the declaration around it. A wildcard names a scope or a type.
* In Dart an import names a file, relative to the importing file or to the `lib` directory of a package.
* In Python an import names a module, possibly relative to the package of the importing file.
-/

namespace CodeAtlas

namespace WorkingSet

/-! ### Java and Kotlin -/

/-- The files that declare a qualified name in a namespace; scopes and imports are no declarations. -/
def declaringFiles (s : WorkingSet) (ns : Namespace) (qualified : String) : List String :=
  let nodes := (s.byQualifiedName qualified).filterMap s.node?
  let own := nodes.filter fun n =>
    n.kind.space == ns && !n.kind.category.isScope && n.kind.category != .importLine
  sortedNames (own.map (·.path))

/-- A dotted name and the names around it, the longest first. -/
def dottedAncestors (name : String) : List String :=
  let parts := Text.parts (· == '.') name
  (List.range parts.length).map fun i => Text.joined "." (parts.take (parts.length - i))

/-- The first list that is not empty. -/
def firstNonempty (l : List (List String)) : List String :=
  (l.find? fun x => !x.isEmpty).getD []

/-- **The files of an import on the JVM.** -/
def qualifiedTargets (s : WorkingSet) (ns : Namespace) (i : ImportTarget) : List String :=
  let path := String.ofList (Text.stripAllEnd ".*".toList i.path.toList)
  if i.wildcard then
    sortedNames ((s.filePaths.filter fun f => s.scopes.get? f == some path) ++ s.declaringFiles ns path)
  else firstNonempty ((dottedAncestors path).map (s.declaringFiles ns))

/-! ### Dart -/

/-- One segment of a path added to the segments before it. -/
def addSegment (segments : List String) (segment : String) : List String :=
  if segment = "" ∨ segment = "." then segments
  else if segment = ".." then segments.dropLast
  else segments ++ [segment]

/-- **A path seen from the directory of a file**, with `.` and `..` folded. -/
def joinRelative (file target : String) : String :=
  let isSlash := fun c : Char => c == '/'
  let start := (Text.parts isSlash file).dropLast
  Text.joined "/" ((Text.parts isSlash target).foldl addSegment start)

/-- The files of an import in Dart. -/
def fileTargets (s : WorkingSet) (file : String) (path : String) : List String :=
  if Text.hasStart "dart:" path then []
  else
    match Text.stripPrefix? "package:".toList path.toList with
    | some rest =>
      match Text.cut? '/' rest with
      | some (_, inner) =>
        let wanted := "lib/" ++ String.ofList inner
        s.filePaths.filter fun f => f == wanted || Text.hasEnd ("/" ++ wanted) f
      | none => []
    | none =>
      let joined := joinRelative file path
      if (s.files.get? joined).isSome then [joined] else []

/-! ### Python -/

/-- A list without its last `n` entries, if it has so many. -/
def dropLast? : Nat → List String → Option (List String)
  | 0, l => some l
  | n + 1, l => if l = [] then none else dropLast? n l.dropLast

/-- **The absolute name of a module** that an import in a file names. Leading dots count packages upwards
from the package of the file; a package is its own package. There is none if the dots lead above the
root. -/
def absoluteModule? (current : Option String) (file path : String) : Option String :=
  let dots := (path.toList.takeWhile (· == '.')).length
  if dots = 0 then some path
  else
    let current := current.getD rootModule
    let names := if current = rootModule then [] else Text.parts (· == '.') current
    let isPackage := Text.hasEnd "__init__.py" file || Text.hasEnd "__init__.pyi" file
    let package := if isPackage then names else names.dropLast
    let rest := String.ofList (path.toList.drop dots)
    (dropLast? (dots - 1) package).map fun base =>
      Text.joined "." (if rest = "" then base else base ++ [rest])

/-- The files of the modules with a name. -/
def moduleFiles (s : WorkingSet) (name : String) : List String :=
  let nodes := (s.byQualifiedName name).filterMap s.node?
  (nodes.filter fun n => n.kind == NodeKind.generic .module).map (·.path)

/-- **The files of an import in Python**: a module of the imported name in the module that the import
names, or else that module itself. -/
def moduleTargets (s : WorkingSet) (file : String) (i : ImportTarget) : List String :=
  match absoluteModule? (s.scopes.get? file) file i.path with
  | none => []
  | some origin =>
    let inner := match i.member with
      | some name => if name = "*" then [] else [if origin = "" then name else origin ++ "." ++ name]
      | none => []
    firstNonempty (((inner ++ [origin]).filter (· ≠ "")).map s.moduleFiles)

/-! ### All languages -/

/-- **The files that an import refers to.** -/
def importTargets (s : WorkingSet) (l : Language) (file : String) (i : ImportTarget) : List String :=
  match l with
  | .java => s.qualifiedTargets l.space i
  | .kotlin => s.qualifiedTargets l.space i
  | .dart => s.fileTargets file i.path
  | .python => s.moduleTargets file i

end WorkingSet

end CodeAtlas
