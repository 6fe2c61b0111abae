import CodeAtlas.Text.Basic

/-!
# Names of modules

A Python file is a module, and its name follows from its path: the directories and the name of the file,
joined by dots. The file `__init__` of a directory stands for the directory itself.
-/

namespace CodeAtlas.Python

open Text

/-- A text without the first of some endings that it has. -/
def dropEnding (endings : List String) (s : List Char) : List Char :=
  match endings with
  | [] => s
  | e :: rest => (stripSuffix? e.toList s).getD (dropEnding rest s)

/-- **The name of the module at a path** relative to the project. -/
def moduleName (path : String) : String :=
  let path := path.toList.map fun c => if c = '\\' then '/' else c
  let stem := dropEnding ["/__init__"] (dropEnding [".pyi", ".py"] path)
  let stem := if stem = "__init__".toList then [] else stem
  String.ofList ((stripAll "./".toList stem).map fun c => if c = '/' then '.' else c)

end CodeAtlas.Python
