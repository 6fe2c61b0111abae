import CodeAtlas.CommandLine.Arguments
import CodeAtlas.Store.Request

/-!
# The commands

What the program can be asked to do: set up a project, index it, query its graph, describe the schema.
`Invocation.read?` gives what a command line asks for, if it is one.
-/

namespace CodeAtlas

/-- **What the program is asked to do.** -/
inductive Command where
  /-- Set up the data directory of a project. -/
  | init (force : Bool)
  /-- Read a project and merge it into a graph. -/
  | index (path output statements : Option String)
  /-- Put a request to a graph. -/
  | query (graph : Option String) (request : Request)
  /-- Describe the schema. -/
  | schema (output : Option String)

/-- **A command with what holds for every command.** -/
structure Invocation where
  verbose : Bool := false
  /-- Where the settings are. -/
  config : Option String := none
  command : Command

namespace Invocation

/-- The options of every command. -/
def commonOptions : List OptionSpec :=
  [{ name := "verbose", letter := some 'v', takesValue := false }, { name := "config" }]

/-- A command with options of its own and a number of values. -/
def leaf (options : List OptionSpec) (values : Nat) : CommandSpec :=
  .command (commonOptions ++ options) values []

/-- The queries. -/
def queryCommands : List (String × CommandSpec) :=
  [("stats", leaf [] 0), ("search", leaf [{ name := "mode" }] 1), ("callers", leaf [] 1),
    ("callees", leaf [] 1), ("cycles", leaf [{ name := "relation" }] 0),
    ("file", leaf [{ name := "classes", takesValue := false }] 1),
    ("hierarchy", leaf [{ name := "root" }] 1), ("data-classes", leaf [{ name := "namespace" }] 0),
    ("extensions", leaf [{ name := "receiver" }] 0), ("sealed", leaf [] 0),
    ("overrides", leaf [{ name := "namespace" }] 1), ("raw", leaf [] 1)]

/-- What the program takes. -/
def spec : CommandSpec :=
  .command commonOptions 0
    [("init", leaf [{ name := "force", takesValue := false }] 0),
      ("index", leaf [{ name := "path" }, { name := "output" }, { name := "statements" }] 0),
      ("query", .command (commonOptions ++ [{ name := "graph" }]) 0 queryCommands),
      ("schema", leaf [{ name := "output" }] 0)]

/-- The value of an option, read; the default if it is not given, and nothing if it makes no sense. -/
def optionOr? {α : Type} (a : Arguments) (name : String) (default : α) (read : String → Option α) :
    Option α :=
  match a.value? name with
  | none => some default
  | some v => read v

/-- The path that an option gives. A path is not empty. -/
def pathOf? (a : Arguments) (name : String) : Option (Option String) :=
  optionOr? a name none fun v => if v = "" then none else some (some v)

/-- The namespace that an option gives. -/
def spaceOf? (a : Arguments) : Option (Option Namespace) :=
  optionOr? a "namespace" none fun v => (Namespace.ofName? v).map some

/-- The request of a query. -/
def request? (a : Arguments) (name : String) : Option Request :=
  match name, a.values with
  | "stats", [] => some .statistics
  | "search", [pattern] => (optionOr? a "mode" .contains SearchMode.ofName?).map (.search pattern)
  | "callers", [name] => some (.callersOf name)
  | "callees", [name] => some (.calleesOf name)
  | "cycles", [] => (optionOr? a "relation" .imports CycleRelation.ofName?).map .cycles
  | "file", [path] => some (if a.has "classes" then .classesInFile path else .functionsInFile path)
  | "hierarchy", [space] => (Namespace.ofName? space).map (.inheritance · (a.value? "root"))
  | "data-classes", [] => (spaceOf? a).map .dataClasses
  | "extensions", [] => some (.extensions (a.value? "receiver"))
  | "sealed", [] => some .sealedHierarchies
  | "overrides", [member] => (spaceOf? a).map (.overrides member)
  | "raw", [text] => some (.raw text)
  | _, _ => none

/-- The command that arguments name. -/
def command? (a : Arguments) : Option Command :=
  match a.commands with
  | ["init"] => some (.init (a.has "force"))
  | ["index"] => do
    return .index (← pathOf? a "path") (← pathOf? a "output") (← pathOf? a "statements")
  | ["query", name] => do return .query (← pathOf? a "graph") (← request? a name)
  | ["schema"] => (pathOf? a "output").map .schema
  | _ => none

/-- **What a command line asks for**, if it is one. -/
def read? (args : List String) : Option Invocation := do
  let a ← Arguments.sort? spec [] none false {} args
  return { verbose := a.has "verbose", config := ← pathOf? a "config", command := ← command? a }

end Invocation

end CodeAtlas
