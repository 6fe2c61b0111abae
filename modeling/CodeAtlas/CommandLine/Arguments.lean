import CodeAtlas.Text.Basic

/-!
# The arguments of a command line

A command line names a command, possibly a command within it, and gives options and values on the way. A
`CommandSpec` says what a command takes. Reading arguments only sorts them; what they mean is for the
command to say.

* Options may stand anywhere behind the command that takes them, each at most once.
* The value of an option follows it, or is joined to it by `=`. A value that looks like an option has to
  be joined.
* Behind `--` everything is a value.
-/

namespace CodeAtlas

/-- **An option of a command.** -/
structure OptionSpec where
  name : String
  letter : Option Char := none
  takesValue : Bool := true

/-- **What a command takes**: options, a number of values, and commands within it. A command with commands
within it takes one of them, and no values. -/
inductive CommandSpec where
  | command (options : List OptionSpec) (values : Nat) (inner : List (String × CommandSpec))

namespace CommandSpec

/-- The options of a command. -/
def options : CommandSpec → List OptionSpec
  | .command options _ _ => options

/-- The number of values of a command. -/
def values : CommandSpec → Nat
  | .command _ values _ => values

/-- The commands within a command. -/
def inner : CommandSpec → List (String × CommandSpec)
  | .command _ _ inner => inner

end CommandSpec

/-- **The arguments of a command line, sorted.** -/
structure Arguments where
  /-- The command, and the command within it. -/
  commands : List String := []
  /-- The options that are given, the latest first. -/
  options : List (String × String) := []
  values : List String := []
  deriving DecidableEq, Repr

namespace Arguments

/-- Whether an option is given. -/
def has (a : Arguments) (name : String) : Bool :=
  (a.options.lookup name).isSome

/-- The value of an option; the latest one counts. -/
def value? (a : Arguments) (name : String) : Option String :=
  a.options.lookup name

/-- The arguments with an option. -/
def withOption (a : Arguments) (name value : String) : Arguments :=
  { a with options := (name, value) :: a.options }

/-- Whether an argument looks like an option. -/
def looksLikeOption (s : List Char) : Bool :=
  s.head? == some '-' && s != ['-']

/-- The name of a long option and the value that is joined to it. -/
def splitLong (s : List Char) : String × Option String :=
  match Text.cut? '=' s with
  | some (name, value) => (String.ofList name, some (String.ofList value))
  | none => (String.ofList s, none)

/-- A long option, from after its hyphens: the arguments with it and, if it waits for its value, its
name. -/
def readLong? (spec : CommandSpec) (seen : List String) (a : Arguments) (s : List Char) :
    Option (String × Arguments × Bool) := do
  let (name, value) := splitLong s
  let o ← spec.options.find? fun o => o.name == name
  if seen.contains name then none
  else
    match o.takesValue, value with
    | false, none => return (name, a.withOption name "", false)
    | false, some _ => none
    | true, some v => return (name, a.withOption name v, false)
    | true, none => return (name, a, true)

/-- Letters behind one hyphen: each is an option without a value. -/
def readLetters? (spec : CommandSpec) (seen : List String) (a : Arguments) :
    List Char → Option (List String × Arguments)
  | [] => some (seen, a)
  | c :: rest =>
    match spec.options.find? fun o => o.letter == some c && !o.takesValue with
    | none => none
    | some o =>
      if seen.contains o.name then none
      else readLetters? spec (o.name :: seen) (a.withOption o.name "") rest

/-- **The arguments sorted**: `seen` lists the options of the command at hand that have been given,
`waiting` the option that waits for its value, and behind `--` everything is `plain`. -/
def sort? (spec : CommandSpec) (seen : List String) (waiting : Option String) (plain : Bool)
    (a : Arguments) : List String → Option Arguments
  | [] =>
    if waiting.isSome || !spec.inner.isEmpty || a.values.length != spec.values then none else some a
  | arg :: rest =>
    let s := arg.toList
    match waiting with
    | some name =>
      if looksLikeOption s then none else sort? spec seen none plain (a.withOption name arg) rest
    | none =>
      -- The first `--` only says that no option follows.
      if !plain && arg == "--" then sort? spec seen none true a rest
      else if !plain && looksLikeOption s then
        match s with
        | '-' :: '-' :: long =>
          match readLong? spec seen a long with
          | none => none
          | some (name, a, waits) =>
            sort? spec (name :: seen) (if waits then some name else none) plain a rest
        | _ :: letters =>
          match readLetters? spec seen a letters with
          | none => none
          | some (seen, a) => sort? spec seen none plain a rest
        | [] => none
      else if spec.inner.isEmpty then
        if a.values.length < spec.values then
          sort? spec seen none plain { a with values := a.values ++ [arg] } rest
        else none
      else if plain then none
      else
        match spec.inner.lookup arg with
        | none => none
        -- Options may be repeated behind another command.
        | some inner => sort? inner [] none plain { a with commands := a.commands ++ [arg] } rest

end Arguments

end CodeAtlas
