import CodeAtlas.Language

/-!
# Slash-separated paths

A path is kept as the text that was given, because texts are what the answers show; but paths are
*compared* by their components. Between the two stands `components`: the root of an absolute path, and
then the segments, where repeated slashes and inner `.` do not count.

* `join`, `parent?` work on the text, as a path is written and cut;
* `startsWith`, `under?` compare by components, and `under?` gives back the rest of the text;
* `normalize` is the form in which the graph keeps a path relative to its project.
-/

namespace CodeAtlas.Path

/-- **One component of a path.** -/
inductive Component where
  /-- The root of an absolute path. -/
  | root
  /-- A leading `.` of a relative path. -/
  | current
  /-- A `..`. -/
  | up
  /-- A named segment. -/
  | name (text : List Char)
  deriving DecidableEq

/-- The texts between the slashes. -/
def segments (p : String) : List (List Char) :=
  p.toList.splitOn '/'

/-- Whether a segment counts as a component: empty segments and inner `.` do not. -/
def counts (s : List Char) : Bool :=
  s != [] && s != ['.']

/-- The component that a counting segment stands for. -/
def Component.ofSegment (s : List Char) : Component :=
  if s = ['.', '.'] then .up else .name s

/-- Whether the path starts at the root. -/
def isAbsolute (p : String) : Bool :=
  p.toList.head? == some '/'

/-- **The components of a path**: the root of an absolute path or a leading `.`, and then the segments that
count. -/
def components (p : String) : List Component :=
  let rest := ((segments p).filter counts).map Component.ofSegment
  if isAbsolute p then .root :: rest
  else if (segments p).head? == some ['.'] then .current :: rest
  else rest

/-- Whether the components of `base` are the first components of `p`. -/
def startsWith (base p : String) : Bool :=
  (components base).isPrefixOf (components p)

/-- The segments from the first one that counts to the last one that counts. -/
def trimSegments (ss : List (List Char)) : List (List Char) :=
  ((ss.dropWhile (!counts ·)).reverse.dropWhile (!counts ·)).reverse

/-- The segments after the first `n` that count. -/
def dropCounting : Nat → List (List Char) → List (List Char)
  | 0, ss => ss
  | _ + 1, [] => []
  | n + 1, s :: ss => if counts s then dropCounting n ss else dropCounting (n + 1) ss

/-- The text of the segments with slashes between them. -/
def ofSegments (ss : List (List Char)) : String :=
  String.ofList (Text.joinWith ['/'] ss)

/-- **What is left of `p` below `base`**, if `base` is a component-wise beginning of `p`. The rest keeps
its own spelling, without separators at its ends. -/
def under? (base p : String) : Option String :=
  let bs := components base
  if startsWith base p then
    if bs = [] then
      -- Nothing was taken away, so only the end is cleaned.
      let ss := segments p
      some (ofSegments ((ss.reverse.dropWhile (!counts ·)).reverse))
    else
      let named := (bs.filter fun c => c ≠ .root ∧ c ≠ .current).length
      some (ofSegments (trimSegments (dropCounting named (segments p))))
  else none

/-- The path `p` as seen from `base`: an absolute `p` stands for itself, and any other is written after
`base` and a slash. -/
def join (base p : String) : String :=
  if isAbsolute p || base == "" then p
  else if base.toList.getLast? == some '/' then base ++ p
  else base ++ "/" ++ p

/-- The last component of a path, if it is a name. -/
def fileName? (p : String) : Option (List Char) :=
  match (components p).getLast? with
  | some (.name s) => some s
  | _ => none

/-- The extension of the last component: what follows its last dot, if something stands before it. -/
def extension? (p : String) : Option String :=
  match fileName? p with
  | none => none
  | some name =>
    match Text.cutLast? '.' name with
    | some (stem, ext) => if stem = [] then none else some (String.ofList ext)
    | none => none

/-- The path without its last component; the root and the empty path have no parent. -/
def parent? (p : String) : Option String :=
  match (components p).getLast? with
  | none => none
  | some .root => none
  | some .current => some ""
  | some _ =>
    let ss := ((segments p).reverse.dropWhile (!counts ·)).drop 1
    let up := (ss.dropWhile (!counts ·)).reverse
    if isAbsolute p then
      some (if up = [] then "/" else ofSegments up)
    else if (segments p).head? == some ['.'] then
      some (if up = [] then "." else ofSegments up)
    else some (ofSegments up)

/-- **The form in which a path relative to its project is kept**: slashes only, and no `./` in front. -/
def normalize (p : String) : String :=
  Text.strippedAll "./" (Text.exchange '\\' '/' p)

end CodeAtlas.Path

namespace CodeAtlas

/-- The language of a path, by its extension. -/
def Language.ofPath? (p : String) : Option Language :=
  (Path.extension? p).bind Language.ofExtension?

end CodeAtlas
