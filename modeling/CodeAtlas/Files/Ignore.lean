import CodeAtlas.Files.Glob
import CodeAtlas.Files.Tree

/-!
# Files that are ignored

Directories may hold lists of what is to be ignored below them: `.ignore`, `.gitignore`, and
`.git/info/exclude`. A line of a list is a glob; it excludes what it matches, or, with a `!` in front,
admits it again. Of several lines that match, the last one counts.

Lists of the first kind go before lists of the second, and those before the third; among lists of one
kind, the one nearest to the file goes first. Names that start with a dot are hidden unless a line admits
them.

* `IgnoreRule.ofLine?` — the rule of a line;
* `IgnoreLists.verdict?` — what the lists say about a file or directory;
* `IgnoreLists.admits` — whether a file or directory is seen at all.
-/

namespace CodeAtlas

/-- **A line of a list of ignored files.** -/
structure IgnoreRule where
  pattern : Pattern
  /-- Whether the line admits what it matches. -/
  admits : Bool
  /-- Whether the line is about directories only. -/
  directoriesOnly : Bool

namespace IgnoreRule

/-- A line without the blanks at its end, unless the last of them is escaped. -/
def trimLine (s : List Char) : List Char :=
  if Text.endsWith ['\\', ' '] s then s else Text.trimEnd s

/-- The start of a line: whether it admits, whether it is bound to the directory of its list, and the
rest. A backslash takes the sign after it as it is. -/
def readStart (s : List Char) : Bool × Bool × List Char :=
  match s with
  | '\\' :: '!' :: t => (false, false, '!' :: t)
  | '\\' :: '#' :: t => (false, false, '#' :: t)
  | '!' :: '/' :: t => (true, true, t)
  | '!' :: t => (true, false, t)
  | '/' :: t => (false, true, t)
  | t => (false, false, t)

/-- The end of a line: whether it is about directories only, and the line without the slash that says
so. -/
def readEnd (s : List Char) : Bool × List Char :=
  match s.reverse with
  | '/' :: '\\' :: t => (true, t.reverse)
  | '/' :: t => (true, t.reverse)
  | _ => (false, s)

/-- The glob of a line. A line without a slash matches at any depth, and a line that ends in `/**` matches
what is inside a directory but not the directory. -/
def globText (bound : Bool) (s : List Char) : List Char :=
  let deep := bound || s.contains '/' || s == "**".toList
  -- A line without a slash is about names at any depth.
  let s := if deep then s else "**/".toList ++ s
  if Text.endsWith "/**".toList s then s ++ "/*".toList else s

/-- **The rule of a line**, unless the line is blank, a comment, or no glob. -/
def ofLine? (line : List Char) : Option IgnoreRule :=
  if line.head? == some '#' then none
  else
    let s := trimLine line
    if s.isEmpty then none
    else
      let (admits, bound, s) := readStart s
      let (directoriesOnly, s) := readEnd s
      (Glob.read? (globText bound s)).map fun parts =>
        { pattern := Glob.pattern parts, admits, directoriesOnly }

/-- Whether a rule is about a path below its list. -/
def covers (r : IgnoreRule) (path : List Char) (isDirectory : Bool) : Bool :=
  (isDirectory || !r.directoriesOnly) && r.pattern.startsIn path

end IgnoreRule

/-- **A list of ignored files**, and the directory that it is about. -/
structure IgnoreList where
  directory : Location
  rules : List IgnoreRule

namespace IgnoreList

/-- The list of a text. A byte order mark at its start does not count. -/
def ofText (directory : Location) (text : List Char) : IgnoreList :=
  let text := if text.head? == some '\uFEFF' then text.tail else text
  { directory, rules := (Text.lines text).filterMap IgnoreRule.ofLine? }

/-- What a list says about a location below its directory: the last rule that covers it counts. -/
def verdict? (l : IgnoreList) (p : Location) (isDirectory : Bool) : Option Bool :=
  let path := Glob.byteChars (Text.joined "/" (p.drop l.directory.length)).toList
  (l.rules.reverse.find? fun r => r.covers path isDirectory).map (·.admits)

end IgnoreList

/-- **All lists of a tree**, by kind, those that go first first. -/
structure IgnoreLists where
  kinds : List (List IgnoreList) := []

namespace IgnoreLists

/-- The names under which lists are found, below the directory that they are about. -/
def listNames : List Location :=
  [[".ignore"], [".gitignore"], [".git", "info", "exclude"]]

/-- The lists of one kind. -/
def ofKind (t : FileTree) (name : Location) : List IgnoreList :=
  t.files.filterMap fun f =>
    if name.isSuffixOf f.1 then
      some (IgnoreList.ofText (f.1.take (f.1.length - name.length)) (Utf8.lenient f.2))
    else none

/-- The lists of a tree. -/
def ofTree (t : FileTree) : IgnoreLists :=
  { kinds := listNames.map (ofKind t) }

/-- What the lists of one kind say about a location: the nearest directory with an opinion counts. -/
def nearest? (lists : List IgnoreList) (p : Location) (isDirectory : Bool) : Option Bool :=
  (List.range p.length).reverse.findSome? fun n =>
    (lists.filter fun l => l.directory == p.take n).findSome? fun l => l.verdict? p isDirectory

/-- **What the lists say about a location**: that it is admitted, that it is excluded, or nothing. -/
def verdict? (l : IgnoreLists) (p : Location) (isDirectory : Bool) : Option Bool :=
  l.kinds.findSome? fun lists => nearest? lists p isDirectory

/-- Whether a name is hidden. -/
def isHidden (p : Location) : Bool :=
  p.getLast?.any fun name => name.toList.head? == some '.'

/-- **Whether a file or directory is seen**: the lists admit it, or they say nothing and it is not
hidden. -/
def admits (l : IgnoreLists) (p : Location) (isDirectory : Bool) : Bool :=
  (l.verdict? p isDirectory).getD (!isHidden p)

end IgnoreLists

end CodeAtlas
