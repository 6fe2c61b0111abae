import CodeAtlas.Text.Basic

/-!
# Source lines without comments and without the contents of strings

The readers of Kotlin and Dart look at one line at a time, and what they look at is the *code* of the
line: the line with its comments removed and its string literals emptied. A quote that opens a literal
and the quote that closes it stay, so `"abc"` leaves two quotes behind.

Comments and literals run over line ends, so the reading of a line starts in the `Mode` in which the line
before it ended. Block comments nest. A literal of one line is closed at the end of the line if it is
left open.

Beside its code, a line carries the brace depth at its start and at its end, which decides what a
declaration belongs to.
-/

namespace CodeAtlas

/-- **What the reading of a line is inside of.** -/
inductive Mode where
  | code
  /-- A block comment, with the number of comments that are open. -/
  | comment (level : Nat)
  /-- A string literal: its quote, whether three quotes close it, and whether backslashes count. -/
  | literal (quote : Char) (triple raw : Bool)
  deriving DecidableEq, Repr

/-- **A line of source text.** -/
structure SourceLine where
  /-- The number of the line, counted from one. -/
  number : Nat
  /-- The line without comments and without the contents of strings. -/
  code : List Char
  /-- The line as it stands. -/
  raw : List Char
  /-- The brace depth before the line. -/
  depth : Nat
  /-- The brace depth after the line. -/
  depthAfter : Nat
  deriving DecidableEq, Repr

namespace SourceLine

/-- Whether nothing but white space is left of the line. -/
def isBlank (l : SourceLine) : Bool :=
  Text.isBlankText l.code

/-! ### Reading one line -/

/-- The brace depth after a character of code. -/
def depthStep (depth : Nat) (c : Char) : Nat :=
  if c = '{' then depth + 1 else if c = '}' then depth - 1 else depth

/-- Whether the characters before a quote, the nearest first, make the literal a raw one: an `r` that is
not the end of a longer word. -/
def isRawMark : List Char → Bool
  | 'r' :: c :: _ => !Text.isIdentifier c
  | 'r' :: [] => true
  | _ => false

/-- Whether the next two characters are both `q`. -/
def twoMore (q : Char) : List Char → Bool
  | a :: b :: _ => a == q && b == q
  | _ => false

/-- **One line read, character by character.** `skip` characters ahead belong to a mark that has been
read already, and `before` holds the characters so far, the last one first. The result is the code that
was kept and the mode and the depth in which the line ends. -/
def readChars : Mode → (depth skip : Nat) → (before : List Char) → List Char → List Char × Mode × Nat
  | mode, depth, _, _, [] => ([], mode, depth)
  | mode, depth, skip + 1, before, c :: rest => readChars mode depth skip (c :: before) rest
  | .code, depth, 0, before, c :: rest =>
    -- A line comment ends the code of the line.
    if c = '/' ∧ rest.head? = some '/' then ([], .code, depth)
    else if c = '/' ∧ rest.head? = some '*' then readChars (.comment 1) depth 1 (c :: before) rest
    else if c = '"' ∨ c = '\'' then
      -- Of three quotes one is kept; the other two are skipped.
      let triple := twoMore c rest
      let r := readChars (.literal c triple (isRawMark before)) depth (if triple then 2 else 0)
        (c :: before) rest
      (c :: r.1, r.2)
    else
      let r := readChars .code (depthStep depth c) 0 (c :: before) rest
      (c :: r.1, r.2)
  | .comment level, depth, 0, before, c :: rest =>
    if c = '*' ∧ rest.head? = some '/' then
      readChars (if 1 < level then .comment (level - 1) else .code) depth 1 (c :: before) rest
    else if c = '/' ∧ rest.head? = some '*' then
      readChars (.comment (level + 1)) depth 1 (c :: before) rest
    else readChars (.comment level) depth 0 (c :: before) rest
  | .literal quote triple raw, depth, 0, before, c :: rest =>
    -- What follows a backslash neither closes the literal nor escapes again.
    if c = '\\' ∧ raw = false then
      readChars (.literal quote triple raw) depth 1 (c :: before) rest
    else if c = quote ∧ (triple = false ∨ twoMore quote rest) then
      let r := readChars .code depth (if triple then 2 else 0) (c :: before) rest
      (c :: r.1, r.2)
    else readChars (.literal quote triple raw) depth 0 (c :: before) rest

/-- A literal of one line does not run over the end of the line: what it leaves open is closed. -/
def closeLine : List Char × Mode × Nat → List Char × Mode × Nat
  | (code, .literal quote false _, depth) => (code ++ [quote], .code, depth)
  | r => r

/-- The line with the given number and text, read from a mode and a depth, and the mode in which the next
line starts. -/
def read (mode : Mode) (depth number : Nat) (raw : List Char) : SourceLine × Mode :=
  let r := closeLine (readChars mode depth 0 [] raw)
  ({ number, code := r.1, raw, depth, depthAfter := r.2.2 }, r.2.1)

/-- Lines read one after the other. -/
def readAll (mode : Mode) (depth number : Nat) : List (List Char) → List SourceLine
  | [] => []
  | raw :: rest =>
    let r := read mode depth number raw
    r.1 :: readAll r.2 r.1.depthAfter (number + 1) rest

/-- **The lines of a source text.** -/
def ofSource (source : List Char) : List SourceLine :=
  readAll .code 0 1 (Text.lines source)

end SourceLine

end CodeAtlas
