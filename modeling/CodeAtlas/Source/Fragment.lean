import CodeAtlas.Text.Basic

/-!
# Pieces of code

The readers of lines take declarations apart with a handful of cuts that know brackets, annotations and
calls. They work on code, that is, on text without comments and string contents.

* `splitTopLevel` — the parts between the separators that stand outside all brackets;
* `closing?` — the two sides of the parenthesis that closes the first one;
* `stripAnnotations` — leading annotations with their arguments;
* `baseTypeName` — a type without its arguments and without the mark of nullability;
* `decisions` — the number of decision points;
* `calls` — the identifiers that are called, with what stands before their dot.
-/

namespace CodeAtlas.Fragment

open Text

/-! ### Brackets -/

/-- The nesting level after a character, all four kinds of brackets counted together. -/
def levelStep (level : Int) (c : Char) : Int :=
  if c = '(' ∨ c = '<' ∨ c = '[' ∨ c = '{' then level + 1
  else if c = ')' ∨ c = '>' ∨ c = ']' ∨ c = '}' then level - 1
  else level

/-- A part that is to be listed: trimmed, and dropped if nothing is left of it. -/
def listPart (run : List Char) (parts : List (List Char)) : List (List Char) :=
  let part := trim run.reverse
  if part = [] then parts else part :: parts

/-- The parts of the rest of a text; `run` is the part being read, reversed. -/
def splitFrom (sep : Char) (level : Int) (run : List Char) : List Char → List (List Char)
  | [] => listPart run []
  | c :: rest =>
    let level := levelStep level c
    if c = sep ∧ level = 0 then listPart run (splitFrom sep level [] rest)
    else splitFrom sep level (c :: run) rest

/-- **The parts of a text between the separators at level zero**, trimmed and without empty ones. -/
def splitTopLevel (text : List Char) (sep : Char) : List (List Char) :=
  splitFrom sep 0 [] text

/-- The two sides of the first closing bracket that closes down to level zero. -/
def closingFrom? (opening closing : Char) (level : Int) : List Char → Option (List Char × List Char)
  | [] => none
  | c :: rest =>
    if c = closing ∧ level - 1 = 0 then some ([], rest)
    else
      let level := if c = opening then level + 1 else if c = closing then level - 1 else level
      (closingFrom? opening closing level rest).map fun r => (c :: r.1, r.2)

/-- **The two sides of the parenthesis that closes the first one** of the text. -/
def closing? (text : List Char) : Option (List Char × List Char) :=
  closingFrom? '(' ')' 0 text

/-- **The list in angle brackets at the start of a text, and the rest.** A text that does not start with
one has an empty list; brackets that are never closed take all of the text. -/
def typeArguments (text : List Char) : List Char × List Char :=
  match text with
  | '<' :: body =>
    match closingFrom? '<' '>' 1 body with
    | some r => r
    | none => (body, [])
  | _ => ([], text)

/-- The text from a byte offset on, and the offset at which it starts: a character is taken whole. -/
def fromByte (offset at_ : Nat) : List Char → List Char × Nat
  | [] => ([], at_)
  | c :: rest => if offset ≤ at_ then (c :: rest, at_) else fromByte offset (at_ + c.utf8Size) rest

/-- The number of bytes of a text in UTF-8. -/
def byteLength (s : List Char) : Nat :=
  s.foldl (fun n c => n + c.utf8Size) 0

/-- The byte offset of the parenthesis that closes the first one from a byte offset on. -/
def matchingParen (text : List Char) (offset : Nat) : Option Nat :=
  let (rest, start) := fromByte offset 0 text
  (closing? rest).map fun r => start + byteLength r.1

/-! ### Names -/

/-- The identifier at the start of a text, leading white space aside. -/
def leadingIdentifier? (text : List Char) : Option (List Char) :=
  let name := (trimStart text).takeWhile isIdentifier
  if name = [] then none else some name

/-- What the name of an annotation is made of, its package and its target included. -/
def isAnnotationChar (c : Char) : Bool :=
  isIdentifier c || c == '.' || c == ':'

/-- The rest of a text after the arguments of an annotation: a parenthesis that may follow white space.
Arguments that are never closed take all of the text. -/
def dropArguments (text : List Char) : List Char :=
  let body := trimStart text
  if body.head? = some '(' then ((closing? body).map (·.2)).getD [] else text

/-- Up to `n` leading annotations and the rest of the text. -/
def stripUpTo : (n : Nat) → List Char → List (List Char) × List Char
  | 0, text => ([], text)
  | n + 1, text =>
    match text with
    | '@' :: rest =>
      let full := rest.takeWhile isAnnotationChar
      if full = [] then ([], text)
      else
        let name := afterLast '.' (afterLast ':' full)
        let r := stripUpTo n (trimStart (dropArguments (rest.dropWhile isAnnotationChar)))
        (name :: r.1, r.2)
    | _ => ([], text)

/-- **The leading annotations of a text and the rest.** An annotation is listed by its last name, without
target, package and arguments. -/
def stripAnnotations (text : List Char) : List (List Char) × List Char :=
  let body := trimStart text
  stripUpTo body.length body

/-- **A type without its arguments**: what stands before `<` and `(`, without question marks at the
end. -/
def baseTypeName (text : List Char) : List Char :=
  trim (dropEndWhile (· == '?') (trim (before (· == '(') (before (· == '<') (trim text)))))

/-! ### Decisions -/

/-- The maximal runs of identifier characters; `run` is the run being read, reversed. -/
def identifiersFrom (run : List Char) : List Char → List (List Char)
  | [] => if run = [] then [] else [run.reverse]
  | c :: rest =>
    if isIdentifier c then identifiersFrom (c :: run) rest
    else if run = [] then identifiersFrom [] rest
    else run.reverse :: identifiersFrom [] rest

/-- The maximal runs of identifier characters of a text. -/
def identifiers (text : List Char) : List (List Char) :=
  identifiersFrom [] text

/-- **The number of decision points of a text**: the given keywords as whole words, and the two
short-circuit operators. -/
def decisions (text : List Char) (keywords : List (List Char)) : Nat :=
  countPair '&' '&' text + countPair '|' '|' text
    + ((identifiers text).filter keywords.contains).length

/-! ### Calls -/

/-- Whether a parenthesis opens, spaces aside. -/
def opens (text : List Char) : Bool :=
  (text.dropWhile (· == ' ')).head? == some '('

/-- The identifier before the dot that precedes a name, from the text before the name, reversed. A
question mark before the dot does not matter, and without a dot there is none. -/
def qualifierOf : List Char → Option (List Char)
  | '.' :: '?' :: before => some (before.takeWhile isIdentifier).reverse
  | '.' :: before => some (before.takeWhile isIdentifier).reverse
  | _ => none

/-- The calls of the rest of a text; `run` is the identifier being read and `before` the text before it,
both reversed. -/
def callsFrom (skip : List (List Char)) (before run : List Char) :
    List Char → List (Option (List Char) × List Char)
  | [] => []
  | c :: rest =>
    if isIdentifier c then callsFrom skip before (c :: run) rest
    else
      let name := run.reverse
      let later := callsFrom skip (c :: (run ++ before)) [] rest
      if name ≠ [] ∧ opens (c :: rest) ∧ !(name.head?.any isAsciiDigit) ∧ !skip.contains name then
        (qualifierOf before, name) :: later
      else later

/-- **The calls of a text**: every identifier that a parenthesis follows, apart from numbers and the
words to skip, with the identifier before its dot. -/
def calls (text : List Char) (skip : List (List Char)) : List (Option (List Char) × List Char) :=
  callsFrom skip [] [] text

end CodeAtlas.Fragment
