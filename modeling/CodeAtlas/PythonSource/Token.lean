import CodeAtlas.Syntax.Token

/-!
# The tokens of Python

Line ends are blanks here; where a statement ends is found out later, from the leads of tokens. A
formatted string is not one token: its opening quotes, the text between its replacement fields, the
fields and its closing quotes are tokens of their own, so that the code of the fields is read like any
other. The state of the reading is the stack of formatted strings and fields that are open.
-/

namespace CodeAtlas.Python

open Text

/-- **What the reading is inside of.** -/
inductive Layer where
  /-- The text of a formatted string with the given closing quotes. -/
  | text (quotes : List Char)
  /-- A replacement field, with the number of brackets open in it. -/
  | field (depth : Nat)
  /-- The format of a replacement field. -/
  | format
  deriving DecidableEq, Repr

/-- The operators of more than one character, longer ones first. -/
def longSymbols : List String :=
  ["...", "**=", "//=", ">>=", "<<=", "->", ":=", "==", "!=", "<=", ">=", "+=", "-=", "*=", "/=", "%=", "@=",
    "&=", "|=", "^=", "**", "//", "<<", ">>", "<>"]

/-- The quotes at the start of a text: three of a kind, or one. -/
def quotes? (s : List Char) : Option (List Char) :=
  match s with
  | a :: b :: c :: _ =>
    if (a == '"' || a == '\'') && b == a && c == a then some [a, a, a]
    else if a == '"' || a == '\'' then some [a]
    else none
  | a :: _ => if a == '"' || a == '\'' then some [a] else none
  | [] => none

/-- Whether a letter may stand before the quotes of a string. -/
def isStringLetter (c : Char) : Bool :=
  ['r', 'b', 'u', 'f', 'R', 'B', 'U', 'F'].contains c

/-- The letters and the quotes of the string at the start of a text. -/
def stringStart? (s : List Char) : Option (List Char × List Char) :=
  let letters := s.takeWhile isStringLetter
  (quotes? (s.drop letters.length)).map fun q => (letters, q)

/-- The length of the text of a formatted string up to the next field or the closing quotes. Doubled
braces are text, and so are the braces of a named character. -/
def formattedLength (quotes : List Char) (skip : Nat) : List Char → Nat
  | [] => 0
  | c :: rest =>
    match skip with
    | skip + 1 => formattedLength quotes skip rest + 1
    | 0 =>
      if startsWith quotes (c :: rest) then 0
      else if c == '\\' then
        match rest with
        | 'N' :: '\x7b' :: more =>
          formattedLength quotes (2 + Lexeme.lengthThrough ['\x7d'] more) rest + 1
        | d :: _ => formattedLength quotes (if d == '\x7b' || d == '\x7d' then 0 else 1) rest + 1
        | [] => 1
      else if c == '\x7b' then
        if rest.head? == some '\x7b' then formattedLength quotes 1 rest + 1 else 0
      else formattedLength quotes 0 rest + 1

/-- The length of the format of a field up to its end or the next field. -/
def formatLength (s : List Char) : Nat :=
  (s.takeWhile fun c => c != '\x7b' && c != '\x7d').length

/-- The stack after a symbol of code: brackets of a field are counted, a brace closes it, and a colon
starts its format. -/
def afterSymbol (layers : List Layer) (symbol : List Char) : List Layer :=
  match layers with
  | .field depth :: outer =>
    if symbol == ['('] || symbol == ['['] || symbol == ['\x7b'] then .field (depth + 1) :: outer
    else if depth == 0 && symbol == ['\x7d'] then outer
    else if depth == 0 && (symbol == [':'] || symbol == [':', '=']) then .format :: outer
    else if symbol == [')'] || symbol == [']'] || symbol == ['\x7d'] then .field (depth - 1) :: outer
    else layers
  | _ => layers

/-- The length of the number at the start of a text. Only a decimal number has a point. -/
def numberLength (s : List Char) : Nat :=
  let isDecimal : Bool := match s with
    | '0' :: c :: _ => c ∉ ['x', 'X', 'o', 'O', 'b', 'B']
    | _ => true
  Lexeme.numberLength (if isDecimal then ['e', 'E'] else []) isDecimal s

/-- What stands at the start of some code. -/
def nextInCode (layers : List Layer) (s : List Char) : Lexeme (List Layer) :=
  match s with
  | [] => .blank 0
  | '\\' :: '\n' :: _ => .blank 2
  | '\\' :: '\r' :: '\n' :: _ => .blank 3
  | '#' :: _ => .comment (Lexeme.lineLength s)
  | c :: _ =>
    match stringStart? s with
    | some (letters, quotes) =>
      let n := letters.length + quotes.length
      if letters.any fun c => c == 'f' || c == 'F' then .token .symbol n (.text quotes :: layers)
      else .token .literal (n + Lexeme.quotedLength quotes (s.drop n)) layers
    | none =>
      let startsNumber := isAsciiDigit c || (c == '.' && (s.drop 1).head?.any isAsciiDigit)
      if isBlank c || c == '\uFEFF' then .blank 1
      else if startsNumber then .token .literal (numberLength s) layers
      else if isIdentifier c then .token .word (Lexeme.wordLength s) layers
      else
        let n := Lexeme.symbolLength longSymbols s
        .token .symbol n (afterSymbol layers (s.take n))

/-- What stands at the start of a text, given what the reading is inside of. -/
def nextLexeme (layers : List Layer) (s : List Char) : Lexeme (List Layer) :=
  match layers with
  | .text quotes :: outer =>
    let n := formattedLength quotes 0 s
    if n ≠ 0 then .token .literal n layers
    else if startsWith quotes s then .token .symbol quotes.length outer
    else .token .symbol 1 (.field 0 :: layers)
  | .format :: outer =>
    let n := formatLength s
    if n ≠ 0 then .token .literal n layers
    else if s.head? == some '\x7d' then .token .symbol 1 outer
    else .token .symbol 1 (.field 0 :: layers)
  | _ => nextInCode layers s

/-- The lexicon of Python. -/
def lexicon : Lexicon (List Layer) where
  start := []
  next := nextLexeme

/-- The words that are no identifiers. -/
def reservedWords : List String :=
  ["False", "None", "True", "and", "as", "assert", "async", "await", "break", "class", "continue", "def",
    "del", "elif", "else", "except", "finally", "for", "from", "global", "if", "import", "in", "is",
    "lambda", "nonlocal", "not", "or", "pass", "raise", "return", "try", "while", "with", "yield"]

end CodeAtlas.Python
