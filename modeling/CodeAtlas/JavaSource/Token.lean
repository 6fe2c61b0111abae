import CodeAtlas.Syntax.Token

/-!
# The tokens of Java

Operators are kept apart only as far as reading needs it: `>` is always a token of its own, so that
nested type arguments close one by one, while `->`, `::`, `...`, the short-circuit operators and the
increments are taken whole. `non-sealed` is one word.
-/

namespace CodeAtlas.Java

open Text

/-- The operators of more than one character that matter. -/
def longSymbols : List String :=
  ["...", "->", "::", "&&", "||", "++", "--"]

/-- The length of the word at the start of a text. -/
def wordLength (s : List Char) : Nat :=
  match Text.stripPrefix? "non-sealed".toList s with
  | some rest => if rest.head?.any isIdentifier then 3 else 10
  | none => Lexeme.wordLength s

/-- What stands at the start of a text. -/
def nextLexeme (s : List Char) : Lexeme Unit :=
  match s with
  | [] => .blank 0
  | '/' :: '/' :: _ => .comment (Lexeme.lineLength s)
  | '/' :: '*' :: rest => .comment (2 + Lexeme.lengthThrough "*/".toList rest)
  | '"' :: '"' :: '"' :: rest => .token .literal (3 + Lexeme.quotedLength ['"', '"', '"'] rest) ()
  | '"' :: rest => .token .literal (1 + Lexeme.quotedLength ['"'] rest) ()
  | '\'' :: rest => .token .literal (1 + Lexeme.quotedLength ['\''] rest) ()
  | '.' :: d :: _ =>
    if isAsciiDigit d then .token .literal (Lexeme.numberLength ['e', 'E'] true s) ()
    else .token .symbol (Lexeme.symbolLength longSymbols s) ()
  | c :: _ =>
    if isBlank c || c == '\uFEFF' then .blank 1
    else if isAsciiDigit c then .token .literal (Lexeme.numberLength (Lexeme.exponentMarks s) true s) ()
    else if isIdentifier c then .token .word (wordLength s) ()
    else .token .symbol (Lexeme.symbolLength longSymbols s) ()

/-- The lexicon of Java. -/
def lexicon : Lexicon Unit where
  start := ()
  next := fun _ => nextLexeme

/-- The words that are no identifiers. -/
def reservedWords : List String :=
  ["abstract", "assert", "boolean", "break", "byte", "case", "catch", "char", "class", "const", "continue",
    "default", "do", "double", "else", "enum", "extends", "final", "finally", "float", "for", "goto", "if",
    "implements", "import", "instanceof", "int", "interface", "long", "native", "new", "package",
    "private", "protected", "public", "return", "short", "static", "strictfp", "super", "switch",
    "synchronized", "this", "throw", "throws", "transient", "try", "void", "volatile", "while", "true",
    "false", "null"]

/-- The reserved words that can stand in an operand, as `int` does in `int.class`. -/
def operandWords : List String :=
  ["boolean", "byte", "char", "class", "double", "float", "int", "long", "short", "super", "this", "void",
    "true", "false", "null"]

/-- The words that modify a declaration wherever they stand before one. -/
def modifierWords : List String :=
  ["public", "protected", "private", "abstract", "static", "final", "strictfp", "default", "synchronized",
    "native", "transient", "volatile", "non-sealed"]

end CodeAtlas.Java
