import CodeAtlas.Text.Basic

/-!
# Tokens

Java and Python are read from tokens. A token keeps the blanks and comments before it (its *lead*), so
that no character of the source is lost and the source text of a stretch of tokens is a concatenation:
the text of its first token, then lead and text of every other one.

What the tokens of a language are is said by a `Lexicon`: at a place in the source, how long the next
blank, comment or token is. The reading of a source (`Lexicon.tokens`) goes over it once, character by
character. A lexicon may keep a state from token to token.

The last token of every source is empty and of kind `ending`; its lead is what follows the last token
proper.
-/

namespace CodeAtlas

/-- The kinds of tokens. -/
inductive TokenKind where
  /-- An identifier or a keyword. -/
  | word
  /-- A number, a character or a string. -/
  | literal
  /-- An operator, a separator or a bracket. -/
  | symbol
  /-- The end of the source. -/
  | ending
  deriving DecidableEq, Repr

/-- A place in a source: the row and the column, both counted from zero, and the number of bytes before it. -/
structure Place where
  row : Nat := 0
  column : Nat := 0
  offset : Nat := 0
  deriving DecidableEq, Repr

/-- The place after a character. A tab counts for eight columns; a carriage return and a form feed start
the columns of a row afresh. -/
def Place.after (p : Place) (c : Char) : Place :=
  let offset := p.offset + c.utf8Size
  if c = '\n' then { row := p.row + 1, column := 0, offset }
  else if c = '\r' ∨ c = '\x0c' then { p with column := 0, offset }
  else if c = '\t' then { p with column := p.column + 8, offset }
  else { p with column := p.column + 1, offset }

/-- **A comment.** -/
structure Comment where
  text : List Char
  place : Place
  deriving DecidableEq, Repr

/-- **A token.** -/
structure Token where
  kind : TokenKind
  text : List Char
  place : Place
  /-- The blanks and comments between the token before and this one. -/
  lead : List Char := []
  /-- The comments of the lead. -/
  comments : List Comment := []
  deriving DecidableEq, Repr

namespace Token

/-- The row in which a text ends that starts in a row. -/
def endRow (row : Nat) (text : List Char) : Nat :=
  row + text.count '\n'

/-- The row in which a token ends. -/
def lastRow (t : Token) : Nat := endRow t.place.row t.text

/-- Whether a token has a given text. -/
def is (t : Token) (s : String) : Bool := t.text == s.toList

end Token

/-- **What stands next in a source**, with its length. -/
inductive Lexeme (σ : Type) where
  | blank (length : Nat)
  | comment (length : Nat)
  | token (kind : TokenKind) (length : Nat) (state : σ)

/-- **The tokens of a language.** -/
structure Lexicon (σ : Type) where
  /-- The state before the first token. -/
  start : σ
  /-- What stands at the start of a text that is not empty. A length of zero counts as one. -/
  next : σ → List Char → Lexeme σ

namespace Lexicon

variable {σ : Type}

/-- The rest of a source read. `skip` characters belong to what has been read already; `lead` (reversed)
and `comments` were read since the last token. -/
def tokensFrom (x : Lexicon σ) (state : σ) (skip : Nat) (place : Place) (lead : List Char)
    (comments : List Comment) : List Char → List Token
  | [] => [{ kind := .ending, text := [], place, lead := lead.reverse, comments }]
  | c :: rest =>
    match skip with
    | skip + 1 => tokensFrom x state skip (place.after c) lead comments rest
    | 0 =>
      match x.next state (c :: rest) with
      | .blank n =>
        tokensFrom x state (n - 1) (place.after c) (((c :: rest).take (max n 1)).reverse ++ lead)
          comments rest
      | .comment n =>
        let text := (c :: rest).take (max n 1)
        tokensFrom x state (n - 1) (place.after c) (text.reverse ++ lead)
          (comments ++ [{ text, place }]) rest
      | .token kind n state =>
        { kind, text := (c :: rest).take (max n 1), place, lead := lead.reverse, comments }
          :: tokensFrom x state (n - 1) (place.after c) [] [] rest

/-- **The tokens of a source.** -/
def tokens (x : Lexicon σ) (source : List Char) : List Token :=
  tokensFrom x x.start 0 {} [] [] source

end Lexicon

namespace Lexeme

/-! ### Lengths -/

/-- The length of a line comment: all up to the line feed. -/
def lineLength (s : List Char) : Nat :=
  (s.takeWhile (· != '\n')).length

/-- The length of a text up to and with the first occurrence of a mark, or all of it. -/
def lengthThrough (mark s : List Char) : Nat :=
  match Text.cutText? mark s with
  | some (before, _) => before.length + mark.length
  | none => s.length

/-- The length of a quoted text after its opening mark, up to and with its closing mark. A backslash
takes the character after it along. -/
def quotedLength (mark : List Char) : List Char → Nat
  | [] => 0
  | [_] => 1
  | c :: d :: s =>
    if (Text.stripPrefix? mark (c :: d :: s)).isSome then mark.length
    else if c = '\\' then quotedLength mark s + 2
    else quotedLength mark (d :: s) + 1

/-- The length of a word: word characters and `$`. -/
def wordLength (s : List Char) : Nat :=
  (s.takeWhile fun c => Text.isWord c || c == '$').length

/-- The length of a number. Letters, digits and `_` belong to it, and so does a sign after the mark of an
exponent, which is `p` in a hexadecimal number and `e` in any other. One point does too, unless the
exponent or the mark of an imaginary number came before it; `point` says whether it may still come. -/
def numberLength (exponents : List Char) (point : Bool) : List Char → Nat
  | [] => 0
  | c :: s =>
    if Text.isIdentifier c || (point && c == '.') then
      let point := point && c != '.' && c != 'j' && c != 'J' && !exponents.contains c
      match s with
      | d :: s' =>
        if exponents.contains c && (d == '+' || d == '-') then numberLength exponents point s' + 2
        else numberLength exponents point (d :: s') + 1
      | [] => 1
    else 0

/-- The marks of an exponent of the number at the start of a text. -/
def exponentMarks : List Char → List Char
  | '0' :: 'x' :: _ => ['p', 'P']
  | '0' :: 'X' :: _ => ['p', 'P']
  | _ => ['e', 'E']

/-- The length of the first of some texts at the start of a text, and one if there is none. -/
def symbolLength (symbols : List String) (s : List Char) : Nat :=
  match symbols.find? fun m => Text.startsWith m.toList s with
  | some m => m.length
  | none => 1

end Lexeme

end CodeAtlas
