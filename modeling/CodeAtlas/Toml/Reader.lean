import CodeAtlas.Toml.Basic

/-!
# Reading settings documents

`Toml.read?` reads the notation: comments, headers, dotted names, texts in four kinds of quotes, numbers,
dates, arrays and inline tables. Arrays may go over several lines, inline tables may not. What is no
document is refused as a whole.
-/

namespace CodeAtlas.Toml

/-! ### Blanks -/

/-- A space or a tab. -/
def isSpace (c : Char) : Bool :=
  c == ' ' || c == '\t'

/-- What is left after spaces. -/
def skipSpaces (s : List Char) : List Char :=
  s.dropWhile isSpace

/-- A character that may not stand in a document as it is. -/
def isForbidden (c : Char) : Bool :=
  (c.toNat < 0x20 && c != '\t') || c.toNat == 0x7f

/-- What is left after the end of a line, if the line ends here. -/
def lineEnd? : List Char → Option (List Char)
  | '\n' :: rest => some rest
  | '\r' :: '\n' :: rest => some rest
  | _ => none

/-- What is left after a comment, up to the end of its line. -/
def skipComment? : List Char → Option (List Char)
  | '#' :: rest =>
    let inside := rest.takeWhile fun c => c != '\n' && c != '\r'
    if inside.any isForbidden then none else some (rest.drop inside.length)
  | s => some s

/-- What is left after the rest of a line: spaces and a comment. -/
def finishLine? (s : List Char) : Option (List Char) :=
  (skipComment? (skipSpaces s)).bind fun s =>
    if s.isEmpty then some [] else lineEnd? s

/-- What is left after spaces, comments and ends of lines; `fuel` bounds the number of lines. -/
def skipLines? : (fuel : Nat) → List Char → Option (List Char)
  | 0, _ => none
  | fuel + 1, s =>
    (skipComment? (skipSpaces s)).bind fun s =>
      match lineEnd? s with
      | some rest => skipLines? fuel rest
      | none => some s

/-! ### Texts -/

/-- The character with a code point given by hexadecimal digits. -/
def codePoint? (digits : List Char) : Option Char :=
  (digits.foldlM (fun n c => (Text.hexDigitValue? c).map (n * 16 + ·)) 0).bind fun n =>
    if n < 0xD800 ∨ (0xDFFF < n ∧ n < 0x110000) then some (Char.ofNat n) else none

/-- The character that an escape stands for, from after the backslash, and what is left. -/
def escape? : List Char → Option (Char × List Char)
  | 'b' :: rest => some ('\x08', rest)
  | 't' :: rest => some ('\t', rest)
  | 'n' :: rest => some ('\n', rest)
  | 'f' :: rest => some ('\x0c', rest)
  | 'r' :: rest => some ('\r', rest)
  | '"' :: rest => some ('"', rest)
  | '\\' :: rest => some ('\\', rest)
  | 'u' :: rest => if rest.length < 4 then none else (codePoint? (rest.take 4)).map (·, rest.drop 4)
  | 'U' :: rest => if rest.length < 8 then none else (codePoint? (rest.take 8)).map (·, rest.drop 8)
  | _ => none

/-- The text of a double-quoted literal from after its quote, and what is left. -/
def quoted? : (fuel : Nat) → List Char → Option (List Char × List Char)
  | 0, _ => none
  | _, [] => none
  | _, '"' :: rest => some ([], rest)
  | fuel + 1, '\\' :: rest =>
    (escape? rest).bind fun (c, rest) => (quoted? fuel rest).map fun r => (c :: r.1, r.2)
  | fuel + 1, c :: rest =>
    if isForbidden c then none else (quoted? fuel rest).map fun r => (c :: r.1, r.2)

/-- The text of a single-quoted literal from after its quote, and what is left. -/
def literal? (s : List Char) : Option (List Char × List Char) :=
  (Text.cut? '\'' s).filter fun r => !r.1.any isForbidden

/-- What is left after a line break at the very start of a text over several lines. -/
def dropFirstBreak (s : List Char) : List Char :=
  (lineEnd? s).getD s

/-- A quotation mark and the number of times that it stands at the front of a text. -/
def runOf (q : Char) (s : List Char) : Nat :=
  (s.takeWhile (· == q)).length

/-- What is left after spaces and ends of lines. -/
def skipBlanks : List Char → List Char
  | [] => []
  | '\r' :: '\n' :: rest => skipBlanks rest
  | c :: rest => if isSpace c || c == '\n' then skipBlanks rest else c :: rest

/-- What is left after a backslash at the end of a line: the blanks up to the next text. -/
def joinLines? (s : List Char) : Option (List Char) :=
  (lineEnd? (skipSpaces s)).map skipBlanks

/-- **A text over several lines**, from after its three quotes, and what is left. It ends with three
quotes, of which up to two more in front belong to the text. Escapes count if `escapes` says so. -/
def block? (q : Char) (escapes : Bool) : (fuel : Nat) → List Char → Option (List Char × List Char)
  | 0, _ => none
  | _, [] => none
  | fuel + 1, c :: rest =>
    let n := runOf q (c :: rest)
    -- Up to two quotes directly before the closing three belong to the text.
    if 3 ≤ n then
      if n ≤ 5 then some (List.replicate (n - 3) q, (c :: rest).drop n) else none
    else if escapes && c == '\\' then
      match joinLines? rest with
      | some rest => block? q escapes fuel rest
      | none => (escape? rest).bind fun (c, rest) => (block? q escapes fuel rest).map fun r => (c :: r.1, r.2)
    else
      match lineEnd? (c :: rest) with
      | some rest => (block? q escapes fuel rest).map fun r => ('\n' :: r.1, r.2)
      | none =>
        if isForbidden c then none else (block? q escapes fuel rest).map fun r => (c :: r.1, r.2)

/-- The text at the front of a value, in any kind of quotes, and what is left. -/
def anyText? : List Char → Option (List Char × List Char)
  | '"' :: '"' :: '"' :: rest => block? '"' true (rest.length + 1) (dropFirstBreak rest)
  | '"' :: rest => quoted? (rest.length + 1) rest
  | '\'' :: '\'' :: '\'' :: rest => block? '\'' false (rest.length + 1) (dropFirstBreak rest)
  | '\'' :: rest => literal? rest
  | _ => none

/-! ### Names -/

/-- A character of a name without quotes. -/
def isBare (c : Char) : Bool :=
  Text.isAsciiLetter c || Text.isAsciiDigit c || c == '_' || c == '-'

/-- One part of a dotted name, and what is left. -/
def name? : List Char → Option (String × List Char)
  | '"' :: rest => (quoted? (rest.length + 1) rest).map fun r => (String.ofList r.1, r.2)
  | '\'' :: rest => (literal? rest).map fun r => (String.ofList r.1, r.2)
  | s =>
    let bare := s.takeWhile isBare
    if bare.isEmpty then none else some (String.ofList bare, s.drop bare.length)

/-- A dotted name, with spaces around its parts, and what is left. -/
def dottedName? : (fuel : Nat) → List Char → Option (List String × List Char)
  | 0, _ => none
  | fuel + 1, s =>
    (name? (skipSpaces s)).bind fun (k, rest) =>
      match skipSpaces rest with
      | '.' :: rest => (dottedName? fuel rest).map fun r => (k :: r.1, r.2)
      | rest => some ([k], rest)

/-! ### Numbers and dates -/

/-- The digits of a number, where single underscores may stand between digits. -/
def plainDigits? (isDigit : Char → Bool) (s : List Char) : Option (List Char) :=
  let parts := Text.pieces (· == '_') s
  if parts.all fun p => !p.isEmpty && p.all isDigit then some parts.flatten else none

/-- The value of digits in a base. -/
def inBase (base : Nat) (ds : List Char) : Nat :=
  ds.foldl (fun n c => n * base + (Text.hexDigitValue? c).getD 0) 0

/-- An integer, if it fits 64 bits. -/
def sized? (n : Int) : Option Toml :=
  if Int64.minValue.toInt ≤ n ∧ n ≤ Int64.maxValue.toInt then some (.integer n) else none

/-- The integer of decimal digits, which do not start with a zero. -/
def decimal? (negative : Bool) (s : List Char) : Option Toml :=
  (plainDigits? Text.isAsciiDigit s).bind fun ds =>
    if ds.head? == some '0' && 1 < ds.length then none
    else sized? (if negative then -(inBase 10 ds : Int) else inBase 10 ds)

/-- The sign of a number, and what follows it. -/
def splitSign : List Char → Bool × Bool × List Char
  | '-' :: t => (true, true, t)
  | '+' :: t => (true, false, t)
  | t => (false, false, t)

/-- The integer that a word writes. -/
def integer? (word : List Char) : Option Toml :=
  match word with
  | '0' :: 'x' :: t => (plainDigits? (fun c => (Text.hexDigitValue? c).isSome) t).bind (sized? <| inBase 16 ·)
  | '0' :: 'o' :: t => (plainDigits? (fun c => '0' ≤ c && c ≤ '7') t).bind (sized? <| inBase 8 ·)
  | '0' :: 'b' :: t => (plainDigits? (fun c => c == '0' || c == '1') t).bind (sized? <| inBase 2 ·)
  | _ =>
    let (_, negative, digits) := splitSign word
    decimal? negative digits

/-- Whether a text is that of an exponent, from after its mark. -/
def isExponent (s : List Char) : Bool :=
  (plainDigits? Text.isAsciiDigit (splitSign s).2.2).isSome

/-- Whether a word is a number with a fraction or an exponent. -/
def isFraction (word : List Char) : Bool :=
  let body := (splitSign word).2.2
  if body == "inf".toList || body == "nan".toList then true
  else
    let mantissa := body.takeWhile fun c => c != 'e' && c != 'E'
    let exponent := body.drop mantissa.length
    let whole := mantissa.takeWhile (· != '.')
    let fraction := mantissa.drop whole.length
    (decimal? false whole).isSome
      && (if fraction.isEmpty then !exponent.isEmpty
          else (plainDigits? Text.isAsciiDigit fraction.tail).isSome)
      && (exponent.isEmpty || isExponent exponent.tail)

/-- Whether a text has the shape of a sample, in which `0` stands for any digit. -/
def hasShape (sample : String) (s : List Char) : Bool :=
  sample.length == s.length
    && (sample.toList.zip s).all fun p => if p.1 == '0' then Text.isAsciiDigit p.2 else p.1 == p.2

/-- The number that two or four digits write at a place of a text. -/
def digitsAt (place count : Nat) (s : List Char) : Nat :=
  inBase 10 ((s.drop place).take count)

/-- The number of days in a month of a year. -/
def daysIn (year month : Nat) : Nat :=
  if month = 2 then
    if year % 4 = 0 ∧ (year % 100 ≠ 0 ∨ year % 400 = 0) then 29 else 28
  else if month ∈ [4, 6, 9, 11] then 30
  else 31

/-- Whether a word is a day of the calendar. -/
def isDay (s : List Char) : Bool :=
  let month := digitsAt 5 2 s
  let day := digitsAt 8 2 s
  hasShape "0000-00-00" s && 1 ≤ month && month ≤ 12
    && 1 ≤ day && day ≤ daysIn (digitsAt 0 4 s) month

/-- Whether a word is a time of the day, possibly with a fraction of a second. A minute may have a leap
second. -/
def isTime (s : List Char) : Bool :=
  hasShape "00:00:00" (s.take 8)
    && digitsAt 0 2 s < 24 && digitsAt 3 2 s < 60 && digitsAt 6 2 s ≤ 60
    && (match s.drop 8 with
      | [] => true
      | '.' :: ds => !ds.isEmpty && ds.all Text.isAsciiDigit
      | _ => false)

/-- What is left of a time without its distance from universal time. -/
def dropOffset (s : List Char) : List Char :=
  if s.getLast? == some 'Z' || s.getLast? == some 'z' then s.dropLast
  else
    let tail := s.drop (s.length - 6)
    if (hasShape "+00:00" tail || hasShape "-00:00" tail) && digitsAt 1 2 tail < 24 && digitsAt 4 2 tail < 60
    then s.take (s.length - 6)
    else s

/-- Whether a word is a date, a time, or both. -/
def isDate (word : List Char) : Bool :=
  isTime word
    || (isDay (word.take 10)
      && (match word.drop 10 with
        | [] => true
        | c :: rest => (c == 'T' || c == 't' || c == ' ') && isTime (dropOffset rest)))

/-- A character that numbers and dates are made of. -/
def isWordChar (c : Char) : Bool :=
  isBare c || c == '+' || c == '.' || c == ':'

/-- The word at the front of a value. A single space may stand between a date and a time. -/
def word (s : List Char) : List Char :=
  let first := s.takeWhile isWordChar
  match s.drop first.length with
  | ' ' :: rest =>
    let second := rest.takeWhile isWordChar
    if isDay first && isTime (dropOffset second) then first ++ ' ' :: second else first
  | _ => first

/-- The value that a word writes. -/
def ofWord? (w : List Char) : Option Toml :=
  if w == "true".toList then some (.flag true)
  else if w == "false".toList then some (.flag false)
  else
    match integer? w with
    | some v => some v
    | none =>
      if isFraction w then some (.fraction (String.ofList w))
      else if isDate w then some (.date (String.ofList w))
      else none

/-! ### Values -/

mutual

/-- **The value at the front of a text**, and what is left. -/
def value? : (fuel : Nat) → List Char → Option (Toml × List Char)
  | 0, _ => none
  | fuel + 1, s =>
    match s with
    | '[' :: rest => (items? fuel rest).map fun r => (.array r.1, r.2)
    | '{' :: rest =>
      match skipSpaces rest with
      | '}' :: rest => some (.table [], rest)
      | rest => (entries? fuel [] rest).map fun r => (.table (Section.entriesToToml r.1), r.2)
    | c :: _ =>
      if c == '"' || c == '\'' then (anyText? s).map fun r => (.text (String.ofList r.1), r.2)
      else
        let w := word s
        (ofWord? w).map (·, s.drop w.length)
    | [] => none

/-- The items of an array from after its bracket or a comma. -/
def items? : (fuel : Nat) → List Char → Option (List Toml × List Char)
  | 0, _ => none
  | fuel + 1, s =>
    match skipLines? (s.length + 1) s with
    | none => none
    | some (']' :: rest) => some ([], rest)
    | some s =>
      match value? fuel s with
      | none => none
      | some (v, rest) =>
        match skipLines? (rest.length + 1) rest with
        | some (',' :: rest) => (items? fuel rest).map fun r => (v :: r.1, r.2)
        | some (']' :: rest) => some ([v], rest)
        | _ => none

/-- The entries of an inline table from after its brace or a comma, added to those before. -/
def entries? : (fuel : Nat) → List (String × Section) → List Char →
    Option (List (String × Section) × List Char)
  | 0, _, _ => none
  | fuel + 1, before, s =>
    match dottedName? (s.length + 1) s with
    | some (path, '=' :: rest) =>
      match value? fuel (skipSpaces rest) with
      | none => none
      | some (v, rest) =>
        match Section.assign? path v before with
        | none => none
        | some entries =>
          match skipSpaces rest with
          | ',' :: rest => entries? fuel entries rest
          | '}' :: rest => some (entries, rest)
          | _ => none
    | _ => none

end

/-! ### Documents -/

/-- **A document that is being read**: its entries, and the table that lines belong to. -/
structure Document where
  entries : List (String × Section) := []
  current : List String := []

namespace Document

/-- The document behind a header, from after its bracket, and what is left. -/
def header? (d : Document) (s : List Char) : Option (Document × List Char) :=
  match dottedName? (s.length + 1) s with
  | some (path, ']' :: rest) =>
    (Section.open? path d.entries).map fun entries => ({ entries, current := path }, rest)
  | _ => none

/-- The document behind the header of an array of tables, from after its brackets, and what is left. -/
def arrayHeader? (d : Document) (s : List Char) : Option (Document × List Char) :=
  match dottedName? (s.length + 1) s with
  | some (path, ']' :: ']' :: rest) =>
    (Section.append? path d.entries).map fun entries => ({ entries, current := path }, rest)
  | _ => none

/-- The document behind a line with a value, and what is left. -/
def line? (d : Document) (s : List Char) : Option (Document × List Char) :=
  match dottedName? (s.length + 1) s with
  | some (path, '=' :: rest) =>
    match value? (rest.length + 1) (skipSpaces rest) with
    | none => none
    | some (v, rest) =>
      (Section.modifyAt? false (Section.assign? path v) d.current d.entries).map fun entries =>
        ({ d with entries }, rest)
  | _ => none

/-- One header or line, and what is left. -/
def step? (d : Document) : List Char → Option (Document × List Char)
  | '[' :: '[' :: rest => d.arrayHeader? rest
  | '[' :: rest => d.header? rest
  | s => d.line? s

/-- The document behind all headers and lines; `fuel` bounds their number. -/
def run? : (fuel : Nat) → Document → List Char → Option Document
  | 0, _, _ => none
  | fuel + 1, d, s =>
    match skipLines? (s.length + 1) s with
    | none => none
    | some [] => some d
    | some s =>
      match d.step? s with
      | none => none
      | some (d, rest) =>
        match finishLine? rest with
        | none => none
        | some rest => run? fuel d rest

end Document

/-- **What a text says as a settings document**, if it is one. -/
def read? (s : List Char) : Option Toml :=
  let s := if s.head? == some '\uFEFF' then s.tail else s
  (Document.run? (s.length + 1) {} s).map fun d => .table (Section.entriesToToml d.entries)

end CodeAtlas.Toml
