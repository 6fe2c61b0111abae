import CodeAtlas.Json.Basic

/-!
# Reading JSON

A text is first cut into tokens and the tokens are then folded into a value with a stack of the
containers that are still open, so both passes are recursions on a list and no nesting depth is a limit.

`Json.readStrings?` reads an array of strings and nothing else. It is the reader of stored lists and is
written on its own, so that it can be set beside the writer of such lists.
-/

namespace CodeAtlas.Json

/-! ### Escaped text -/

/-- The number that four hexadecimal digits stand for. -/
def hex4? (a b c d : Char) : Option Nat := do
  let a ← Text.hexDigitValue? a
  let b ← Text.hexDigitValue? b
  let c ← Text.hexDigitValue? c
  let d ← Text.hexDigitValue? d
  return ((a * 16 + b) * 16 + c) * 16 + d

/-- The character of an escape that has one letter. -/
def escaped? (c : Char) : Option Char :=
  if c = '"' ∨ c = '\\' ∨ c = '/' then some c
  else if c = 'n' then some '\n'
  else if c = 'r' then some '\r'
  else if c = 't' then some '\t'
  else if c = 'b' then some (Char.ofNat 8)
  else if c = 'f' then some (Char.ofNat 12)
  else none

/-- **The rest of a quoted text**: from after its opening quote, the characters that it stands for and
what follows its closing quote. Control characters, unknown escapes and halves of surrogate pairs are
refused. -/
def quotedTail? : List Char → Option (List Char × List Char)
  | [] => none
  | '"' :: rest => some ([], rest)
  | '\\' :: 'u' :: a :: b :: c :: d :: rest =>
    match hex4? a b c d with
    | none => none
    | some n =>
      if 0xD800 ≤ n ∧ n < 0xDC00 then
        match rest with
        | '\\' :: 'u' :: a :: b :: c :: d :: rest =>
          match hex4? a b c d with
          | none => none
          | some m =>
            if 0xDC00 ≤ m ∧ m < 0xE000 then
              (quotedTail? rest).map fun r =>
                (Char.ofNat (0x10000 + (n - 0xD800) * 0x400 + (m - 0xDC00)) :: r.1, r.2)
            else none
        | _ => none
      else if 0xDC00 ≤ n ∧ n < 0xE000 then none
      else (quotedTail? rest).map fun r => (Char.ofNat n :: r.1, r.2)
  | '\\' :: e :: rest =>
    match escaped? e with
    | none => none
    | some c => (quotedTail? rest).map fun r => (c :: r.1, r.2)
  | c :: rest =>
    if c.toNat < 32 ∨ c = '\\' then none
    else (quotedTail? rest).map fun r => (c :: r.1, r.2)

/-- White space between tokens. -/
def isGap (c : Char) : Bool :=
  c == ' ' || c == '\n' || c == '\r' || c == '\t'

/-! ### Tokens -/

/-- A token of a JSON text. -/
inductive Token where
  /-- A value without parts. -/
  | leaf (v : Json)
  | openArray
  | closeArray
  | openObject
  | closeObject
  | comma
  | colon

/-- The value of a run of decimal digits. -/
def digitsValue (ds : List Char) : Nat :=
  ds.foldl (fun n c => n * 10 + (c.toNat - 48)) 0

/-- The integer with the given sign and size; what no machine integer holds is a decimal. -/
def ofIntegerText (negative : Bool) (n : Nat) : Json :=
  if negative then
    if n ≤ UInt64.size / 2 then .int (-(n : Int)) else .decimal ⟨-(n : Int), 0⟩
  else if n < UInt64.size then .int n
  else .decimal ⟨n, 0⟩

/-- The exponent that a number may end in: its value, and what follows. A mark without digits is
refused. -/
def exponentPart? (s : List Char) : Option (Option Int × List Char) :=
  match s with
  | e :: rest =>
    if e = 'e' ∨ e = 'E' then
      let (negative, ds) := match rest with
        | '-' :: t => (true, t)
        | '+' :: t => (false, t)
        | t => (false, t)
      let digits := ds.takeWhile Text.isAsciiDigit
      if digits = [] then none
      else
        let n : Int := digitsValue digits
        some (some (if negative then -n else n), ds.dropWhile Text.isAsciiDigit)
    else some (none, s)
  | [] => some (none, s)

/-- The fraction that a number may have: its digits, and what follows. A point without digits is
refused. -/
def fractionPart? (s : List Char) : Option (List Char × List Char) :=
  match s with
  | '.' :: rest =>
    let digits := rest.takeWhile Text.isAsciiDigit
    if digits = [] then none else some (digits, rest.dropWhile Text.isAsciiDigit)
  | _ => some ([], s)

/-- The number at the front of a text, and what follows it. -/
def number? (s : List Char) : Option (Json × List Char) := do
  let (negative, s) := match s with
    | '-' :: t => (true, t)
    | t => (false, t)
  let whole := s.takeWhile Text.isAsciiDigit
  if whole = [] ∨ (whole.length > 1 ∧ whole.head? = some '0') then none
  let (fraction, s) ← fractionPart? (s.dropWhile Text.isAsciiDigit)
  let (exponent, s) ← exponentPart? s
  let digits := digitsValue (whole ++ fraction)
  match fraction, exponent with
  | [], none => return (ofIntegerText negative digits, s)
  | _, _ =>
    let signed : Int := if negative then -(digits : Int) else digits
    return (.decimal ⟨signed, exponent.getD 0 - fraction.length⟩, s)

/-- The token at the front of a text that does not start with white space. -/
def token? : List Char → Option (Token × List Char)
  | [] => none
  | '[' :: s => some (.openArray, s)
  | ']' :: s => some (.closeArray, s)
  | '{' :: s => some (.openObject, s)
  | '}' :: s => some (.closeObject, s)
  | ',' :: s => some (.comma, s)
  | ':' :: s => some (.colon, s)
  | '"' :: s => (quotedTail? s).map fun r => (.leaf (.str (String.ofList r.1)), r.2)
  | 'n' :: 'u' :: 'l' :: 'l' :: s => some (.leaf .null, s)
  | 't' :: 'r' :: 'u' :: 'e' :: s => some (.leaf (.bool true), s)
  | 'f' :: 'a' :: 'l' :: 's' :: 'e' :: s => some (.leaf (.bool false), s)
  | s => (number? s).map fun r => (.leaf r.1, r.2)

/-- The tokens of a text; `n` bounds their number. -/
def tokensUpTo : (n : Nat) → List Char → Option (List Token)
  | 0, s => if s.all isGap then some [] else none
  | n + 1, s =>
    match s.dropWhile isGap with
    | [] => some []
    | c :: t =>
      match token? (c :: t) with
      | none => none
      | some (tok, rest) => (tokensUpTo n rest).map (tok :: ·)

/-- The tokens of a text, of which there are at most as many as characters. -/
def tokens? (s : List Char) : Option (List Token) :=
  tokensUpTo s.length s

/-! ### Values from tokens -/

/-- A container that is still open, with what it holds so far, the last part first. -/
inductive Frame where
  | array (items : List Json)
  | object (fields : List (String × Json))
  /-- An object whose last key still waits for its value. -/
  | entry (fields : List (String × Json)) (key : String)

/-- What may come next. -/
inductive Expect where
  /-- A value. -/
  | value
  /-- A value or the end of the array that was just opened. -/
  | valueOrClose
  /-- A key. -/
  | key
  /-- A key or the end of the object that was just opened. -/
  | keyOrClose
  /-- The colon after a key. -/
  | colon
  /-- A comma or the end of the innermost container. -/
  | commaOrClose
  /-- Nothing: the value is complete. -/
  | done (v : Json)

/-- A field put in the place of its key in a list ordered by keys; it replaces a field of its name. -/
def insertField (key : String) (v : Json) : List (String × Json) → List (String × Json)
  | [] => [(key, v)]
  | (k, w) :: rest =>
    if key < k then (key, v) :: (k, w) :: rest
    else if key = k then (key, v) :: rest
    else (k, w) :: insertField key v rest

/-- A complete value delivered to the innermost container, or to the outside. -/
def deliver (v : Json) : List Frame → List Frame × Expect
  | [] => ([], .done v)
  | .array items :: stack => (.array (v :: items) :: stack, .commaOrClose)
  | .entry fields key :: stack => (.object (insertField key v fields) :: stack, .commaOrClose)
  | .object fields :: stack => (.object fields :: stack, .commaOrClose)

/-- One token read with the open containers and what was expected. -/
def advance (stack : List Frame) : Expect → Token → Option (List Frame × Expect)
  | .value, .leaf v => some (deliver v stack)
  | .valueOrClose, .leaf v => some (deliver v stack)
  | .value, .openArray => some (.array [] :: stack, .valueOrClose)
  | .valueOrClose, .openArray => some (.array [] :: stack, .valueOrClose)
  | .value, .openObject => some (.object [] :: stack, .keyOrClose)
  | .valueOrClose, .openObject => some (.object [] :: stack, .keyOrClose)
  | .valueOrClose, .closeArray =>
    match stack with
    | .array items :: stack => some (deliver (.arr items.reverse) stack)
    | _ => none
  | .commaOrClose, .closeArray =>
    match stack with
    | .array items :: stack => some (deliver (.arr items.reverse) stack)
    | _ => none
  | .keyOrClose, .closeObject =>
    match stack with
    | .object fields :: stack => some (deliver (.obj fields) stack)
    | _ => none
  | .commaOrClose, .closeObject =>
    match stack with
    | .object fields :: stack => some (deliver (.obj fields) stack)
    | _ => none
  | .commaOrClose, .comma =>
    match stack with
    | .array items :: stack => some (.array items :: stack, .value)
    | .object fields :: stack => some (.object fields :: stack, .key)
    | _ => none
  | .key, .leaf (.str k) =>
    match stack with
    | .object fields :: stack => some (.entry fields k :: stack, .colon)
    | _ => none
  | .keyOrClose, .leaf (.str k) =>
    match stack with
    | .object fields :: stack => some (.entry fields k :: stack, .colon)
    | _ => none
  | .colon, .colon => some (stack, .value)
  | _, _ => none

/-- The value that a list of tokens completes, from the open containers and what is expected. -/
def fold (stack : List Frame) (expect : Expect) : List Token → Option Json
  | [] =>
    match expect with
    | .done v => some v
    | _ => none
  | t :: ts =>
    match advance stack expect t with
    | none => none
    | some (stack, expect) => fold stack expect ts

/-- **The value that a text writes**, if it writes one. The fields of every object come out in the order
of their keys, and the last of several fields of one name is kept. -/
def read? (s : List Char) : Option Json :=
  (tokens? s).bind (fold [] .value)

/-! ### Arrays of strings -/

/-- The strings of an array from after its opening bracket or a comma, where `first` says that the
bracket comes next and the array may end at once; `n` bounds their number. -/
def stringItems? : (n : Nat) → (first : Bool) → List Char → Option (List String)
  | 0, _, _ => none
  | n + 1, first, s =>
    match s.dropWhile isGap with
    | ']' :: rest => if first ∧ rest.all isGap then some [] else none
    | '"' :: rest =>
      match quotedTail? rest with
      | none => none
      | some (text, rest) =>
        match rest.dropWhile isGap with
        | ']' :: rest => if rest.all isGap then some [String.ofList text] else none
        | ',' :: rest => (stringItems? n false rest).map (String.ofList text :: ·)
        | _ => none
    | _ => none

/-- **The strings of a text that writes an array of strings**, and nothing of any other text. -/
def readStrings? (s : List Char) : Option (List String) :=
  match s.dropWhile isGap with
  | '[' :: rest => stringItems? rest.length true rest
  | _ => none

/-- The text of an array of strings, without white space. -/
def writeStrings (l : List String) : String :=
  Json.compact (Json.ofTexts l)

end CodeAtlas.Json
