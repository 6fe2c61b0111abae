import CodeAtlas.Digest
import CodeAtlas.Text.Basic

/-!
# JSON values

Rows of an answer, stored lists and descriptions are JSON values. A number is kept as an integer where
it was written as one, and otherwise as a decimal: a value such as `1000.0` is not the integer `1000`.

* `Json` — the values; the fields of an object keep the order in which they are listed;
* `Json.compact`, `Json.pretty` — the two ways of writing a value;
* `quoteChars` — the escaping of text inside quotes.
-/

namespace CodeAtlas

/-- **A decimal number that is not written as an integer**: `digits · 10 ^ exponent`. -/
structure Decimal where
  /-- The digits, with the sign. -/
  digits : Int
  /-- The power of ten. -/
  exponent : Int
  deriving DecidableEq, Repr

/-- **A JSON value.** -/
inductive Json where
  | null
  | bool (b : Bool)
  | int (n : Int)
  | decimal (d : Decimal)
  | str (s : String)
  | arr (items : List Json)
  | obj (fields : List (String × Json))

namespace Json

instance : Inhabited Json := ⟨.null⟩

/-! ### Escaped text -/

/-- How one character is written between double quotes. -/
def quoteChar (c : Char) : List Char :=
  if c = '"' then ['\\', '"']
  else if c = '\\' then ['\\', '\\']
  else if c = '\n' then ['\\', 'n']
  else if c = '\r' then ['\\', 'r']
  else if c = '\t' then ['\\', 't']
  else if c.toNat = 8 then ['\\', 'b']
  else if c.toNat = 12 then ['\\', 'f']
  else if c.toNat < 32 then
    ['\\', 'u', '0', '0', Digest.hexDigit (c.toNat / 16), Digest.hexDigit (c.toNat % 16)]
  else [c]

/-- The characters of a text as they are written between double quotes. -/
def quoteChars (s : List Char) : List Char :=
  s.flatMap quoteChar

/-- A text between double quotes. -/
def quoted (s : String) : List Char :=
  '"' :: quoteChars s.toList ++ ['"']

/-! ### Numbers -/

/-- The decimal digits of a natural number. -/
def natChars (n : Nat) : List Char :=
  Nat.toDigits 10 n

/-- The text of an integer. -/
def intChars (n : Int) : List Char :=
  if n < 0 then '-' :: natChars n.natAbs else natChars n.natAbs

/-- Digits without trailing zeros, and the number of zeros that went; `n` bounds their number. -/
def shiftZeros : (n : Nat) → (digits : Nat) → Nat × Nat
  | 0, d => (d, 0)
  | n + 1, d => if d ≠ 0 ∧ d % 10 = 0 then
      let r := shiftZeros n (d / 10)
      (r.1, r.2 + 1)
    else (d, 0)

/-- **The text of a decimal.** Digits are positional while the point falls within the first sixteen
places or at most four zeros follow it, a positional number always shows a digit after its point, and
any other number is written with one digit before the point and a power of ten. -/
def Decimal.chars (d : Decimal) : List Char :=
  let sign := if d.digits < 0 then ['-'] else []
  let size := (natChars d.digits.natAbs).length
  let (m, zeros) := shiftZeros size d.digits.natAbs
  let ds := natChars m
  let k : Int := d.exponent + zeros
  let point : Int := ds.length + k
  if m = 0 then sign ++ ['0', '.', '0']
  else if 0 ≤ k ∧ point ≤ 16 then sign ++ ds ++ List.replicate k.toNat '0' ++ ['.', '0']
  else if 0 < point ∧ point ≤ 16 then
    sign ++ ds.take point.toNat ++ ['.'] ++ ds.drop point.toNat
  else if -5 < point ∧ point ≤ 0 then
    sign ++ ['0', '.'] ++ List.replicate (-point).toNat '0' ++ ds
  else
    let tail := match ds with
      | [c] => [c]
      | c :: rest => c :: '.' :: rest
      | [] => []
    sign ++ tail ++ ['e'] ++ intChars (point - 1)

/-! ### Writing values -/

mutual

/-- The characters of a value, without any white space. -/
def compactChars : Json → List Char
  | .null => ['n', 'u', 'l', 'l']
  | .bool true => ['t', 'r', 'u', 'e']
  | .bool false => ['f', 'a', 'l', 's', 'e']
  | .int n => intChars n
  | .decimal d => Decimal.chars d
  | .str s => quoted s
  | .arr items => '[' :: compactItems items ++ [']']
  | .obj fields => '{' :: compactFields fields ++ ['}']

/-- The items of an array, with commas between them. -/
def compactItems : List Json → List Char
  | [] => []
  | [v] => compactChars v
  | v :: w :: rest => compactChars v ++ ',' :: compactItems (w :: rest)

/-- The fields of an object, with commas between them. -/
def compactFields : List (String × Json) → List Char
  | [] => []
  | [(k, v)] => quoted k ++ ':' :: compactChars v
  | (k, v) :: f :: rest => quoted k ++ ':' :: compactChars v ++ ',' :: compactFields (f :: rest)

end

/-- A value on one line, without white space between its parts. -/
def compact (v : Json) : String :=
  String.ofList (compactChars v)

/-- The start of a new line at the given depth. -/
def newline (depth : Nat) : List Char :=
  '\n' :: List.replicate (2 * depth) ' '

mutual

/-- The characters of a value whose containers are opened over several lines. -/
def prettyChars (depth : Nat) : Json → List Char
  | .arr [] => ['[', ']']
  | .arr (v :: rest) => '[' :: prettyItems (depth + 1) (v :: rest) ++ newline depth ++ [']']
  | .obj [] => ['{', '}']
  | .obj (f :: rest) => '{' :: prettyFields (depth + 1) (f :: rest) ++ newline depth ++ ['}']
  | v => compactChars v

/-- The items of an array, each on a line of its own. -/
def prettyItems (depth : Nat) : List Json → List Char
  | [] => []
  | [v] => newline depth ++ prettyChars depth v
  | v :: w :: rest =>
    newline depth ++ prettyChars depth v ++ ',' :: prettyItems depth (w :: rest)

/-- The fields of an object, each on a line of its own. -/
def prettyFields (depth : Nat) : List (String × Json) → List Char
  | [] => []
  | [(k, v)] => newline depth ++ quoted k ++ ':' :: ' ' :: prettyChars depth v
  | (k, v) :: f :: rest =>
    newline depth ++ quoted k ++ ':' :: ' ' :: prettyChars depth v
      ++ ',' :: prettyFields depth (f :: rest)

end

/-- A value over several lines, two spaces to a level. -/
def pretty (v : Json) : String :=
  String.ofList (prettyChars 0 v)

/-! ### Parts of values -/

/-- The field of an object with the given name. -/
def field? (name : String) : Json → Option Json
  | .obj fields => fields.lookup name
  | _ => none

/-- The text of a string value. -/
def text? : Json → Option String
  | .str s => some s
  | _ => none

/-- The list of a value that is an array of strings. -/
def texts? : Json → Option (List String)
  | .arr items => items.mapM text?
  | _ => none

/-- An array of strings. -/
def ofTexts (l : List String) : Json :=
  .arr (l.map .str)

/-- A string, or null for none. -/
def ofText? : Option String → Json
  | some s => .str s
  | none => .null

end Json

end CodeAtlas
