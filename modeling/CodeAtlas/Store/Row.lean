import CodeAtlas.Property
import CodeAtlas.Taxonomy

/-!
# Rows of an answer

A row maps the columns of a query to JSON values. Stores differ in how they give values back, so a column
is read with some tolerance: a number may come as its text, a list as the text of a JSON array. `decode`
undoes that for the rows that are shown.
-/

namespace CodeAtlas

/-- **A row of an answer**: the value of each column. -/
abbrev Row := Keyed Json

namespace Row

/-- The row of a JSON object. -/
def ofJson? : Json → Option Row
  | .obj fields => some (Keyed.ofList fields)
  | _ => none

/-- The JSON form of a row. -/
def toJson (r : Row) : Json :=
  .obj r.entries

/-- The text of a column. Null and a missing column are empty; other values are written out. -/
def text (r : Row) (column : String) : String :=
  match r.get? column with
  | none => ""
  | some .null => ""
  | some (.str s) => s
  | some v => v.compact

/-- Whether an integer has 64 bits. -/
def isShort (n : Int) : Bool :=
  decide (Int64.minValue.toInt ≤ n ∧ n ≤ Int64.maxValue.toInt)

/-- The integer that a text of digits spells, with at most one sign in front. -/
def integerOfDigits? : List Char → Option Int
  | '-' :: ds => if digits ds then some (-(Json.digitsValue ds : Int)) else none
  | '+' :: ds => if digits ds then some (Json.digitsValue ds) else none
  | ds => if digits ds then some (Json.digitsValue ds) else none
where
  /-- Whether a text consists of digits, and of one at least. -/
  digits (ds : List Char) : Bool := !ds.isEmpty && ds.all Text.isAsciiDigit

/-- The 64-bit integer that a text spells, white space around it aside. -/
def integerOfText? (s : String) : Option Int :=
  (integerOfDigits? (Text.trim s.toList)).filter isShort

/-- The integer of a column. -/
def number? (r : Row) (column : String) : Option Int :=
  match r.get? column with
  | some (.int n) => if isShort n then some n else none
  | some (.str s) => integerOfText? s
  | _ => none

/-- The truth value of a column. -/
def flag (r : Row) (column : String) : Bool :=
  match r.get? column with
  | some (.bool b) => b
  | some (.str s) => s == "true"
  | _ => false

/-- The kind of node that a column names. -/
def kind? (r : Row) (column : String) : Option NodeKind :=
  NodeKind.ofLabel? (r.text column)

/-- Whether the list of a column holds an item. -/
def listContains (r : Row) (column item : String) : Bool :=
  match r.get? column with
  | some (.arr items) => items.any fun v => v.text? == some item
  | _ => ((Json.readStrings? (r.text column).toList).getD []).contains item

/-! ### Decoding -/

/-- The columns that hold integers and nothing else. A number in any other column stays a text. -/
def integerColumns : List String := ["line", "end_line", "line_count", "length", "depth"]

/-- A value as it is shown in a column: lists are read from their text, and integers where the column
holds nothing else. -/
def decodeValue (column : String) : Json → Json
  | .str s =>
    if s.toList.head? == some '[' then
      match Json.readStrings? s.toList with
      | some l => Json.ofTexts l
      | none => .str s
    else if integerColumns.contains column then
      match integerOfText? s with
      | some n => .int n
      | none => .str s
    else .str s
  | v => v

/-- **A row as it is shown.** -/
def decode (r : Row) : Json :=
  .obj (r.entries.map fun e => (e.1, decodeValue e.1 e.2))

/-! ### Ordering -/

/-- Rows put in the order of a key, rows with the same key keeping their order. -/
def sortedBy {κ : Type} (le : κ → κ → Bool) (key : Row → κ) (rows : List Row) : List Row :=
  rows.mergeSort fun a b => le (key a) (key b)

/-- The order of pairs of texts. -/
def pairLe (a b : String × String) : Bool :=
  a.1 < b.1 || (a.1 == b.1 && !(b.2 < a.2))

/-- The order of a number and a text. -/
def placeLe (a b : Int × String) : Bool :=
  a.1 < b.1 || (a.1 == b.1 && !(b.2 < a.2))

/-- The order of a text, a number and a text. -/
def fileLe (a b : String × Int × String) : Bool :=
  a.1 < b.1 || (a.1 == b.1 && placeLe a.2 b.2)

/-- The line and the name of a row. -/
def place (r : Row) : Int × String :=
  ((r.number? "line").getD 0, r.text "name")

/-- Rows by file, line and name, as they are shown. -/
def byFile (rows : List Row) : List Json :=
  (sortedBy fileLe (fun r => (r.text "file", r.place)) rows).map decode

end Row

end CodeAtlas
