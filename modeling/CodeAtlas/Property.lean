import CodeAtlas.Keyed
import CodeAtlas.Json.Reader

/-!
# Property values

A node or a relationship carries properties: a map from names to booleans, 64-bit integers, texts and
lists of texts. Two forms of a value matter outside: the *storage text*, in which a list is a JSON array
of strings, and the JSON value.

`Property.isEmpty` says which values carry no information: blank texts and empty lists.
-/

namespace CodeAtlas

/-- **The value of a property.** -/
inductive Property where
  | flag (b : Bool)
  | integer (n : Int64)
  | text (s : String)
  | list (items : List String)
  deriving DecidableEq

namespace Property

/-- A natural number as a property; what exceeds the largest 64-bit integer is cut to it. -/
def ofNat (n : Nat) : Property :=
  if n ≤ Int64.maxValue.toNatClampNeg then .integer (Int64.ofNat n) else .integer Int64.maxValue

/-- Whether a value carries no information. -/
def isEmpty : Property → Bool
  | .text s => Text.isBlankString s
  | .list items => items.isEmpty
  | .flag _ => false
  | .integer _ => false

/-- The text of a truth value. -/
def flagText (b : Bool) : String :=
  if b then "true" else "false"

/-- **The text under which a value is stored.** Lists become a JSON array, so they can be read back. -/
def storageText : Property → String
  | .flag b => flagText b
  | .integer n => String.ofList (Json.intChars n.toInt)
  | .text s => s
  | .list items => Json.writeStrings items

/-- The text of a text value. -/
def text? : Property → Option String
  | .text s => some s
  | _ => none

/-- The items of a list value. -/
def list? : Property → Option (List String)
  | .list items => some items
  | _ => none

/-- The JSON form of a value. -/
def toJson : Property → Json
  | .flag b => .bool b
  | .integer n => .int n.toInt
  | .text s => .str s
  | .list items => Json.ofTexts items

/-- The value of a JSON form: a truth value, an integer of 64 bits, a string or an array of strings. -/
def ofJson? : Json → Option Property
  | .bool b => some (.flag b)
  | .int n => if Int64.minValue.toInt ≤ n ∧ n ≤ Int64.maxValue.toInt then some (.integer (Int64.ofInt n)) else none
  | .str s => some (.text s)
  | .arr items => (items.mapM Json.text?).map .list
  | _ => none

end Property

/-- The properties of a node or a relationship. -/
abbrev Properties := Keyed Property

namespace Properties

/-- The JSON form of properties: an object in the order of the names. -/
def toJson (ps : Properties) : Json :=
  .obj (ps.entries.map fun e => (e.1, e.2.toJson))

/-- The properties of a JSON object. -/
def ofJson? : Json → Option Properties
  | .obj fields => do
    let entries ← fields.mapM fun f => (Property.ofJson? f.2).map fun v => (f.1, v)
    return Keyed.ofList entries
  | _ => none

end Properties

end CodeAtlas
