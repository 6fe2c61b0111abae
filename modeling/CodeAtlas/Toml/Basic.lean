import CodeAtlas.Text.Basic

/-!
# Settings documents

A settings document is a table of named values, written as `name = value` lines under `[table]` headers.
`Toml` holds what such a document says; `Section` is the form in which it is put together, because the
notation has rules on *how* a table may come about: a table is opened by one header, or by dotted names,
and never by both.

* `Section.modifyAt?` — a change below a dotted name;
* `Section.open?`, `Section.append?` — the two kinds of header;
* `Section.assign?` — a value under a dotted name.
-/

namespace CodeAtlas

/-- **A value of a settings document.** -/
inductive Toml where
  | text (s : String)
  | integer (n : Int)
  | flag (b : Bool)
  /-- A number with a fraction or an exponent, as it is written. -/
  | fraction (written : String)
  /-- A date, a time or both, as it is written. -/
  | date (written : String)
  | array (items : List Toml)
  | table (entries : List (String × Toml))

namespace Toml

instance : Inhabited Toml := ⟨.table []⟩

/-- The value of a name in a table. -/
def get? (name : String) : Toml → Option Toml
  | .table entries => entries.lookup name
  | _ => none

/-- The text of a text value. -/
def text? : Toml → Option String
  | .text s => some s
  | _ => none

/-- The truth value of a value. -/
def flag? : Toml → Option Bool
  | .flag b => some b
  | _ => none

/-- The natural number of a value. -/
def nat? : Toml → Option Nat
  | .integer n => if 0 ≤ n then some n.toNat else none
  | _ => none

/-- The texts of an array of texts. -/
def texts? : Toml → Option (List String)
  | .array items => items.mapM text?
  | _ => none

/-- **The values of a section** whose members have the given names in this order: the entries of a table, or
the items of an array by their places. A date is a section without any of these members; anything else is
no section. -/
def members? (names : List String) : Toml → Option (List (String × Toml))
  | .table entries => some entries
  | .array items => some (names.zip items)
  | .date _ => some []
  | _ => none

end Toml

/-! ### Putting a document together -/

/-- How a table came about. -/
inductive TableOrigin where
  /-- As a step on the way to another table. -/
  | implied
  /-- By a header of its own. -/
  | header
  /-- By a dotted name. -/
  | dotted
  deriving DecidableEq, Repr

/-- **A part of a document that is being put together.** -/
inductive Section where
  | value (v : Toml)
  | table (origin : TableOrigin) (entries : List (String × Section))
  /-- The tables of an array, the last one first. -/
  | tables (items : List (List (String × Section)))

namespace Section

/-- The entries with one of them replaced, or added at the end. -/
def set (name : String) (v : Section) : List (String × Section) → List (String × Section)
  | [] => [(name, v)]
  | (k, w) :: rest => if k = name then (k, v) :: rest else (k, w) :: set name v rest

/-- **Entries with a change below a dotted name.** Missing tables are made. A header may pass through any
table; a dotted name may not pass through one that a header opened, and may only end in one that dotted
names made. -/
def modifyAt? (byDots : Bool) (change : List (String × Section) → Option (List (String × Section))) :
    List String → List (String × Section) → Option (List (String × Section))
  | [], entries => change entries
  | k :: ks, entries =>
    match entries.lookup k with
    | none =>
      (modifyAt? byDots change ks []).map fun inner =>
        set k (.table (if byDots then .dotted else .implied) inner) entries
    | some (.table origin inner) =>
      -- Dotted names extend only what dotted names made.
      if byDots && (origin == .header || (ks.isEmpty && origin != .dotted)) then none
      else (modifyAt? byDots change ks inner).map fun inner => set k (.table origin inner) entries
    | some (.tables (last :: items)) =>
      if byDots then none
      else (modifyAt? byDots change ks last).map fun last => set k (.tables (last :: items)) entries
    | some _ => none

/-- The entries with the table of a header. A table that was only implied may be opened; one that is there
may not. -/
def open? (path : List String) (entries : List (String × Section)) : Option (List (String × Section)) :=
  match path.getLast? with
  | none => none
  | some name =>
    modifyAt? false (fun es =>
      match es.lookup name with
      | none => some (set name (.table .header []) es)
      | some (.table .implied inner) => some (set name (.table .header inner) es)
      | some _ => none) path.dropLast entries

/-- The entries with one more table in the array of a header. -/
def append? (path : List String) (entries : List (String × Section)) : Option (List (String × Section)) :=
  match path.getLast? with
  | none => none
  | some name =>
    modifyAt? false (fun es =>
      match es.lookup name with
      | none => some (set name (.tables [[]]) es)
      | some (.tables items) => some (set name (.tables ([] :: items)) es)
      | some _ => none) path.dropLast entries

/-- The entries with a value under a dotted name, which must be new. -/
def assign? (path : List String) (v : Toml) (entries : List (String × Section)) :
    Option (List (String × Section)) :=
  match path.getLast? with
  | none => none
  | some name =>
    modifyAt? true (fun es =>
      match es.lookup name with
      | none => some (set name (.value v) es)
      | some _ => none) path.dropLast entries

mutual

/-- The value that a part stands for. -/
def toToml : Section → Toml
  | .value v => v
  | .table _ entries => .table (entriesToToml entries)
  | .tables items => .array (itemsToToml items).reverse

/-- The values of entries. -/
def entriesToToml : List (String × Section) → List (String × Toml)
  | [] => []
  | (k, s) :: rest => (k, s.toToml) :: entriesToToml rest

/-- The tables of an array. -/
def itemsToToml : List (List (String × Section)) → List Toml
  | [] => []
  | es :: rest => .table (entriesToToml es) :: itemsToToml rest

end

end Section

end CodeAtlas
