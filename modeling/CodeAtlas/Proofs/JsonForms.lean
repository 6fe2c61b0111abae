import CodeAtlas.Node
import CodeAtlas.Record.Json
import CodeAtlas.Proofs.JsonText
import CodeAtlas.Proofs.Labels

/-!
# JSON forms that are read back

Nodes, relationships and records have JSON forms. A form is *lawful* if its decoder reads what its encoder
makes, and if it reads the same from a value and from its normal form, in which the fields of objects are
sorted (`Json.LawfulForm`). Then the text of a form is read back as well (`LawfulForm.read_text`).

Lawful forms are built like the forms themselves: texts, truth values, numbers and tags first, then lists,
then one object for each record, whose fields are read one by one. An encoder that names a field otherwise
than its decoder, or a tag or a label that two kinds share, would break the law where it stands.

What a decoder does not get from the text alone is a number of more than 64 bits: `numbers` lists the numbers
that a record holds.
-/

namespace CodeAtlas

open Json

namespace Json

/-! ### Lawful forms -/

/-- **A decoder that reads what an encoder makes**, and that does not depend on the order of fields. -/
structure LawfulForm {α : Type} (write : α → Json) (read : Json → Option α) (fits : α → Prop) : Prop where
  /-- What is written comes back. -/
  read_write : ∀ a, read (write a) = some a
  /-- What fits into machine words is written without decimals, and no name is written twice. -/
  regular : ∀ {a}, fits a → (write a).Regular
  /-- The order of fields is not read. -/
  read_normal : ∀ {v}, v.Regular → read v.normal = read v

section Fields

variable {α : Type} {write : α → Json} {read : Json → Option α} {fits : α → Prop}

/-- **The text of a lawful form is read back.** -/
theorem LawfulForm.read_text (h : LawfulForm write read fits) {a : α} (ha : fits a) :
    (read? (compact (write a)).toList).bind read = some a := by
  rw [compact, String.toList_ofList, read?_compactChars (h.regular ha), Option.bind_some,
    h.read_normal (h.regular ha), h.read_write a]

/-- The normal form of an object has the same names. -/
theorem names_normalFields (fields : List (String × Json)) :
    (normalFields fields).map (·.1) = fields.map (·.1) := by
  rw [normalFields_eq_map, List.map_map]
  rfl

/-- Under each name it has the normal form of the value. -/
theorem lookup_normalFields (fields : List (String × Json)) (name : String) :
    (normalFields fields).lookup name = (fields.lookup name).map normal := by
  induction fields with
  | nil => rfl
  | cons f rest ih =>
    obtain ⟨k, v⟩ := f
    rw [normalFields]
    by_cases hname : name = k
    · rw [hname, List.lookup_cons_self, List.lookup_cons_self]
      rfl
    · rw [Keyed.lookup_cons_of_ne hname, Keyed.lookup_cons_of_ne hname, ih]

variable {v : Json} (hv : v.Regular)
include hv

/-- A field of a normal form is the normal form of the field. -/
theorem Regular.field?_normal (name : String) : v.normal.field? name = (v.field? name).map normal := by
  cases hv with
  | obj hnames _ =>
    have hnormal := (names_normalFields _).symm ▸ hnames
    rw [normal, field?, field?, Keyed.lookup_of_perm (Keyed.perm_entries_ofList hnormal) hnormal,
      lookup_normalFields]
  | _ => rfl

/-- The value of a field is regular if the object is. -/
theorem Regular.of_field? {name : String} {w : Json} (hw : v.field? name = some w) : w.Regular := by
  cases hv with
  | obj _ hfields => exact hfields _ (Keyed.mem_of_lookup hw)
  | _ => cases hw

/-- **A field is read the same from a value and from its normal form.** -/
theorem Regular.field_bind (h : LawfulForm write read fits) (name : String) :
    (v.normal.field? name).bind read = (v.field? name).bind read := by
  rw [hv.field?_normal]
  cases hw : v.field? name with
  | none => rfl
  | some w => exact h.read_normal (hv.of_field? hw)

/-- A text that may be missing is read alike from the normal form. -/
theorem Regular.optText (name : String) : v.normal.optText name = v.optText name := by
  unfold Json.optText
  rw [hv.field?_normal]
  cases hw : v.field? name with
  | none => rfl
  | some w => cases w <;> rfl

end Fields

/-! ### Simple forms -/

/-- Texts are read back. -/
theorem lawful_text : LawfulForm .str text? fun _ => True where
  read_write _ := rfl
  regular _ := .str _
  read_normal hv := by cases hv <;> rfl

/-- Truth values are read back. -/
theorem lawful_flag : LawfulForm .bool bool? fun _ => True where
  read_write _ := rfl
  regular _ := .bool _
  read_normal hv := by cases hv <;> rfl

/-- Numbers of 64 bits are read back. -/
theorem lawful_nat : LawfulForm (fun n : Nat => .int n) nat? (· < UInt64.size) where
  read_write n := by simp [nat?]
  regular hn := .int ⟨by omega, by omega⟩
  read_normal hv := by cases hv <;> rfl

/-- A kind that is written by its tag. -/
theorem lawful_tag {α : Type} {tag : α → String} {ofTag? : String → Option α}
    (h : ∀ a, ofTag? (tag a) = some a) :
    LawfulForm (fun a => .str (tag a)) (fun v => (text? v).bind ofTag?) fun _ => True where
  read_write := h
  regular _ := .str _
  read_normal hv := by rw [lawful_text.read_normal hv]

section Lists

variable {α β : Type}

/-- All of a list is read if the first item and the rest are. -/
theorem mapM_cons_eq_some_iff {f : β → Option α} {b : β} {l : List β} {r : List α} :
    (b :: l).mapM f = some r ↔ ∃ a t, f b = some a ∧ l.mapM f = some t ∧ r = a :: t := by
  rw [List.mapM_cons]
  simp [Option.bind_eq_some_iff, @eq_comm _ r]

/-- Items that are read one by one. -/
theorem mapM_map_of_read {f : β → Option α} {g : α → β} (h : ∀ a, f (g a) = some a) (l : List α) :
    (l.map g).mapM f = some l := by
  induction l with
  | nil => rfl
  | cons a l ih => exact mapM_cons_eq_some_iff.2 ⟨a, l, h a, ih, rfl⟩

/-- Where every item is read alike, so is the list. -/
theorem mapM_map_congr {f : β → Option α} {g : β → β} {l : List β} (h : ∀ b ∈ l, f (g b) = f b) :
    (l.map g).mapM f = l.mapM f := by
  induction l with
  | nil => rfl
  | cons b l ih =>
    obtain ⟨hb, hl⟩ := List.forall_mem_cons.1 h
    rw [List.map_cons, List.mapM_cons, List.mapM_cons, hb, ih hl]

/-- Items that are read in another order are the same items in another order. -/
theorem mapM_of_perm {f : β → Option α} {l m : List β} (h : l.Perm m) {r : List α}
    (hl : l.mapM f = some r) : ∃ s, r.Perm s ∧ m.mapM f = some s := by
  -- By induction on the permutation, with what has been read of one list permuted alike.
  induction h generalizing r with
  | nil => exact ⟨r, .refl r, hl⟩
  | cons b _ ih =>
    obtain ⟨a, t, hb, ht, rfl⟩ := mapM_cons_eq_some_iff.1 hl
    obtain ⟨s, hs, hm⟩ := ih ht
    exact ⟨a :: s, hs.cons a, mapM_cons_eq_some_iff.2 ⟨a, s, hb, hm, rfl⟩⟩
  | swap b c l =>
    obtain ⟨a, t, hc, ht, rfl⟩ := mapM_cons_eq_some_iff.1 hl
    obtain ⟨a', u, hb, hu, rfl⟩ := mapM_cons_eq_some_iff.1 ht
    have hrest := mapM_cons_eq_some_iff.2 ⟨a, u, hc, hu, rfl⟩
    exact ⟨a' :: a :: u, .swap _ _ _, mapM_cons_eq_some_iff.2 ⟨a', a :: u, hb, hrest, rfl⟩⟩
  | trans _ _ ih ih' =>
    obtain ⟨s, hs, hm⟩ := ih hl
    obtain ⟨u, hu, hn⟩ := ih' hm
    exact ⟨u, hs.trans hu, hn⟩

variable {write : α → Json} {read : Json → Option α} {fits : α → Prop}

/-- **An array whose items have a lawful form.** -/
theorem LawfulForm.list (h : LawfulForm write read fits) :
    LawfulForm (fun l => .arr (l.map write)) (list? read) fun l => ∀ a ∈ l, fits a where
  -- Each of the three laws is that of the items, one item after the other.
  read_write := mapM_map_of_read h.read_write
  regular hl := .arr fun v hv => by
    obtain ⟨a, ha, rfl⟩ := List.mem_map.1 hv
    exact h.regular (hl a ha)
  read_normal hv := by
    cases hv with
    | arr hitems =>
      rw [normal, normalItems_eq_map]
      exact mapM_map_congr fun v hv => h.read_normal (hitems v hv)
    | _ => rfl

end Lists

/-- Lists of texts are read back. -/
theorem lawful_texts : LawfulForm ofTexts texts? fun _ => True where
  read_write := lawful_text.list.read_write
  regular _ := lawful_text.list.regular fun _ _ => trivial
  read_normal := lawful_text.list.read_normal

/-! ### Fields of records -/

section Objects

variable {name k : String} {rest : List (String × Json)}

theorem field?_self (w : Json) : (obj ((name, w) :: rest)).field? name = some w :=
  List.lookup_cons_self

theorem field?_of_ne (h : name ≠ k) (w : Json) :
    (obj ((k, w) :: rest)).field? name = (obj rest).field? name := by
  rw [field?, field?, Keyed.lookup_cons_of_ne h]

/-- A text that may be missing is found under its name. -/
theorem optText_self (o : Option String) : (obj ((name, ofText? o) :: rest)).optText name = some o := by
  rw [optText, field?_self]
  cases o <;> rfl

theorem optText_of_ne (h : name ≠ k) (w : Json) :
    (obj ((k, w) :: rest)).optText name = (obj rest).optText name := by
  rw [optText, optText, field?_of_ne h]

end Objects

/-- A text or null is regular. -/
theorem regular_ofText? (o : Option String) : (ofText? o).Regular := by
  cases o with
  | none => exact .null
  | some s => exact .str s

end Json

/-! ### Properties -/

namespace Property

/-- **Values of properties are read back**: each kind of value has a kind of JSON value of its own. -/
theorem lawful : LawfulForm toJson ofJson? fun _ => True where
  read_write p := by
    cases p with
    | flag b => rfl
    -- An integer of 64 bits is within the bounds that the reader asks for.
    | integer n =>
      rw [toJson, ofJson?, if_pos ⟨n.minValue_le_toInt, n.toInt_le⟩, Int64.ofInt_toInt]
    | text s => rfl
    | list items => exact congrArg (Option.map Property.list) (lawful_texts.read_write items)
  regular {p} _ := by
    cases p with
    | flag b => exact .bool b
    | integer n =>
      have hlow : -((UInt64.size / 2 : Nat) : Int) ≤ n.toInt := Int.le_trans (by decide) n.le_toInt
      have hhigh : n.toInt < UInt64.size := Int.lt_trans n.toInt_lt (by decide)
      exact .int ⟨hlow, hhigh⟩
    | text s => exact .str s
    | list items => exact lawful_texts.regular trivial
  read_normal hv := by
    cases hv with
    | arr hitems => exact congrArg (Option.map Property.list) (lawful_texts.read_normal (.arr hitems))
    | _ => rfl

end Property

namespace Properties

/-- The entry of a field, if its value is one of a property. -/
def ofField? (f : String × Json) : Option (String × Property) :=
  (Property.ofJson? f.2).map fun v => (f.1, v)

/-- An object is read field by field. -/
theorem ofJson?_obj (fields : List (String × Json)) :
    ofJson? (.obj fields) = (fields.mapM ofField?).map Keyed.ofList := by
  rw [Option.map_eq_bind]
  rfl

/-- What is read has the names of the fields. -/
theorem names_of_mapM {fields : List (String × Json)} {entries : List (String × Property)}
    (h : fields.mapM ofField? = some entries) : entries.map (·.1) = fields.map (·.1) := by
  induction fields generalizing entries with
  | nil =>
    cases h
    rfl
  | cons f rest ih =>
    obtain ⟨e, t, he, ht, rfl⟩ := mapM_cons_eq_some_iff.1 h
    obtain ⟨v, -, rfl⟩ := Option.map_eq_some_iff.1 he
    rw [List.map_cons, List.map_cons, ih ht]

/-- **The order of the fields of an object does not matter to the properties that are read from it.** -/
theorem ofJson?_of_perm {l m : List (String × Json)} (h : l.Perm m) (hm : (m.map (·.1)).Nodup) :
    ofJson? (.obj l) = ofJson? (.obj m) := by
  rw [ofJson?_obj, ofJson?_obj]
  cases hread : m.mapM ofField? with
  | some entries =>
    obtain ⟨entries', hperm, hl⟩ := mapM_of_perm h.symm hread
    have hnames : (entries.map (·.1)).Nodup := by
      rw [names_of_mapM hread]
      exact hm
    rw [hl, Option.map_some, Option.map_some, Keyed.ofList_of_perm hperm.symm hnames]
  | none =>
    -- If one order could be read, so could the other.
    cases hl : l.mapM ofField? with
    | some entries =>
      obtain ⟨entries', -, hsome⟩ := mapM_of_perm h hl
      rw [hread] at hsome
      cases hsome
    | none => rfl

/-- **Properties are read back**, in the order of their names. -/
theorem lawful : LawfulForm toJson ofJson? fun _ => True where
  read_write ps := by
    have hread : ∀ e : String × Property, ofField? (e.1, e.2.toJson) = some e := by
      intro e
      rw [ofField?, Property.lawful.read_write]
      rfl
    rw [toJson, ofJson?_obj, mapM_map_of_read hread, Option.map_some, Keyed.ofList_entries]
  regular {ps} _ := by
    refine .obj ?_ fun f hf => ?_
    · rw [List.map_map]
      exact ps.nodup_names
    · obtain ⟨e, -, rfl⟩ := List.mem_map.1 hf
      exact Property.lawful.regular trivial
  read_normal hv := by
    cases hv with
    | @obj fields hnames hfields =>
      have hnormal := (names_normalFields fields).symm ▸ hnames
      -- Sorting only changes the order of the fields, and then each value is read from its normal form.
      rw [normal, ofJson?_of_perm (Keyed.perm_entries_ofList hnormal) hnormal, ofJson?_obj, ofJson?_obj,
        normalFields_eq_map, mapM_map_congr]
      intro f hf
      rw [ofField?, ofField?, Property.lawful.read_normal (hfields f hf)]
    | _ => rfl

end Properties

/-! ### Tags -/

theorem TypeKind.ofTag?_tag (k : TypeKind) : ofTag? k.tag = some k := by
  cases k <;> decide +kernel

theorem CallableKind.ofTag?_tag (k : CallableKind) : ofTag? k.tag = some k := by
  cases k <;> decide +kernel

theorem Language.ofTag?_tag (l : Language) : ofTag? l.tag = some l := by
  cases l <;> decide +kernel

/-! ### Records -/

/-- Numbers that fit into machine words. -/
def AreWords (numbers : List Nat) : Prop :=
  ∀ n ∈ numbers, n < UInt64.size

theorem areWords_append {l m : List Nat} : AreWords (l ++ m) ↔ AreWords l ∧ AreWords m :=
  List.forall_mem_append

theorem areWords_flatMap {α : Type} {f : α → List Nat} {l : List α} :
    AreWords (l.flatMap f) ↔ ∀ a ∈ l, AreWords (f a) := by
  simp only [AreWords, List.mem_flatMap]
  exact ⟨fun h a ha n hn => h n ⟨a, ha, hn⟩, fun h n ⟨a, ha, hn⟩ => h a ha n hn⟩

namespace Span

/-- The numbers of a span. -/
def numbers (s : Span) : List Nat := [s.first, s.last]

/-- Spans are read back. -/
theorem lawful : LawfulForm toJson ofJson? fun s => AreWords s.numbers where
  read_write s := by simp [toJson, ofJson?, req, field?_self, field?_of_ne, lawful_nat.read_write]
  regular {s} hs := by
    have hfirst := hs s.first (List.mem_cons_self)
    have hlast := hs s.last (List.mem_cons_of_mem _ List.mem_cons_self)
    have hnames : ["start_line", "end_line"].Nodup := by decide
    refine .obj hnames ?_
    simp only [List.forall_mem_cons]
    exact ⟨lawful_nat.regular hfirst, lawful_nat.regular hlast, List.forall_mem_nil _⟩
  read_normal hv := by simp only [ofJson?, req, hv.field_bind lawful_nat]

end Span

namespace ImportDecl

/-- The numbers of an import. -/
def numbers (d : ImportDecl) : List Nat := [d.line]

/-- Imports are read back. -/
theorem lawful : LawfulForm toJson ofJson? fun d => AreWords d.numbers where
  read_write d := by
    -- Each field is found under its name, behind those of other names.
    simp [toJson, ofJson?, req, field?_self, field?_of_ne, optText_self, optText_of_ne, lawful_text.read_write,
      lawful_flag.read_write, lawful_nat.read_write]
  regular {d} hd := by
    have hline := hd d.line List.mem_cons_self
    have hnames : ["path", "name", "alias", "wildcard", "is_static", "line", "statement"].Nodup := by decide
    refine .obj hnames ?_
    simp only [List.forall_mem_cons]
    exact ⟨.str _, regular_ofText? _, regular_ofText? _, .bool _, .bool _, lawful_nat.regular hline, .str _,
      List.forall_mem_nil _⟩
  read_normal hv := by
    simp only [ofJson?, req, hv.field_bind lawful_text, hv.field_bind lawful_flag, hv.field_bind lawful_nat,
      hv.optText]

end ImportDecl

namespace TypeDecl

/-- The numbers of a type declaration. -/
def numbers (d : TypeDecl) : List Nat := d.span.numbers

/-- Types are read back. -/
theorem lawful : LawfulForm toJson ofJson? fun d => AreWords d.numbers where
  read_write d := by
    simp [toJson, ofJson?, req, field?_self, field?_of_ne, optText_self, optText_of_ne, lawful_text.read_write,
      lawful_texts.read_write, TypeKind.ofTag?_tag, Span.lawful.read_write]
  regular {d} hd := by
    -- No two fields have one name, and every value is regular.
    have htexts : ∀ l, (ofTexts l).Regular := fun _ => lawful_texts.regular trivial
    have hnames : ["name", "kind", "modifiers", "annotations", "superclass", "interfaces", "mixins", "on_type",
      "enclosing", "type_parameters", "span", "doc"].Nodup := by decide
    refine .obj hnames ?_
    simp only [List.forall_mem_cons]
    exact ⟨.str _, .str _, htexts _, htexts _, regular_ofText? _, htexts _, htexts _, regular_ofText? _,
      regular_ofText? _, htexts _, Span.lawful.regular hd, regular_ofText? _, List.forall_mem_nil _⟩
  read_normal hv := by
    simp only [ofJson?, req, hv.field_bind lawful_text, hv.field_bind lawful_texts, hv.optText,
      hv.field_bind Span.lawful, hv.field_bind (lawful_tag TypeKind.ofTag?_tag)]

end TypeDecl

/-- Parameters are read back. -/
theorem Parameter.lawful : LawfulForm Parameter.toJson Parameter.ofJson? fun _ => True where
  read_write p := by
    simp [toJson, ofJson?, req, field?_self, optText_self, optText_of_ne, lawful_text.read_write]
  regular _ := by
    have hnames : ["name", "type_name"].Nodup := by decide
    refine .obj hnames ?_
    simp only [List.forall_mem_cons]
    exact ⟨.str _, regular_ofText? _, List.forall_mem_nil _⟩
  read_normal hv := by simp only [ofJson?, req, hv.field_bind lawful_text, hv.optText]

namespace CallableDecl

/-- The numbers of a callable. -/
def numbers (d : CallableDecl) : List Nat := d.complexity :: d.span.numbers

/-- Callables are read back. -/
theorem lawful : LawfulForm toJson ofJson? fun d => AreWords d.numbers where
  read_write d := by
    simp [toJson, ofJson?, req, field?_self, field?_of_ne, optText_self, optText_of_ne, lawful_text.read_write,
      lawful_texts.read_write, lawful_nat.read_write, CallableKind.ofTag?_tag, Span.lawful.read_write,
      Parameter.lawful.list.read_write]
  regular {d} hd := by
    -- The numbers are the complexity and those of the span.
    obtain ⟨hcomplexity, hspan⟩ := List.forall_mem_cons.1 hd
    have htexts : ∀ l, (ofTexts l).Regular := fun _ => lawful_texts.regular trivial
    have hnames : ["name", "kind", "owner", "receiver", "modifiers", "annotations", "parameters", "return_type",
      "span", "complexity", "doc"].Nodup := by decide
    refine .obj hnames ?_
    simp only [List.forall_mem_cons]
    exact ⟨.str _, .str _, regular_ofText? _, regular_ofText? _, htexts _, htexts _,
      Parameter.lawful.list.regular fun _ _ => trivial, regular_ofText? _, Span.lawful.regular hspan,
      lawful_nat.regular hcomplexity, regular_ofText? _, List.forall_mem_nil _⟩
  read_normal hv := by
    simp only [ofJson?, req, hv.field_bind lawful_text, hv.field_bind lawful_texts, hv.field_bind lawful_nat,
      hv.optText, hv.field_bind Span.lawful, hv.field_bind (lawful_tag CallableKind.ofTag?_tag),
      hv.field_bind Parameter.lawful.list]

end CallableDecl

namespace FieldDecl

/-- The numbers of a field. -/
def numbers (d : FieldDecl) : List Nat := d.span.numbers

/-- Fields are read back. -/
theorem lawful : LawfulForm toJson ofJson? fun d => AreWords d.numbers where
  read_write d := by
    simp [toJson, ofJson?, req, field?_self, field?_of_ne, optText_self, optText_of_ne, lawful_text.read_write,
      lawful_texts.read_write, Span.lawful.read_write]
  regular {d} hd := by
    have htexts : ∀ l, (ofTexts l).Regular := fun _ => lawful_texts.regular trivial
    have hnames : ["name", "owner", "type_name", "modifiers", "annotations", "receiver", "span"].Nodup := by
      decide
    refine .obj hnames ?_
    simp only [List.forall_mem_cons]
    exact ⟨.str _, regular_ofText? _, regular_ofText? _, htexts _, htexts _, regular_ofText? _,
      Span.lawful.regular hd, List.forall_mem_nil _⟩
  read_normal hv := by
    simp only [ofJson?, req, hv.field_bind lawful_text, hv.field_bind lawful_texts, hv.optText,
      hv.field_bind Span.lawful]

end FieldDecl

namespace CallSite

/-- The numbers of a call. -/
def numbers (c : CallSite) : List Nat := [c.line]

/-- Calls are read back. -/
theorem lawful : LawfulForm toJson ofJson? fun c => AreWords c.numbers where
  read_write c := by
    simp [toJson, ofJson?, req, field?_self, field?_of_ne, optText_self, optText_of_ne, lawful_text.read_write,
      lawful_flag.read_write, lawful_nat.read_write]
  regular {c} hc := by
    have hline := hc c.line List.mem_cons_self
    have hnames : ["callee", "qualifier", "line", "is_method"].Nodup := by decide
    refine .obj hnames ?_
    simp only [List.forall_mem_cons]
    exact ⟨.str _, regular_ofText? _, lawful_nat.regular hline, .bool _, List.forall_mem_nil _⟩
  read_normal hv := by
    simp only [ofJson?, req, hv.field_bind lawful_text, hv.field_bind lawful_flag, hv.field_bind lawful_nat,
      hv.optText]

end CallSite

/-- The numbers of the declarations of a record. -/
def Declarations.numbers (d : Declarations) : List Nat :=
  d.imports.flatMap ImportDecl.numbers ++ d.types.flatMap TypeDecl.numbers
    ++ d.callables.flatMap CallableDecl.numbers ++ d.fields.flatMap FieldDecl.numbers
    ++ d.calls.flatMap CallSite.numbers

namespace SourceRecord

/-- The numbers of a record. -/
def numbers : SourceRecord → List Nat
  | .java _ line d => line :: d.numbers
  | .kotlin _ line d => line :: d.numbers
  | .dart _ line d => line :: d.numbers
  | .python _ _ d => d.numbers

/-- The five lists of a record are regular. -/
theorem regular_factsFields {names : FieldNames} {d : Declarations} (hd : AreWords d.numbers) :
    ∀ f ∈ factsFields names d, Regular f.2 := by
  simp only [Declarations.numbers, areWords_append, areWords_flatMap] at hd
  obtain ⟨⟨⟨⟨himports, htypes⟩, hcallables⟩, hfields⟩, hcalls⟩ := hd
  simp only [factsFields, List.forall_mem_cons]
  exact ⟨ImportDecl.lawful.list.regular himports, TypeDecl.lawful.list.regular htypes,
    CallableDecl.lawful.list.regular hcallables, FieldDecl.lawful.list.regular hfields,
    CallSite.lawful.list.regular hcalls, List.forall_mem_nil _⟩

theorem factsOfJson?_normal {v : Json} (hv : v.Regular) (names : FieldNames) :
    factsOfJson? names v.normal = factsOfJson? names v := by
  simp only [factsOfJson?, req, hv.field_bind ImportDecl.lawful.list, hv.field_bind TypeDecl.lawful.list,
    hv.field_bind CallableDecl.lawful.list, hv.field_bind FieldDecl.lawful.list,
    hv.field_bind CallSite.lawful.list]

/-- **Records are read back**, in all four languages. -/
theorem lawful : LawfulForm toJson ofJson? fun r => AreWords r.numbers where
  read_write r := by
    -- The languages name their scopes and their lists differently, so each is read by its own names.
    cases r <;>
      simp [toJson, ofJson?, scopeFields, factsFields, factsOfJson?, fieldNames, language, facts, req,
        field?_self, field?_of_ne, optText_self, optText_of_ne, lawful_text.read_write, lawful_nat.read_write,
        Language.ofTag?_tag, ImportDecl.lawful.list.read_write, TypeDecl.lawful.list.read_write,
        CallableDecl.lawful.list.read_write, FieldDecl.lawful.list.read_write,
        CallSite.lawful.list.read_write]
  regular {r} hr := by
    -- A scope has a line, unless it is a module.
    have hwords : AreWords r.facts.numbers := by
      cases r with
      | python module doc d => exact hr
      | _ => exact (List.forall_mem_cons.1 hr).2
    have hscope : ∀ f ∈ r.scopeFields, Regular f.2 := by
      cases r with
      | python module doc d =>
        simp only [scopeFields, List.forall_mem_cons]
        exact ⟨.str _, regular_ofText? _, List.forall_mem_nil _⟩
      | _ =>
        simp only [scopeFields, List.forall_mem_cons]
        exact ⟨regular_ofText? _, lawful_nat.regular (List.forall_mem_cons.1 hr).1, List.forall_mem_nil _⟩
    refine .obj ?_ ?_
    · cases r <;> simp [scopeFields, factsFields, fieldNames, language]
    · simp only [List.cons_append, List.forall_mem_cons, List.forall_mem_append]
      exact ⟨.str _, hscope, regular_factsFields hwords⟩
  read_normal hv := by
    simp only [ofJson?, factsOfJson?_normal hv, req, hv.optText, hv.field_bind lawful_text,
      hv.field_bind lawful_nat, hv.field_bind (lawful_tag Language.ofTag?_tag)]

end SourceRecord

/-! ### Nodes and relationships -/

namespace Node

/-- A line that may be missing is read back. -/
theorem lawful_line : LawfulForm (fun line : Option Nat => line.elim .null fun n => .int n) lineOfJson?
    fun line => ∀ n ∈ line, n < UInt64.size where
  read_write line := by
    cases line with
    | none => rfl
    | some n => simp [lineOfJson?]
  regular {line} h := by
    cases line with
    | none => exact .null
    | some n => exact lawful_nat.regular (h n rfl)
  read_normal hv := by cases hv <;> rfl

theorem lineField?_normal {v : Json} (hv : v.Regular) : lineField? v.normal = lineField? v := by
  unfold lineField?
  rw [hv.field?_normal]
  cases hline : v.field? "line_number" with
  | none => rfl
  | some line => exact lawful_line.read_normal (hv.of_field? hline)

/-- The form of a node, field by field. -/
theorem toJson_eq (n : Node) : n.toJson = .obj [("id", .str n.id), ("type", .str n.kind.label),
    ("name", .str n.name), ("file_path", .str n.path),
    ("line_number", n.line.elim .null fun l => .int l), ("properties", n.properties.toJson)] := by
  unfold toJson
  cases n.line <;> rfl

/-- **Nodes are read back.** -/
theorem lawful : LawfulForm toJson ofJson? fun n => ∀ l ∈ n.line, l < UInt64.size where
  read_write n := by
    simp [toJson_eq, ofJson?, lineField?, field?_self, field?_of_ne, lawful_text.read_write,
      NodeKind.ofLabel?_label, lawful_line.read_write, Properties.lawful.read_write]
  regular {n} hn := by
    have hnames : ["id", "type", "name", "file_path", "line_number", "properties"].Nodup := by decide
    rw [toJson_eq]
    refine .obj hnames ?_
    simp only [List.forall_mem_cons]
    exact ⟨.str _, .str _, .str _, .str _, lawful_line.regular hn, Properties.lawful.regular trivial,
      List.forall_mem_nil _⟩
  read_normal hv := by
    simp only [ofJson?, lineField?_normal hv, hv.field_bind lawful_text, hv.field_bind Properties.lawful]

end Node

/-- **Relationships are read back.** -/
theorem Relationship.lawful : LawfulForm Relationship.toJson Relationship.ofJson? fun _ => True where
  read_write r := by
    simp [toJson, ofJson?, field?_self, field?_of_ne, lawful_text.read_write, RelKind.ofLabel?_label,
      Properties.lawful.read_write]
  regular _ := by
    have hnames : ["type", "source_node_id", "target_node_id", "properties"].Nodup := by decide
    refine .obj hnames ?_
    simp only [List.forall_mem_cons]
    exact ⟨.str _, .str _, .str _, Properties.lawful.regular trivial, List.forall_mem_nil _⟩
  read_normal hv := by
    simp only [ofJson?, hv.field_bind lawful_text, hv.field_bind Properties.lawful]

/-- **JSON forms are read back.** A node, a relationship and a record of any language come back from their
JSON values, whatever they hold. They come back from the texts of these values as well: relationships always,
nodes and records if their numbers fit into machine words. -/
theorem json_forms_read_back :
    (∀ n : Node, Node.ofJson? n.toJson = some n ∧
      ((∀ l ∈ n.line, l < UInt64.size) → (read? n.toJson.compact.toList).bind Node.ofJson? = some n)) ∧
    (∀ r : Relationship, Relationship.ofJson? r.toJson = some r ∧
      (read? r.toJson.compact.toList).bind Relationship.ofJson? = some r) ∧
    (∀ r : SourceRecord, SourceRecord.ofJson? r.toJson = some r ∧
      ((∀ l ∈ r.numbers, l < UInt64.size) →
        (read? r.toJson.compact.toList).bind SourceRecord.ofJson? = some r)) :=
  ⟨fun n => ⟨Node.lawful.read_write n, fun hn => Node.lawful.read_text hn⟩,
    fun r => ⟨Relationship.lawful.read_write r, Relationship.lawful.read_text trivial⟩,
    fun r => ⟨SourceRecord.lawful.read_write r, fun hr => SourceRecord.lawful.read_text hr⟩⟩

/-- A mixin with a property of each sort, and the record of a library that declares it. -/
theorem json_forms_read_back_mixin :
    let n : Node :=
      { id := "dartmixin:0", kind := ⟨.dart, .mixin⟩, name := "Walker", path := "lib/walker.dart"
        line := some 2
        properties := Keyed.ofList [("stub", .flag false), ("weight", .integer (-1)),
          ("doc", .text "a \"walk\""), ("on_types", .list ["Animal", ""])] }
    let r : SourceRecord := .dart (some "zoo") 1
      { types := [{ name := "Walker", kind := .mixin, onType := some "Animal", span := ⟨2, 4⟩ }]
        calls := [{ callee := "walk", qualifier := none, line := 3, isMethod := true }] }
    (read? n.toJson.compact.toList).bind Node.ofJson? = some n ∧ r.numbers = [1, 2, 4, 3] ∧
      (read? r.toJson.compact.toList).bind SourceRecord.ofJson? = some r := by
  intro n r
  -- The numbers of both values are small, so their texts are read back too.
  have hline : ∀ l ∈ n.line, l < UInt64.size := by decide
  have hnumbers : ∀ l ∈ r.numbers, l < UInt64.size := by decide
  exact ⟨(json_forms_read_back.1 n).2 hline, rfl, (json_forms_read_back.2.2 r).2 hnumbers⟩

end CodeAtlas
