import CodeAtlas.Proofs.Legible
import CodeAtlas.Proofs.SchemaTables

/-!
# Whether something stands in a field

The emptiness of a field is decided in two places. The values themselves say it: a blank text is empty, an
empty list is, a line that was not observed is (`Field.isEmpty`). A schema asks the text under which a value
is stored instead, and takes a blank text and the text of an empty list for nothing.

The two agree on lists, numbers and truth values, whatever they hold, because only the empty list is stored
as a pair of brackets and nothing but a blank text is stored as a blank text. They do not agree on texts: a
text that consists of a pair of brackets says something, but the schema takes it for an empty list
(`brackets_pass_for_nothing`). This is the only difference (`checkNode_by_emptiness`).
-/

namespace CodeAtlas

/-! ### Fields -/

/-- **What a node has under a name.** -/
inductive Field where
  /-- A core field that is a text: the id, the name or the path. -/
  | text (s : String)
  /-- The line, if it was observed. -/
  | line (l : Option Nat)
  /-- A property, if the node carries it. -/
  | property (v : Option Property)
  deriving DecidableEq

namespace Field

/-- **Whether nothing stands in a field.** A text is empty if it is blank, a line if it was not observed,
and a property if it is missing or its value carries no information. -/
def isEmpty : Field → Bool
  | text s => Text.isBlankString s
  | line l => l.isNone
  | property v => v.all Property.isEmpty

/-- The text of a field, as a schema sees it. -/
def text? : Field → Option String
  | text s => some s
  | line l => l.map fun l => String.ofList (Json.natChars l)
  | property v => v.map Property.storageText

/-- A text that is stored as an empty list would be. -/
def IsBrackets : Field → Prop
  | text s => s = "[]"
  | line _ => False
  | property v => v = some (.text "[]")

end Field

namespace Node

/-- **The field of a node under a name.** -/
def field (n : Node) (key : String) : Field :=
  if key = "id" then .text n.id
  else if key = "name" then .text n.name
  else if key = "file_path" then .text n.path
  else if key = "line_number" then .line n.line
  else .property (n.properties.get? key)

/-- A schema sees the text of the field. -/
theorem fieldText?_eq (n : Node) (key : String) : n.fieldText? key = (n.field key).text? := by
  unfold fieldText? field
  repeat' split
  all_goals rfl

end Node

/-! ### Stored texts -/

/-- A text that a schema does not take for nothing. -/
def Telling (v : String) : Prop :=
  Text.isBlankString v = false ∧ v ≠ "[]"

instance (v : String) : Decidable (Telling v) :=
  inferInstanceAs (Decidable (_ ∧ _))

/-- A text that starts with a character tells something, unless it is the text of an empty list. -/
theorem telling_ofList {c : Char} {s : List Char} (hblank : Text.isBlank c = false)
    (hne : c :: s ≠ ['[', ']']) : Telling (String.ofList (c :: s)) := by
  constructor
  · simp [Text.isBlankString, Text.isBlankText, hblank]
  · intro h
    have hlist := congrArg String.toList h
    rw [String.toList_ofList] at hlist
    exact hne hlist

/-- A digit is not blank. -/
theorem isBlank_of_isDigit {c : Char} (h : c.isDigit = true) : Text.isBlank c = false := by
  have hbounds : 48 ≤ c.toNat ∧ c.toNat ≤ 57 := by
    simpa [Char.isDigit, UInt32.le_iff_toNat_le] using h
  simp only [Text.isBlank, Bool.or_eq_false_iff, Bool.and_eq_false_iff, decide_eq_false_iff_not,
    beq_eq_false_iff_ne]
  omega

/-- A number is never taken for nothing. -/
theorem telling_natChars (n : Nat) : Telling (String.ofList (Json.natChars n)) := by
  obtain ⟨c, s, hs, hc⟩ := exists_digit_natChars n
  rw [hs]
  refine telling_ofList (isBlank_of_isDigit hc) fun h => ?_
  rw [(List.cons.inj h).1] at hc
  exact absurd hc (by decide)

theorem telling_intChars (n : Int) : Telling (String.ofList (Json.intChars n)) := by
  unfold Json.intChars
  split
  · exact telling_ofList (by decide) (by simp)
  · exact telling_natChars n.natAbs

/-- **Only the empty list is stored as a pair of brackets.** -/
theorem telling_writeStrings {items : List String} (h : items ≠ []) : Telling (Json.writeStrings items) := by
  obtain ⟨x, rest, rfl⟩ := List.exists_cons_of_ne_nil h
  -- Behind the bracket stands the quote of the first item.
  obtain ⟨s, hs⟩ : ∃ s, Json.compactChars (Json.ofTexts (x :: rest)) = '[' :: '"' :: s := by
    cases rest <;> exact ⟨_, rfl⟩
  unfold Json.writeStrings Json.compact
  rw [hs]
  exact telling_ofList (by decide) (by simp)

/-- **A stored value is taken for nothing** if it is empty or is the text of a pair of brackets. -/
theorem Property.telling_storageText_iff {v : Property} :
    Telling v.storageText ↔ v.isEmpty = false ∧ v ≠ .text "[]" := by
  cases v with
  | flag b => cases b <;> decide
  | integer n => simpa [storageText, isEmpty] using telling_intChars n.toInt
  | text s => simp [Telling, storageText, isEmpty]
  | list items =>
    cases items with
    | nil => decide
    | cons x rest => simpa [storageText, isEmpty] using telling_writeStrings (List.cons_ne_nil x rest)

/-- **What a schema sees of a field**: that it is not empty, unless it is a text of two brackets. -/
theorem Field.exists_telling_iff (f : Field) :
    (∃ v ∈ f.text?, Telling v) ↔ f.isEmpty = false ∧ ¬f.IsBrackets := by
  -- By the kind of field.
  cases f with
  | text s => simp [text?, isEmpty, IsBrackets, Telling]
  | line l =>
    cases l with
    | none => simp [text?, isEmpty]
    | some l => simpa [text?, isEmpty, IsBrackets] using telling_natChars l
  | property v =>
    cases v with
    | none => simp [text?, isEmpty]
    | some v => simpa [text?, isEmpty, IsBrackets] using v.telling_storageText_iff

/-! ### Verdicts on nodes -/

namespace Schema

/-- **A node is complete**: its kind is registered and nothing that the kind requires is empty. -/
def Complete (schema : Schema) (n : Node) : Prop :=
  schema.isRegistered n.kind = true ∧ ∀ p ∈ schema.requiredOf n.kind, (n.field p).isEmpty = false

theorem isPresent_iff_field {n : Node} {p : String} :
    isPresent n p = true ↔ (n.field p).isEmpty = false ∧ ¬(n.field p).IsBrackets := by
  rw [isPresent_iff, n.fieldText?_eq]
  exact Field.exists_telling_iff _

/-- **A schema accepts the complete nodes, unless brackets stand in a field that is required.** So its verdict
is the one that the emptiness of the fields gives, except for a complete node that has a text of two brackets
where its kind requires something. -/
theorem checkNode_by_emptiness (schema : Schema) (n : Node) :
    (schema.checkNode n = .ok () ↔
        schema.Complete n ∧ ∀ p ∈ schema.requiredOf n.kind, ¬(n.field p).IsBrackets) ∧
      ((schema.checkNode n = .ok () ↔ schema.Complete n) ↔
        ¬(schema.Complete n ∧ ∃ p ∈ schema.requiredOf n.kind, (n.field p).IsBrackets)) := by
  -- A field is present if it is not empty and does not read as brackets.
  have hverdict : schema.checkNode n = .ok () ↔
      schema.Complete n ∧ ∀ p ∈ schema.requiredOf n.kind, ¬(n.field p).IsBrackets := by
    rw [checkNode_eq_ok_iff, Complete, and_assoc, ← forall₂_and]
    simp only [isPresent_iff_field]
  refine ⟨hverdict, ?_⟩
  rw [hverdict, and_iff_left_iff_imp]
  simp only [not_and, not_exists]

/-- **A text of two brackets passes for nothing.** The value is not empty, and the standard schema requires
nothing else of the node, but the node is refused as if it lacked the property. -/
theorem brackets_pass_for_nothing :
    let n := Node.withId "a" ⟨.java, .plainClass⟩ "[]" "A" "A.java" (some 1)
    n.field "qualified_name" = .property (some (.text "[]")) ∧ Property.isEmpty (.text "[]") = false ∧
      standard.Complete n ∧
      standard.checkNode n = .error (.missingProperty "JavaClass" "a" "qualified_name") :=
  ⟨by decide +kernel, by decide, ⟨by decide +kernel, by decide +kernel⟩, by decide +kernel⟩

end Schema

end CodeAtlas
