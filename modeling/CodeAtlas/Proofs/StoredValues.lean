import CodeAtlas.Proofs.JsonText
import CodeAtlas.Proofs.Statistics

/-!
# Values that are read back from a store

A value of a property goes into a store as a truth value, an integer or a text, and a list goes in as the
text of a JSON array. On the way back `Row.decode` looks at texts again: a text that starts with a bracket
and reads as an array of strings is shown as a list.

* What is written for a list is read as that list (`Json.readStrings?_writeStrings`), and it holds no line
  break or tab, so that a store that drops those keeps it (`flattened_writeStrings`).
* So lists come back, and truth values and integers do. But a text is told from a list by what it says and by
  nothing else: a text that reads as an array comes back as a list (`Property.text_comes_back_as_list`).

`Property.shown_iff` draws the line, for every store that keeps the texts of lists: a value comes back as it
was unless it is a text that the store changes or that reads as an array. `flattened` is how the store of
this library keeps texts (`Property.keptBy_flattened`), and there a value is followed all the way through a
query for a field of all nodes.
-/

namespace CodeAtlas

/-! ### Reading what was written -/

namespace Json

/-- No white space stands before a quoted text. -/
theorem dropWhile_quoted (x : String) (t : List Char) :
    (quoted x ++ t).dropWhile isGap = '"' :: (quoteChars x.toList ++ '"' :: t) := by
  have htext : quoted x ++ t = '"' :: (quoteChars x.toList ++ '"' :: t) := by
    unfold quoted
    rw [List.append_assoc]
    rfl
  rw [htext]
  exact List.dropWhile_cons_of_neg (by decide)

/-- The last item of an array. -/
theorem stringItems?_last (n : Nat) (first : Bool) (x : String) :
    stringItems? (n + 1) first (quoted x ++ [']']) = some [x] := by
  have hclose : [']'].dropWhile isGap = [']'] := rfl
  rw [stringItems?, dropWhile_quoted]
  simp only [quotedTail?_quoteChars, hclose, List.all_nil, if_true, String.ofList_toList]

/-- An item before others. -/
theorem stringItems?_comma (n : Nat) (first : Bool) (x : String) (t : List Char) :
    stringItems? (n + 1) first (quoted x ++ ',' :: t) = (stringItems? n false t).map (x :: ·) := by
  have hcomma : (',' :: t).dropWhile isGap = ',' :: t := List.dropWhile_cons_of_neg (by decide)
  rw [stringItems?, dropWhile_quoted]
  simp only [quotedTail?_quoteChars, hcomma, String.ofList_toList]

/-- The items of an array are read back, from the bracket or from a comma on. -/
theorem stringItems?_compactItems (x : String) (l : List String) {n : Nat} (hn : l.length < n)
    (first : Bool) :
    stringItems? n first (compactItems ((x :: l).map .str) ++ [']']) = some (x :: l) := by
  -- Item by item, with the first one taken out, since only the others stand behind a comma.
  induction l generalizing x n first with
  | nil =>
    obtain ⟨n, rfl⟩ := Nat.exists_eq_add_one_of_ne_zero (Nat.ne_zero_of_lt hn)
    exact stringItems?_last n first x
  | cons y l ih =>
    obtain ⟨n, rfl⟩ := Nat.exists_eq_add_one_of_ne_zero (Nat.ne_zero_of_lt hn)
    have hitems : compactItems ((x :: y :: l).map .str) ++ [']']
        = quoted x ++ ',' :: (compactItems ((y :: l).map .str) ++ [']']) := by
      change (quoted x ++ ',' :: compactItems ((y :: l).map .str)) ++ [']'] = _
      rw [List.append_assoc]
      rfl
    have hrest : stringItems? n false (compactItems ((y :: l).map .str) ++ [']']) = some (y :: l) :=
      ih y (by rw [List.length_cons] at hn; omega) false
    rw [hitems, stringItems?_comma, hrest, Option.map_some]

/-- There are at least as many characters as items. -/
theorem length_le_compactItems (l : List String) : l.length ≤ (compactItems (l.map .str)).length := by
  induction l with
  | nil => exact Nat.zero_le _
  | cons x l ih =>
    cases l with
    | nil =>
      change 1 ≤ (quoted x).length
      simp [quoted]
    | cons y l =>
      change _ ≤ (quoted x ++ ',' :: compactItems ((y :: l).map .str)).length
      simp only [List.length_append, List.length_cons] at ih ⊢
      omega

theorem toList_writeStrings (l : List String) :
    (writeStrings l).toList = '[' :: (compactItems (l.map .str) ++ [']']) :=
  String.toList_ofList

/-- **A list is read back from the text that is written for it.** -/
theorem readStrings?_writeStrings (l : List String) : readStrings? (writeStrings l).toList = some l := by
  have hopen : ∀ t, ('[' :: t).dropWhile isGap = '[' :: t := fun t =>
    List.dropWhile_cons_of_neg (by decide)
  unfold readStrings?
  rw [toList_writeStrings, hopen]
  cases l with
  | nil => rfl
  | cons x l =>
    refine stringItems?_compactItems x l ?_ true
    have hlength := length_le_compactItems (x :: l)
    -- The reader may take as many items as there are characters, which is enough.
    rw [List.length_append, List.length_singleton]
    rw [List.length_cons] at hlength
    omega

/-! ### What a store changes -/

/-- A character that is no line break and no tab is kept. -/
theorem flatChar_eq_self {c : Char} (hline : c ≠ '\n') (hreturn : c ≠ '\r') (htab : c ≠ '\t') :
    flatChar c = c :=
  if_neg fun h => h.elim hline fun h => h.elim hreturn htab

/-- Between quotes there are no line breaks and tabs. -/
theorem map_flatChar_quoteChar (c : Char) : (quoteChar c).map flatChar = quoteChar c := by
  -- Escaped by a letter, escaped by its number, or written as it is.
  obtain ⟨e, hescaped, -, hquote⟩ | ⟨hsmall, hquote⟩ | ⟨hplain, -, -, hquote⟩ := quoteChar_cases c
  · have hletter : flatChar e = e := by
      refine flatChar_eq_self ?_ ?_ ?_ <;>
        · rintro rfl
          cases hescaped
    rw [hquote, List.map_cons, List.map_singleton, hletter]
    rfl
  · have hdigit : ∀ n < 16, flatChar (Digest.hexDigit n) = Digest.hexDigit n := by decide
    rw [hquote]
    simp only [List.map_cons, List.map_nil, hdigit (c.toNat / 16) (by omega),
      hdigit (c.toNat % 16) (by omega)]
    rfl
  · have hchar : flatChar c = c := by
      refine flatChar_eq_self ?_ ?_ ?_ <;>
        · rintro rfl
          exact absurd hplain (by decide)
    rw [hquote, List.map_singleton, hchar]

theorem map_flatChar_quoted (x : String) : (quoted x).map flatChar = quoted x := by
  have hchars : (quoteChars x.toList).map flatChar = quoteChars x.toList := by
    unfold quoteChars
    rw [List.map_flatMap]
    exact List.flatMap_congr fun c _ => map_flatChar_quoteChar c
  unfold quoted
  rw [List.map_append, List.map_cons, hchars]
  rfl

/-- The items of a list are kept, quotes and commas included. -/
theorem map_flatChar_compactItems (l : List String) :
    (compactItems (l.map .str)).map flatChar = compactItems (l.map .str) := by
  induction l with
  | nil => rfl
  | cons x l ih =>
    cases l with
    | nil => exact map_flatChar_quoted x
    | cons y l =>
      change (quoted x ++ ',' :: compactItems ((y :: l).map .str)).map flatChar = _
      rw [List.map_append, List.map_cons, map_flatChar_quoted, ih]
      rfl

end Json

/-- **The text of a list is kept as it is.** -/
theorem flattened_writeStrings (items : List String) :
    flattened (Json.writeStrings items) = Json.writeStrings items := by
  have hchars : (Json.writeStrings items).toList.map flatChar = (Json.writeStrings items).toList := by
    rw [Json.toList_writeStrings, List.map_cons, List.map_append, Json.map_flatChar_compactItems]
    rfl
  unfold flattened
  rw [hchars, String.ofList_toList]

/-! ### Values that come back -/

/-- Whether a text is shown as a list: it starts with a bracket and reads as an array of strings. -/
def ReadsAsList (s : String) : Prop :=
  s.toList.head? = some '[' ∧ (Json.readStrings? s.toList).isSome

namespace Property

/-- **A value as a store gives it back** that keeps a text `s` as `keep s`. Lists are handed over as texts. -/
def keptBy (keep : String → String) : Property → Property
  | .text s => .text (keep s)
  | .list items => .text (keep (Json.writeStrings items))
  | .flag b => .flag b
  | .integer n => .integer n

theorem keptBy_flattened (v : Property) : v.keptBy flattened = v.stored := by
  cases v <;> rfl

end Property

namespace Row

/-- A text that reads as a list is shown as that list. -/
theorem decodeValue_of_readsAsList (column : String) {s : String} (h : ReadsAsList s) :
    ∃ l, Json.readStrings? s.toList = some l ∧ decodeValue column (.str s) = Json.ofTexts l := by
  obtain ⟨hhead, hread⟩ := h
  obtain ⟨l, hl⟩ := Option.isSome_iff_exists.1 hread
  refine ⟨l, hl, ?_⟩
  unfold decodeValue
  dsimp only
  rw [if_pos (beq_iff_eq.2 hhead), hl]

/-- Any other text is shown as it is. -/
theorem decodeValue_of_not_readsAsList {column : String} (hcolumn : column ∉ integerColumns) {s : String}
    (h : ¬ReadsAsList s) : decodeValue column (.str s) = .str s := by
  unfold decodeValue
  dsimp only
  by_cases hhead : s.toList.head? = some '['
  · have hread : Json.readStrings? s.toList = none := by
      rw [← Option.not_isSome_iff_eq_none]
      exact fun hsome => h ⟨hhead, hsome⟩
    rw [if_pos (beq_iff_eq.2 hhead), hread]
  · have hother : ¬integerColumns.contains column = true := by simpa using hcolumn
    rw [if_neg (mt beq_iff_eq.1 hhead), if_neg hother]

/-- **A value comes back as it was** from a store that keeps the texts of lists, unless it is a text that the
store changes or that reads as a list. -/
theorem decodeValue_keptBy_iff {keep : String → String}
    (hkeep : ∀ items, keep (Json.writeStrings items) = Json.writeStrings items) {column : String}
    (hcolumn : column ∉ integerColumns) (v : Property) :
    decodeValue column (v.keptBy keep).toJson = v.toJson ↔
      ∀ s, v = .text s → keep s = s ∧ ¬ReadsAsList s := by
  -- Only a text can be taken for something else.
  cases v with
  | flag b => exact ⟨fun _ s h => (nomatch h), fun _ => rfl⟩
  | integer n => exact ⟨fun _ s h => (nomatch h), fun _ => rfl⟩
  | list items =>
    refine ⟨fun _ s h => (nomatch h), fun _ => ?_⟩
    -- A list is stored as a text that reads as that list.
    have hread := Json.readStrings?_writeStrings items
    have hlist : ReadsAsList (Json.writeStrings items) :=
      ⟨by rw [Json.toList_writeStrings]; rfl, by rw [hread]; rfl⟩
    obtain ⟨l, hl, hshown⟩ := decodeValue_of_readsAsList column hlist
    obtain rfl : items = l := Option.some.inj (hread.symm.trans hl)
    change decodeValue column (.str (keep (Json.writeStrings items))) = _
    rw [hkeep]
    exact hshown
  | text s =>
    change decodeValue column (.str (keep s)) = .str s ↔ _
    have hgoal : (∀ t, Property.text s = .text t → keep t = t ∧ ¬ReadsAsList t) ↔
        keep s = s ∧ ¬ReadsAsList s :=
      ⟨fun h => h s rfl, fun h t ht => Property.text.inj ht ▸ h⟩
    rw [hgoal]
    by_cases hlist : ReadsAsList (keep s)
    · -- It is shown as a list, and a list is no text.
      obtain ⟨l, -, hshown⟩ := decodeValue_of_readsAsList column hlist
      rw [hshown]
      exact ⟨fun h => (nomatch h), fun ⟨hsame, hno⟩ => absurd (hsame ▸ hlist) hno⟩
    · rw [decodeValue_of_not_readsAsList hcolumn hlist]
      exact ⟨fun h => ⟨Json.str.inj h, Json.str.inj h ▸ hlist⟩, fun ⟨hsame, _⟩ => by rw [hsame]⟩

/-- **The columns of a row as it is shown** are those of the row, each with its value decoded. -/
theorem field?_decode (r : Row) (column : String) :
    (decode r).field? column = (r.get? column).map (decodeValue column) := by
  change (r.entries.map fun e => (e.1, decodeValue e.1 e.2)).lookup column
    = (r.entries.lookup column).map (decodeValue column)
  -- Column by column: each is decoded by itself.
  induction r.entries with
  | nil => rfl
  | cons e l ih =>
    by_cases h : column = e.1
    · subst h
      rw [List.map_cons, List.lookup_cons_self]
      exact congrArg (Option.map _) List.lookup_cons_self.symm
    · rw [List.map_cons, Keyed.lookup_cons_of_ne (e := (e.1, decodeValue e.1 e.2)) h,
        Keyed.lookup_cons_of_ne h, ih]

end Row

/-! ### Through a query -/

namespace Request

/-- The query for one property of all nodes. -/
def propertySelection (key name : String) : Selection :=
  { shape := .node "n" none, columns := [column "n" key name] }

/-- The row of a stored node, with the value of one of its fields. -/
def propertyRow (key name : String) (n : StoredNode) : Row :=
  Keyed.ofList [(name, (Matched.node n).value key)]

/-- The query gives a row for each stored node. -/
theorem rows_propertySelection (g : StoredGraph) (key name : String) :
    g.rows (.select (propertySelection key name)) = .ok (g.nodes.entries.map (propertyRow key name)) :=
  rows_allNodes g rfl rfl (by simp [propertySelection, hidesName])

/-- The row of a merged node has the last value that was given under the key. -/
theorem get?_propertyRow {n : Node} {key name : String} {v : Property} (hid : key ≠ "id")
    (hv : n.fields.reverse.lookup key = some v) :
    (propertyRow key name n.stored).get? name = some v.stored.toJson := by
  -- Of several values for one key, the store keeps the last one.
  have hfield : n.stored.fields.get? key = some v.stored := by
    unfold Node.stored
    rw [get?_overwrite_empty, hv]
    rfl
  have hvalue : (Matched.node n.stored).value key = v.stored.toJson := by
    unfold Matched.value fieldValue
    dsimp only
    rw [if_neg hid, hfield]
  rw [← hvalue]
  simp [propertyRow, Keyed.ofList]

end Request

/-- **Which values are read back from a store.** Let a column be none of those for integers. From every store
that keeps the texts of lists, a value is shown in the column as it was, unless it is a text that the store
changes or that starts with a bracket and reads as an array of strings. The store of this library keeps the
texts of lists, and what it changes are line breaks and tabs: a query for a field has one row for each node
of a graph, and that is what the row of a merged node shows of the value. -/
theorem Property.shown_iff {column : String} (hcolumn : column ∉ Row.integerColumns) (v : Property) :
    (∀ keep : String → String, (∀ items, keep (Json.writeStrings items) = Json.writeStrings items) →
      ∀ row : Row, row.get? column = some (v.keptBy keep).toJson →
        ((Row.decode row).field? column = some v.toJson ↔
          ∀ s, v = .text s → keep s = s ∧ ¬ReadsAsList s)) ∧
    ∀ (g : StoredGraph) (n : Node) (key : String), key ≠ "id" → n.fields.reverse.lookup key = some v →
      g.rows (.select (Request.propertySelection key column))
        = .ok (g.nodes.entries.map (Request.propertyRow key column)) ∧
      ((Row.decode (Request.propertyRow key column n.stored)).field? column = some v.toJson ↔
        ∀ s, v = .text s → flattened s = s ∧ ¬ReadsAsList s) := by
  have hdecoded : ∀ keep : String → String,
      (∀ items, keep (Json.writeStrings items) = Json.writeStrings items) →
      ∀ row : Row, row.get? column = some (v.keptBy keep).toJson →
        ((Row.decode row).field? column = some v.toJson ↔
          ∀ s, v = .text s → keep s = s ∧ ¬ReadsAsList s) := by
    intro keep hkeep row hrow
    rw [Row.field?_decode, hrow, Option.map_some, Option.some_inj]
    exact Row.decodeValue_keptBy_iff hkeep hcolumn v
  refine ⟨hdecoded, fun g n key hid hv => ⟨Request.rows_propertySelection g key column, ?_⟩⟩
  -- The library's own store is one of those stores.
  have hrow : (Request.propertyRow key column n.stored).get? column
      = some (v.keptBy flattened).toJson := by
    rw [v.keptBy_flattened]
    exact Request.get?_propertyRow hid hv
  exact hdecoded flattened flattened_writeStrings _ hrow

/-- A list of modifiers comes back from the store as it was, and so does a name of digits. -/
theorem Property.shown_iff_listAndDigits :
    let n := { Node.declared ⟨.java, .plainClass⟩ "a.A" "2024" "A.java" 1 with
      properties := Keyed.ofList [("modifiers", .list ["open", "data"])] }
    let g := (∅ : StoredGraph).mergeNode n.id (storedFields n.fields)
    (∃ row, g.rows (.select (Request.propertySelection "name" "name")) = .ok [row] ∧
      (Row.decode row).field? "name" = some (.str "2024")) ∧
    ∃ row, g.rows (.select (Request.propertySelection "modifiers" "modifiers")) = .ok [row] ∧
      (Row.decode row).field? "modifiers" = some (Json.ofTexts ["open", "data"]) := by
  intro n g
  constructor
  · have hname : "name" ∉ Row.integerColumns := by decide
    -- The text is kept as it is, and it does not begin like a list.
    obtain ⟨hrows, hshown⟩ := (Property.shown_iff hname (.text "2024")).2 g n "name" (by decide) (by rfl)
    refine ⟨_, hrows, hshown.2 fun s hs => ?_⟩
    obtain rfl := Property.text.inj hs
    exact ⟨by decide, fun h => absurd h.1 (by decide)⟩
  · have hmodifiers : "modifiers" ∉ Row.integerColumns := by decide
    obtain ⟨hrows, hshown⟩ := (Property.shown_iff hmodifiers (.list ["open", "data"])).2 g n "modifiers"
      (by decide) (by rfl)
    exact ⟨_, hrows, hshown.2 fun s hs => nomatch hs⟩

/-- **A name that reads as an array of strings comes back as a list**, even from a store that changes no
text. -/
theorem Property.text_comes_back_as_list :
    let v := Property.text "[\"a\"]"
    let row : Row := Keyed.ofList [("name", (v.keptBy id).toJson)]
    "name" ∉ Row.integerColumns ∧ (Row.decode row).field? "name" = some (.arr [.str "a"]) ∧
      (Row.decode row).field? "name" ≠ some v.toJson := by
  intro v row
  have hread : Json.readStrings? "[\"a\"]".toList = some ["a"] := by decide +kernel
  obtain ⟨l, hl, hshown⟩ := Row.decodeValue_of_readsAsList "name" (s := "[\"a\"]")
    ⟨by decide, by rw [hread]; rfl⟩
  obtain rfl : ["a"] = l := Option.some.inj (hread.symm.trans hl)
  have hrow : row.get? "name" = some (.str "[\"a\"]") := rfl
  -- The column is decoded like any other, and the text in it reads as an array.
  have hlist : (Row.decode row).field? "name" = some (.arr [.str "a"]) := by
    rw [Row.field?_decode, hrow]
    exact congrArg some hshown
  refine ⟨by decide, hlist, ?_⟩
  rw [hlist]
  exact fun h => nomatch Option.some.inj h

end CodeAtlas
