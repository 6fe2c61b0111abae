import CodeAtlas.Proofs.Legible
import CodeAtlas.Proofs.Batch
import CodeAtlas.Proofs.NodeIdentity

/-!
# What the text of a statement says

The text of a statement determines what the statement does (`render_determines`): two nodes with the same
text have the same id, the same kind and the same fields, and two relationships with the same text have the
same ends, the same kind and the same properties. Names, paths, comments and source lines are arbitrary
texts; what keeps them from passing for the words around them is that each part of a statement is legible
before what follows it.

* A value begins with a character that tells its sort (`exists_lead`), and within a sort it is legible
  before anything but a digit (`legible_render`). So no text reads like a number, and no text like two.
* An assignment is a name, a few fixed characters and a value (`legible_assignment`). Here the names of
  properties have to be plain; this is all that is asked of them.
* The assignments of a node are written twice, with fixed words between them. Both halves have the same
  length, so they can be cut apart without reading them (`eq_of_written_twice`).
-/

namespace CodeAtlas

/-! ### Fixed words -/

/-- A text goes on as it begins. -/
theorem head?_append_of_head? {w : List Char} {c : Char} (h : w.head? = some c) (s : List Char) :
    (w ++ s).head? = some c := by
  rw [List.head?_append, h]
  rfl

/-- A text stops where a word begins whose first character is of another class. -/
theorem stopsAt_append {p : Char → Bool} {w : List Char} {c : Char} (h : w.head? = some c)
    (hc : p c = false) (s : List Char) : StopsAt p (w ++ s) := by
  intro d hd
  rw [head?_append_of_head? h] at hd
  obtain rfl := Option.some.inj hd
  exact hc

/-- Texts that begin with different characters differ. -/
theorem append_ne_of_head? {v w : List Char} {c d : Char} (hv : v.head? = some c) (hw : w.head? = some d)
    (h : c ≠ d) (s t : List Char) : v ++ s ≠ w ++ t := by
  intro he
  have hhead := congrArg List.head? he
  rw [head?_append_of_head? hv, head?_append_of_head? hw] at hhead
  exact h (Option.some.inj hhead)

theorem stopsAt_nil (p : Char → Bool) : StopsAt p [] :=
  fun _ hc => nomatch hc

/-- Strings joined with a separator, as characters. -/
theorem toList_joined {α : Type} (sep : String) {f : α → String} {write : α → List Char}
    (h : ∀ a, (f a).toList = write a) (l : List α) :
    (Text.joined sep (l.map f)).toList = sep.toList.intercalate (l.map write) := by
  unfold Text.joined
  rw [String.toList_intercalate, List.map_map]
  exact congrArg _ (List.map_congr_left fun a _ => h a)

/-! ### Values -/

namespace Property

/-- The sort of a value. -/
def sort : Property → Nat
  | .flag _ => 0
  | .integer _ => 1
  | .text _ => 2
  | .list _ => 3

/-- The sort of the values that begin with a character. -/
def sortOfLead (c : Char) : Nat :=
  if c = '\'' then 2 else if c = '[' then 3 else if c = 't' ∨ c = 'f' then 0 else 1

/-- A digit begins a number. -/
theorem sortOfLead_of_isDigit {c : Char} (h : c.isDigit = true) : sortOfLead c = 1 := by
  unfold sortOfLead
  split
  · rename_i hc
    rw [hc] at h
    cases h
  split
  · rename_i hc
    rw [hc] at h
    cases h
  split
  · rename_i hc
    rcases hc with rfl | rfl <;> cases h
  · rfl

/-- How a list is written. -/
theorem toList_render_list (items : List String) :
    (render (.list items)).toList
      = '[' :: (", ".toList.intercalate (items.map fun i => quoteText i.toList) ++ [']']) := by
  have hitems : (Text.joined ", " (items.map quote)).toList
      = ", ".toList.intercalate (items.map fun i => quoteText i.toList) :=
    toList_joined ", " (fun _ => String.toList_ofList) items
  change ("[" ++ Text.joined ", " (items.map quote) ++ "]").toList = _
  rw [String.toList_append, String.toList_append, hitems]
  rfl

theorem toList_render_text (s : String) : (render (.text s)).toList = quoteText s.toList :=
  String.toList_ofList

theorem toList_render_integer (n : Int64) : (render (.integer n)).toList = Json.intChars n.toInt :=
  String.toList_ofList

/-- **The first character of a value tells its sort.** -/
theorem exists_lead (v : Property) : ∃ c, v.render.toList.head? = some c ∧ sortOfLead c = v.sort := by
  -- A letter for a flag, a sign or a digit for a number, a quote for a text and a bracket for a list.
  cases v with
  | flag b =>
    cases b with
    | true => exact ⟨'t', by decide, rfl⟩
    | false => exact ⟨'f', by decide, rfl⟩
  | integer n =>
    rw [toList_render_integer]
    unfold Json.intChars
    split
    · exact ⟨'-', rfl, rfl⟩
    · obtain ⟨c, s, hs, hc⟩ := exists_digit_natChars n.toInt.natAbs
      exact ⟨c, congrArg List.head? hs, sortOfLead_of_isDigit hc⟩
  | text s => exact ⟨'\'', congrArg List.head? (toList_render_text s), rfl⟩
  | list items => exact ⟨'[', congrArg List.head? (toList_render_list items), rfl⟩

/-- The items of a list are legible up to the closing bracket. -/
theorem legible_items : Legible (fun _ => True)
    (fun items : List String => ", ".toList.intercalate (items.map fun i => quoteText i.toList))
    (fun s => ∃ r, s = ']' :: r) := by
  have hquote : Legible (fun _ => True) (fun i : String => quoteText i.toList) (fun _ => True) :=
    legible_quoteText.comap (fun _ _ h => String.toList_inj.1 h) fun _ _ => trivial
  -- Between items stands a comma, behind the last one a bracket, and no item begins with either.
  have hlist := hquote.separated ", ".toList (fun s => ∃ r, s = ']' :: r) (fun _ => trivial) ?_ ?_
  · intro l m s t _ _ hs ht h
    exact hlist l m s t (fun _ _ => trivial) (fun _ _ => trivial) hs ht h
  · rintro s ⟨r, rfl⟩
    exact ⟨trivial, append_ne_of_head? (v := [']']) rfl (by decide : _ = some ',') (by decide) r⟩
  · rintro i s t ⟨r, rfl⟩
    exact append_ne_of_head? (c := '\'') (w := [']']) rfl rfl (by decide) s r

/-- **A value is legible before anything but a digit.** -/
theorem legible_render :
    Legible (fun _ => True) (fun v : Property => v.render.toList) (StopsAt Char.isDigit) := by
  intro a b s t _ _ hs ht h
  dsimp only at h
  -- Values that begin with the same character are of the same sort.
  have hsort : a.sort = b.sort := by
    obtain ⟨c, hc, hsort⟩ := a.exists_lead
    obtain ⟨d, hd, hsort'⟩ := b.exists_lead
    have hhead := congrArg List.head? h
    rw [head?_append_of_head? hc, head?_append_of_head? hd] at hhead
    obtain rfl := Option.some.inj hhead
    exact hsort.symm.trans hsort'
  -- Sort by sort; in each of them the other value is of the same one.
  cases a with
  | flag x =>
    cases b with
    | flag y =>
      have hhead : ∀ b, (render (.flag b)).toList.head? = some (if b then 't' else 'f') := by decide
      have hxy : x = y := by
        have hheads := congrArg List.head? h
        rw [head?_append_of_head? (hhead x), head?_append_of_head? (hhead y)] at hheads
        revert hheads
        cases x <;> cases y <;> decide
      subst hxy
      exact ⟨rfl, List.append_cancel_left h⟩
    | _ => cases hsort
  | integer x =>
    cases b with
    | integer y =>
      rw [toList_render_integer, toList_render_integer] at h
      obtain ⟨hxy, hst⟩ := legible_intChars _ _ s t trivial trivial hs ht h
      exact ⟨by rw [Int64.toInt_inj.1 hxy], hst⟩
    | _ => cases hsort
  | text x =>
    cases b with
    | text y =>
      rw [toList_render_text, toList_render_text] at h
      obtain ⟨hxy, hst⟩ := legible_quoteText _ _ s t trivial trivial trivial trivial h
      exact ⟨by rw [String.toList_inj.1 hxy], hst⟩
    | _ => cases hsort
  | list x =>
    cases b with
    | list y =>
      rw [toList_render_list, toList_render_list, List.cons_append, List.cons_append, List.append_assoc,
        List.append_assoc] at h
      obtain ⟨rfl, hst⟩ := legible_items x y _ _ trivial trivial ⟨s, rfl⟩ ⟨t, rfl⟩ (List.cons.inj h).2
      exact ⟨rfl, (List.cons.inj hst).2⟩
    | _ => cases hsort

end Property

/-! ### Assignments -/

/-- A character of a plain name. -/
def isNameChar (c : Char) : Bool :=
  Text.isAsciiLetter c || Text.isAsciiDigit c || c == '_'

/-- **All names of a map are plain**: letters, digits and underscores. -/
def Keyed.PlainNames {α : Type} (m : Keyed α) : Prop :=
  ∀ k ∈ m.keys, ∀ c ∈ k.toList, isNameChar c = true

/-- The test on names says what it should. -/
theorem Keyed.plainNames_iff {α : Type} {m : Keyed α} :
    m.PlainNames ↔ (m.keys.all fun k => k.toList.all isNameChar) = true := by
  unfold PlainNames
  simp only [List.all_eq_true]

/-- A value assigned to a name, as characters: the name between two fixed texts, and the value. -/
def assigned (lead mid : List Char) (e : String × Property) : List Char :=
  lead ++ (e.1.toList ++ (mid ++ e.2.render.toList))

/-- **An assignment to a plain name is legible before anything but a digit**, if the name ends where the
fixed text begins. -/
theorem legible_assignment (lead : List Char) {mid : List Char} {c : Char} (hmid : mid.head? = some c)
    (hc : isNameChar c = false) :
    Legible (fun e : String × Property => ∀ d ∈ e.1.toList, isNameChar d = true)
      (assigned lead mid) (StopsAt Char.isDigit) := by
  rintro ⟨j, v⟩ ⟨k, w⟩ s t hj hk hs ht h
  unfold assigned at h
  simp only [List.append_assoc] at h
  -- The name runs up to the first character that is none of names, so it is the same in both texts.
  obtain ⟨hjk, hrest⟩ := legible_run isNameChar _ _ _ _ hj hk (stopsAt_append hmid hc _)
    (stopsAt_append hmid hc _) (List.append_cancel_left h)
  obtain ⟨rfl, hst⟩ := Property.legible_render v w s t trivial trivial hs ht
    (List.append_cancel_left hrest)
  exact ⟨congrArg (·, v) (String.toList_inj.1 hjk), hst⟩

/-- **Assignments with commas between them say which they are.** -/
theorem assignments_injective {lead mid : List Char} {c : Char} (hmid : mid.head? = some c)
    (hc : isNameChar c = false) {l m : List (String × Property)}
    (hl : ∀ e ∈ l, ∀ d ∈ e.1.toList, isNameChar d = true)
    (hm : ∀ e ∈ m, ∀ d ∈ e.1.toList, isNameChar d = true)
    (h : ", ".toList.intercalate (l.map (assigned lead mid))
      = ", ".toList.intercalate (m.map (assigned lead mid))) : l = m := by
  have hcomma : ", ".toList.head? = some ',' := by decide
  have hlist := (legible_assignment lead hmid hc).separated ", ".toList (· = [])
    (stopsAt_append hcomma (by decide)) ?_ ?_
  · exact (hlist l m [] [] hl hm rfl rfl (by rw [List.append_nil, List.append_nil]; exact h)).1
  -- Nothing follows the last assignment, and nothing does not begin with a comma.
  · rintro s rfl
    refine ⟨stopsAt_nil _, fun t ht => ?_⟩
    have hhead := congrArg List.head? ht
    rw [head?_append_of_head? hcomma] at hhead
    cases hhead
  · -- A value is never empty, so an assignment cannot stand at the end.
    rintro e s t rfl he
    obtain ⟨d, hd, -⟩ := e.2.exists_lead
    simp only [assigned, List.append_eq_nil_iff] at he
    rw [he.1.2.2.2] at hd
    cases hd

/-! ### Nodes -/

/-- A text that is written twice with fixed words between can be cut apart. -/
theorem eq_of_written_twice {a b mid : List Char} (h : a ++ (mid ++ a) = b ++ (mid ++ b)) : a = b := by
  have hlength := congrArg List.length h
  simp only [List.length_append] at hlength
  exact List.append_inj_left h (by omega)

/-- Labels of nodes are plain names. -/
theorem NodeKind.isNameChar_of_mem_label (k : NodeKind) : ∀ c ∈ k.label.toList, isNameChar c = true := by
  have hname : ∀ x ∈ Category.all, x.name.toList.all isNameChar = true := by decide +kernel
  have hhead : ∀ ns : Namespace, ns.labelHead.toList.all isNameChar = true := by
    intro ns
    cases ns <;> decide +kernel
  intro c hc
  unfold label at hc
  rw [String.toList_append, List.mem_append] at hc
  rcases hc with hc | hc
  · exact List.all_eq_true.1 (hhead k.space) c hc
  · exact List.all_eq_true.1 (hname k.category (Category.mem_all k.category)) c hc

namespace Node

/-- The text of a node, part by part. -/
theorem toList_render (n : Node) :
    n.render.toList = "MERGE (n:".toList ++ (n.kind.label.toList ++ (" \x7bid: ".toList ++
      (quoteText n.id.toList ++ ("\x7d) ON CREATE SET ".toList ++
        (", ".toList.intercalate (n.fields.map (assigned "n.".toList " = ".toList)) ++
          (" ON MATCH SET ".toList ++
            ", ".toList.intercalate (n.fields.map (assigned "n.".toList " = ".toList)))))))) := by
  -- The fields stand there twice, written in the same way.
  have hfields : (Text.joined ", " (n.fields.map fun f => "n." ++ f.1 ++ " = " ++ f.2.render)).toList
      = ", ".toList.intercalate (n.fields.map (assigned "n.".toList " = ".toList)) := by
    refine toList_joined ", " (fun f => ?_) n.fields
    simp only [assigned, String.toList_append, List.append_assoc]
  unfold render quote
  simp only [String.toList_append, String.toList_ofList, hfields, List.append_assoc]

/-- The fields of a node have plain names as soon as its properties do. -/
theorem isNameChar_of_mem_fields {n : Node} (h : n.properties.PlainNames) :
    ∀ e ∈ n.fields, ∀ c ∈ e.1.toList, isNameChar c = true := by
  have hcore : ∀ k ∈ ["name", "file_path", "node_type", "line_number"],
      k.toList.all isNameChar = true := by decide
  intro e he
  rcases mem_fields he with he | he
  · exact List.all_eq_true.1 (hcore e.1 he)
  · exact h e.1 he

/-- **The text of a node says its id, its kind and its fields.** -/
theorem render_injective {n m : Node} (hn : n.properties.PlainNames) (hm : m.properties.PlainNames)
    (h : n.render = m.render) : n.id = m.id ∧ n.kind = m.kind ∧ n.fields = m.fields := by
  have htext := congrArg String.toList h
  rw [toList_render, toList_render] at htext
  -- The label ends at the first blank, and the id at its closing quote.
  have hblank : " \x7bid: ".toList.head? = some ' ' := by decide
  obtain ⟨hlabel, hrest⟩ := legible_run isNameChar _ _ _ _ n.kind.isNameChar_of_mem_label
    m.kind.isNameChar_of_mem_label (stopsAt_append hblank (by decide) _)
    (stopsAt_append hblank (by decide) _) (List.append_cancel_left htext)
  have hkind : n.kind = m.kind :=
    smallLabel_label_injective (congrArg smallLabel (String.toList_inj.1 hlabel))
  obtain ⟨hid, hrest⟩ := legible_quoteText _ _ _ _ trivial trivial trivial trivial
    (List.append_cancel_left hrest)
  -- What is left are the assignments, twice.
  have hassigned := eq_of_written_twice (List.append_cancel_left hrest)
  exact ⟨String.toList_inj.1 hid, hkind, assignments_injective (c := ' ') (by decide) (by decide)
    (isNameChar_of_mem_fields hn) (isNameChar_of_mem_fields hm) hassigned⟩

/-- The text of a node depends on nothing else. -/
theorem render_congr {n m : Node} (hid : n.id = m.id) (hkind : n.kind = m.kind)
    (hfields : n.fields = m.fields) : n.render = m.render := by
  unfold render
  rw [hid, hkind, hfields]

end Node

/-! ### Relationships -/

/-- Labels of relationships are plain names in the store. -/
theorem RelKind.isNameChar_of_mem_storeLabel (k : RelKind) :
    ∀ c ∈ k.storeLabel.toList, isNameChar c = true := by
  have hall : ∀ k ∈ RelKind.all, k.storeLabel.toList.all isNameChar = true := by decide +kernel
  exact List.all_eq_true.1 (hall k (mem_all k))

namespace Relationship

/-- How the properties of a relationship are written. -/
theorem toList_pattern (r : Relationship) :
    r.pattern.toList = if r.properties.entries.isEmpty then [] else " \x7b".toList ++
      (", ".toList.intercalate (r.properties.entries.map (assigned [] ": ".toList)) ++ "\x7d".toList) := by
  have hentries : (Text.joined ", " (r.properties.entries.map fun e => e.1 ++ ": " ++ e.2.render)).toList
      = ", ".toList.intercalate (r.properties.entries.map (assigned [] ": ".toList)) := by
    refine toList_joined ", " (fun e => ?_) r.properties.entries
    simp only [assigned, String.toList_append, List.append_assoc, List.nil_append]
  unfold pattern
  split
  · rfl
  · rw [String.toList_append, String.toList_append, hentries, List.append_assoc]

/-- **A pattern says the properties.** -/
theorem pattern_injective {r s : Relationship} (hr : r.properties.PlainNames)
    (hs : s.properties.PlainNames) (h : r.pattern.toList = s.pattern.toList) :
    r.properties = s.properties := by
  have hopen : ∀ x : List Char, " \x7b".toList ++ x ≠ [] := by
    intro x hx
    have hhead : (" \x7b".toList ++ x).head? = some ' ' := head?_append_of_head? (by decide) x
    rw [hx] at hhead
    cases hhead
  rw [toList_pattern, toList_pattern] at h
  apply Keyed.ext_entries
  -- Without properties nothing is written, so the two have some or they have none.
  by_cases hre : r.properties.entries.isEmpty = true
  · by_cases hse : s.properties.entries.isEmpty = true
    · rw [List.isEmpty_iff.1 hre, List.isEmpty_iff.1 hse]
    · rw [if_pos hre, if_neg hse] at h
      exact absurd h.symm (hopen _)
  · by_cases hse : s.properties.entries.isEmpty = true
    · rw [if_neg hre, if_pos hse] at h
      exact absurd h (hopen _)
    · rw [if_neg hre, if_neg hse] at h
      have hassigned := List.append_cancel_right (List.append_cancel_left h)
      exact assignments_injective (c := ':') (by decide) (by decide)
        (fun e he => hr e.1 (List.mem_map_of_mem he)) (fun e he => hs e.1 (List.mem_map_of_mem he))
        hassigned

/-- The text of a relationship, part by part. -/
theorem toList_render (r : Relationship) :
    r.render.toList = "MATCH (a \x7bid: ".toList ++ (quoteText r.source.toList ++
      ("\x7d), (b \x7bid: ".toList ++ (quoteText r.target.toList ++ ("\x7d) MERGE (a)-[r:".toList ++
        (r.kind.storeLabel.toList ++ (r.pattern.toList ++ "]->(b)".toList)))))) := by
  unfold render quote
  simp only [String.toList_append, String.toList_ofList, List.append_assoc]

/-- A label ends where the pattern or the arrow begins. -/
theorem stopsAt_pattern (r : Relationship) :
    StopsAt isNameChar (r.pattern.toList ++ "]->(b)".toList) := by
  rw [toList_pattern]
  split
  · rw [List.nil_append, ← List.append_nil "]->(b)".toList]
    exact stopsAt_append (c := ']') (by decide) (by decide) []
  · rw [List.append_assoc]
    exact stopsAt_append (c := ' ') (by decide) (by decide) _

/-- **The text of a relationship says its ends, its kind and its properties.** -/
theorem render_injective {r s : Relationship} (hr : r.properties.PlainNames)
    (hs : s.properties.PlainNames) (h : r.render = s.render) :
    r.source = s.source ∧ r.target = s.target ∧ r.kind = s.kind ∧ r.properties = s.properties := by
  have htext := congrArg String.toList h
  rw [toList_render, toList_render] at htext
  obtain ⟨hsource, hrest⟩ := legible_quoteText _ _ _ _ trivial trivial trivial trivial
    (List.append_cancel_left htext)
  obtain ⟨htarget, hrest⟩ := legible_quoteText _ _ _ _ trivial trivial trivial trivial
    (List.append_cancel_left hrest)
  obtain ⟨hlabel, hrest⟩ := legible_run isNameChar _ _ _ _ r.kind.isNameChar_of_mem_storeLabel
    s.kind.isNameChar_of_mem_storeLabel r.stopsAt_pattern s.stopsAt_pattern
    (List.append_cancel_left hrest)
  -- What is left are the properties and the closing words.
  exact ⟨String.toList_inj.1 hsource, String.toList_inj.1 htarget,
    RelKind.storeLabel_injective (String.toList_inj.1 hlabel),
    pattern_injective hr hs (List.append_cancel_right hrest)⟩

/-- The text of a relationship depends on nothing else. -/
theorem render_congr {r s : Relationship} (hsource : r.source = s.source) (htarget : r.target = s.target)
    (hkind : r.kind = s.kind) (hproperties : r.properties = s.properties) : r.render = s.render := by
  unfold render pattern
  rw [hsource, htarget, hkind, hproperties]

end Relationship

/-! ### Statements -/

/-- **The text of a statement determines what it does.** Nodes with plain property names have the same text
just if they have the same id, kind and fields; relationships with plain property names have the same text
just if they have the same ends, kind and properties; and no node has the text of a relationship. -/
theorem render_determines :
    (∀ n m : Node, n.properties.PlainNames → m.properties.PlainNames →
      (n.render = m.render ↔ n.id = m.id ∧ n.kind = m.kind ∧ n.fields = m.fields)) ∧
    (∀ r s : Relationship, r.properties.PlainNames → s.properties.PlainNames →
      (r.render = s.render ↔ r.source = s.source ∧ r.target = s.target ∧ r.kind = s.kind ∧
        r.properties = s.properties)) ∧
    ∀ (n : Node) (r : Relationship), n.render ≠ r.render := by
  refine ⟨fun n m hn hm => ⟨Node.render_injective hn hm, ?_⟩,
    fun r s hr hs => ⟨Relationship.render_injective hr hs, ?_⟩, fun n r h => ?_⟩
  · rintro ⟨hid, hkind, hfields⟩
    exact Node.render_congr hid hkind hfields
  · rintro ⟨hsource, htarget, hkind, hproperties⟩
    exact Relationship.render_congr hsource htarget hkind hproperties
  · -- The second letter is another one.
    have htext := congrArg String.toList h
    rw [Node.toList_render, Relationship.toList_render] at htext
    have hsecond := congrArg (·[1]?) htext
    rw [List.getElem?_append_left (by decide), List.getElem?_append_left (by decide)] at hsecond
    revert hsecond
    decide

/-- A file with the given properties. -/
def fileWith (properties : Properties) : Node :=
  { id := "file:1", kind := .generic .file, name := "a.py", path := "a.py", line := none, properties }

/-- Two properties. -/
def twoTexts : Properties := Keyed.ofList [("a", .text "1"), ("b", .text "2")]

/-- One property whose text reads like two of a node, or like two of a relationship. -/
def oneText (mid : String) : Properties := Keyed.ofList [("a", .text ("1', " ++ mid ++ "'2"))]

/-- A text that imitates an assignment does not pass for one, neither in a node nor in a relationship. -/
theorem render_determines_imitation :
    ((oneText "n.b = ").PlainNames ∧ twoTexts.PlainNames ∧
      (fileWith (oneText "n.b = ")).render ≠ (fileWith twoTexts).render) ∧
    ((oneText "b: ").PlainNames ∧
      ({ kind := .contains, source := "x", target := "y", properties := oneText "b: " } :
          Relationship).render
        ≠ ({ kind := .contains, source := "x", target := "y", properties := twoTexts } :
          Relationship).render) := by
  have htwo : twoTexts.PlainNames := Keyed.plainNames_iff.2 (by decide)
  have hnode : (oneText "n.b = ").PlainNames := Keyed.plainNames_iff.2 (by decide)
  have hrel : (oneText "b: ").PlainNames := Keyed.plainNames_iff.2 (by decide)
  refine ⟨⟨hnode, htwo, fun h => ?_⟩, hrel, fun h => ?_⟩
  -- Were the texts the same, so would be the fields, but one node has one and the other has two.
  · obtain ⟨-, -, hfields⟩ := (render_determines.1 _ _ hnode htwo).1 h
    exact absurd hfields (by decide)
  · obtain ⟨-, -, -, hproperties⟩ := (render_determines.2.1 _ _ hrel htwo).1 h
    exact absurd hproperties (by decide)

end CodeAtlas
