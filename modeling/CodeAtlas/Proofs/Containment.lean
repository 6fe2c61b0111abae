import CodeAtlas.Proofs.RecordParts

/-!
# Declarations and what holds them

A record puts each of its declarations into a file, a scope or a type. The links that do so are the only
relationships of the record; this module says which nodes they reach.

Every import, callable and field of a record is held, and so is its scope. A type is held unless it has been
*displaced*: types are linked through their nested names, a nested name stands for the last type that has
it, and an id covers the category of a type as well. So of two types of one nested name but different
categories, such as a local class and a local enum of the same name in two methods, the first one gets a
node but is never put anywhere (`hangs_emitRecord`). Where types of one nested name have one category,
nothing is displaced.

The *depth* of a category (`Category.depth`) is what tells the ids of types from all others here: a file is
above a scope, a scope above a type, and a type above its members.
-/

namespace CodeAtlas

/-! ### Depths -/

/-- How deep a category lies: files, scopes, types, and what is declared in them. -/
def Category.depth (c : Category) : Nat :=
  if c = .file then 0 else if c.isScope then 1 else if c.isType then 2 else 3

/-- The depth of the node with an id. -/
def depthOfId (id : String) : Nat :=
  ((kindOfId? id).map fun k => k.category.depth).getD 0

/-- The depth is told by the id, since the id of a node tells its kind. -/
theorem Node.Identified.depthOfId {n : Node} (h : n.Identified) :
    depthOfId n.id = n.kind.category.depth := by
  unfold CodeAtlas.depthOfId
  rw [h]
  rfl

namespace FileSite

variable (f : FileSite)

/-- Scopes lie right below files. -/
theorem depth_scopeNode? {scope : Option RecordScope} {e : String × Node}
    (h : f.scopeNode? scope = some e) : depthOfId e.2.id = 1 := by
  rw [(declares_scopeNode? h).identified.depthOfId]
  cases scope with
  | none => cases h
  | some scope =>
    unfold scopeNode? at h
    dsimp only at h
    split at h
    · cases h
    · obtain rfl := Option.some.inj h
      -- The documentation that is set on the node leaves its kind.
      rw [Node.kind_setText?]
      change f.language.scopeCategory.depth = 1
      cases f.language <;> rfl

/-- The id of a type covers its category and its qualified name. -/
theorem id_typeNode (d : TypeDecl) :
    (f.typeNode d).id = nodeId (f.kind (f.language.typeCategory d.kind)) (f.qualify d.nestedName)
      (Path.normalize f.path) := by
  simp [typeNode, TypeDecl.node, Node.declared, Node.withId]

/-- Imports lie as deep as members. -/
theorem depth_importNode (d : ImportDecl) : depthOfId (f.importNode d).id = 3 := by
  unfold importNode
  rw [(d.identified_node _ _).depthOfId, d.kind_node]
  rfl

/-- Types lie below scopes, whatever their kind. -/
theorem depth_typeNode (d : TypeDecl) : depthOfId (f.typeNode d).id = 2 := by
  unfold typeNode
  rw [(d.identified_node _ _ _).depthOfId, d.kind_node]
  change (f.language.typeCategory d.kind).depth = 2
  cases f.language <;> cases d.kind <;> rfl

/-- Callables lie below types. -/
theorem depth_callableNode (d : CallableDecl) : depthOfId (f.callableNode d).id = 3 := by
  unfold callableNode
  rw [(d.identified_node _ _ _).depthOfId, d.kind_node]
  change (f.language.callableCategory d).depth = 3
  unfold Language.callableCategory
  -- Each language has categories of its own for callables, and all of them are members.
  split
  · split <;> rfl
  · split <;> rfl
  · split
    · rfl
    · split <;> rfl
  · rfl

/-- Fields lie below types. -/
theorem depth_fieldNode (d : FieldDecl) : depthOfId (f.fieldNode d).id = 3 := by
  unfold fieldNode
  rw [(d.identified_node _ _ _).depthOfId, d.kind_node]
  change f.language.fieldCategory.depth = 3
  cases f.language <;> rfl

end FileSite

/-! ### Links -/

/-- Whether a relationship puts its target into its source. -/
def RelKind.isContainment (k : RelKind) : Bool :=
  k == .contains || k == .definesClass || k == .definesFunction

namespace FileSite

variable {f : FileSite}

/-- A link leads to what it was made for. -/
theorem target_link (owner : Option (String × String)) (id : String) (c : Category) :
    (f.link owner id c).target = id := by
  unfold link topLevelLink
  cases owner with
  | some t => rfl
  | none =>
    dsimp only
    cases f.scope with
    | some e => rfl
    | none => rfl

/-- Whoever holds a declaration, the link says so. -/
theorem isContainment_link (owner : Option (String × String)) (id : String) (c : Category) :
    (f.link owner id c).kind.isContainment = true := by
  have hscope : ∀ l : Language, (l.scopeLink c).isContainment = true := by
    intro l
    unfold Language.scopeLink
    split <;> rfl
  unfold link topLevelLink
  -- A type holds by a link of its own; at the top level the language and the scope decide.
  cases owner with
  | some t => rfl
  | none =>
    dsimp only
    cases f.scope with
    | some e => exact hscope f.language
    | none => rfl

/-- A link starts at the type around a declaration, or else at the scope, or else at the file. -/
theorem source_link (nested : Option String) (id : String) (c : Category) :
    (∃ name t, nested = some name ∧ f.type? name = some t ∧
        (f.link (f.owner? nested) id c).source = t.1) ∨
      (∃ e, f.scope = some e ∧ (f.link (f.owner? nested) id c).source = e.2) ∨
      (f.link (f.owner? nested) id c).source = f.fileId := by
  unfold link
  -- An owner is a type that the file knows by the nested name.
  cases ho : f.owner? nested with
  | some t =>
    obtain ⟨name, rfl, ht⟩ := Option.bind_eq_some_iff.1 ho
    exact .inl ⟨name, t, rfl, ht, rfl⟩
  | none =>
    refine .inr ?_
    dsimp only
    unfold topLevelLink
    cases hs : f.scope with
    | some e => exact .inl ⟨e, rfl, rfl⟩
    | none => exact .inr rfl

/-- **The links of a record, one by one.** -/
theorem mem_recordLinks {r : SourceRecord} {rel : Relationship} :
    rel ∈ f.recordLinks r ↔
      (∃ e, f.scopeNode? r.scope? = some e ∧ rel = f.fileLink e.2) ∨
      (∃ d ∈ r.facts.imports, rel = f.fileLink ((f.inside r).importNode d)) ∨
      (∃ d ∈ r.facts.types, ∃ t, (f.inside r).type? d.nestedName = some t ∧
        rel = (f.inside r).link ((f.inside r).owner? d.enclosing) t.1
          ((f.inside r).language.typeCategory d.kind)) ∨
      (∃ d ∈ r.facts.callables, rel = (f.inside r).callableLink d) ∨
      ∃ d ∈ r.facts.fields, rel = (f.inside r).fieldLink d := by
  unfold recordLinks typeLinks
  simp only [List.mem_append, List.mem_map, List.mem_flatMap, Option.mem_toList, or_assoc, eq_comm]

/-! ### Fresh sites -/

/-- **A site at which nothing of its record is known yet.** -/
structure Fresh (f : FileSite) : Prop where
  scope : f.scope = none
  types : f.types = []

/-- A record leaves the file of a site. -/
theorem fileId_inside (r : SourceRecord) : (f.inside r).fileId = f.fileId := by
  unfold inside
  rw [withTypes_eq]
  exact fileId_enter f r.scope?

theorem language_inside (r : SourceRecord) : (f.inside r).language = f.language := by
  unfold inside
  rw [language_withTypes, language_enter]

section Fresh

variable (hf : f.Fresh) (r : SourceRecord)
include hf

/-- Inside of a record the scope is that of the record. -/
theorem Fresh.scope_inside :
    (f.inside r).scope = (f.scopeNode? r.scope?).map fun e => (e.1, e.2.id) := by
  unfold inside enter
  rw [withTypes_eq]
  cases f.scopeNode? r.scope? with
  | none => exact hf.scope
  | some e => rfl

/-- A nested name stands for the last type that has it, and for nothing else. -/
theorem Fresh.type?_inside (nested : String) :
    (f.inside r).type? nested = (lastNamed? r.facts.types nested).map fun d =>
      (((f.inside r).typeNode d).id, (f.inside r).qualify nested) := by
  -- A fresh file knows no type yet, so all that are found are those of the record.
  have hnone : (f.enter r.scope?).type? nested = none := by
    unfold type?
    rw [types_enter, hf.types]
    rfl
  have hqualify : (f.inside r).qualify nested = (f.enter r.scope?).qualify nested := by
    unfold inside
    rw [withTypes_eq]
    rfl
  unfold inside at hqualify ⊢
  rw [type?_withTypes, hnone, Option.or_none, hqualify]
  simp only [typeNode_withTypes]

end Fresh

/-- The ids that may hold a declaration of a record: the file, the scope and the types. -/
def holders (f : FileSite) (r : SourceRecord) : List String :=
  f.fileId :: ((f.scopeNode? r.scope?).toList.map (·.2.id) ++
    r.facts.types.map fun d => ((f.inside r).typeNode d).id)

/-- A link starts at one of the holders. -/
theorem Fresh.source_link_mem (hf : f.Fresh) (r : SourceRecord) (nested : Option String) (id : String)
    (c : Category) :
    ((f.inside r).link ((f.inside r).owner? nested) id c).source ∈ f.holders r := by
  unfold holders
  -- The owner is a type, the scope or the file.
  rcases (f.inside r).source_link nested id c with ⟨name, t, -, ht, h⟩ | ⟨e, he, h⟩ | h
  · rw [hf.type?_inside] at ht
    obtain ⟨d, hd, rfl⟩ := Option.map_eq_some_iff.1 ht
    rw [h]
    refine List.mem_cons_of_mem _ (List.mem_append_right _ ?_)
    exact List.mem_map.2 ⟨d, (lastNamed?_eq_some hd).1, rfl⟩
  · rw [hf.scope_inside] at he
    obtain ⟨e', he', rfl⟩ := Option.map_eq_some_iff.1 he
    rw [h]
    refine List.mem_cons_of_mem _ (List.mem_append_left _ ?_)
    exact List.mem_map.2 ⟨e', Option.mem_toList.2 he', rfl⟩
  · rw [h, fileId_inside]
    exact List.mem_cons_self

/-- **Every link of a record puts something into the file, the scope or a type.** -/
theorem Fresh.holds_recordLinks (hf : f.Fresh) {r : SourceRecord} :
    ∀ rel ∈ f.recordLinks r, rel.kind.isContainment = true ∧ rel.source ∈ f.holders r := by
  intro rel hrel
  -- One kind of link after the other.
  rcases mem_recordLinks.1 hrel with
    ⟨e, -, rfl⟩ | ⟨d, -, rfl⟩ | ⟨d, -, t, -, rfl⟩ | ⟨d, -, rfl⟩ | ⟨d, -, rfl⟩
  · exact ⟨rfl, List.mem_cons_self⟩
  · exact ⟨rfl, List.mem_cons_self⟩
  · exact ⟨isContainment_link _ _ _, hf.source_link_mem r _ _ _⟩
  · exact ⟨isContainment_link _ _ _, hf.source_link_mem r _ _ _⟩
  · exact ⟨isContainment_link _ _ _, hf.source_link_mem r _ _ _⟩

/-! ### Displaced types -/

/-- **A type that later ones have displaced**: its id is that of a type of the record, but of none that is
the last one of its nested name. -/
def Displaced (f : FileSite) (r : SourceRecord) (id : String) : Prop :=
  (∃ d ∈ r.facts.types, ((f.inside r).typeNode d).id = id) ∧
    ∀ d ∈ r.facts.types, lastNamed? r.facts.types d.nestedName = some d →
      ((f.inside r).typeNode d).id ≠ id

instance (f : FileSite) (r : SourceRecord) (id : String) : Decidable (f.Displaced r id) :=
  inferInstanceAs (Decidable (_ ∧ ∀ d ∈ r.facts.types, _ → _))

/-- The links of a record reach none of its displaced types. -/
theorem Fresh.not_displaced_of_mem (hf : f.Fresh) {r : SourceRecord} {rel : Relationship}
    (hrel : rel ∈ f.recordLinks r) : ¬ f.Displaced r rel.target := by
  rintro ⟨⟨d, -, hd⟩, hlast⟩
  have hdepth : depthOfId rel.target = 2 := hd ▸ (f.inside r).depth_typeNode d
  -- Only the link of a type reaches the depth of types.
  rcases mem_recordLinks.1 hrel with
    ⟨e, he, rfl⟩ | ⟨d, -, rfl⟩ | ⟨d, -, t, ht, rfl⟩ | ⟨d, -, rfl⟩ | ⟨d, -, rfl⟩
  · exact absurd (hdepth.symm.trans (f.depth_scopeNode? he)) (by decide)
  · exact absurd (hdepth.symm.trans ((f.inside r).depth_importNode d)) (by decide)
  · -- It reaches the last type of a nested name.
    rw [hf.type?_inside] at ht
    obtain ⟨e, he, rfl⟩ := Option.map_eq_some_iff.1 ht
    obtain ⟨hmem, hname⟩ := lastNamed?_eq_some he
    rw [target_link] at hlast
    exact hlast e hmem (by rw [hname]; exact he) rfl
  · unfold callableLink at hdepth
    rw [target_link] at hdepth
    exact absurd (hdepth.symm.trans ((f.inside r).depth_callableNode d)) (by decide)
  · unfold fieldLink at hdepth
    rw [target_link] at hdepth
    exact absurd (hdepth.symm.trans ((f.inside r).depth_fieldNode d)) (by decide)

/-- The links of a record reach all its nodes but the displaced types. -/
theorem Fresh.exists_link (hf : f.Fresh) {r : SourceRecord} {n : Node} (hn : n ∈ f.recordNodes r)
    (h : ¬ f.Displaced r n.id) : ∃ rel ∈ f.recordLinks r, rel.target = n.id := by
  unfold recordNodes at hn
  simp only [List.mem_append, List.mem_map, Option.mem_toList] at hn
  -- Whatever is not a type has a link of its own.
  rcases hn with (((⟨e, he, rfl⟩ | ⟨d, hd, rfl⟩) | ⟨d, hd, rfl⟩) | ⟨d, hd, rfl⟩) | ⟨d, hd, rfl⟩
  · exact ⟨_, mem_recordLinks.2 (.inl ⟨e, he, rfl⟩), rfl⟩
  · exact ⟨_, mem_recordLinks.2 (.inr (.inl ⟨d, hd, rfl⟩)), rfl⟩
  · -- Some type of this id is the last one of its nested name, and its own link reaches it.
    have hlast : ∃ e ∈ r.facts.types, lastNamed? r.facts.types e.nestedName = some e ∧
        ((f.inside r).typeNode e).id = ((f.inside r).typeNode d).id := by
      by_contra hno
      exact h ⟨⟨d, hd, rfl⟩, fun e he hl hid => hno ⟨e, he, hl, hid⟩⟩
    obtain ⟨e, he, hl, hid⟩ := hlast
    have ht := hf.type?_inside r e.nestedName
    rw [hl] at ht
    refine ⟨_, mem_recordLinks.2 (.inr (.inr (.inl ⟨e, he, _, ht, rfl⟩))), ?_⟩
    rw [target_link]
    exact hid
  · exact ⟨_, mem_recordLinks.2 (.inr (.inr (.inr (.inl ⟨d, hd, rfl⟩)))), target_link _ _ _⟩
  · exact ⟨_, mem_recordLinks.2 (.inr (.inr (.inr (.inr ⟨d, hd, rfl⟩)))), target_link _ _ _⟩

/-- Nothing is displaced where a nested name goes with one category. -/
theorem not_displaced_of_category {r : SourceRecord}
    (h : ∀ d ∈ r.facts.types, ∀ e ∈ r.facts.types, d.nestedName = e.nestedName →
      f.language.typeCategory d.kind = f.language.typeCategory e.kind) (id : String) :
    ¬ f.Displaced r id := by
  rintro ⟨⟨d, hd, rfl⟩, hlast⟩
  obtain ⟨e, he⟩ := exists_lastNamed? hd
  obtain ⟨hmem, hname⟩ := lastNamed?_eq_some he
  refine hlast e hmem (by rw [hname]; exact he) ?_
  rw [id_typeNode, id_typeNode, language_inside, h e hmem d hd hname, hname]

end FileSite

/-! ### The working set -/

namespace WorkingSet

/-- **The node with an id hangs in the containment tree**: one of the given nodes holds it. -/
def Hangs (s : WorkingSet) (holders : List String) (id : String) : Prop :=
  ∃ rel ∈ s.relationships.entries,
    rel.kind.isContainment = true ∧ rel.source ∈ holders ∧ rel.target = id

/-- What hangs can be read off the keys of the relationships. -/
theorem hangs_iff {s : WorkingSet} {holders : List String} {id : String} :
    s.Hangs holders id ↔ ∃ k ∈ s.relationships.keys,
      k.2.1.isContainment = true ∧ k.1 ∈ holders ∧ k.2.2 = id := by
  constructor
  · rintro ⟨rel, hrel, h⟩
    exact ⟨rel.key, Register.mem_keys_iff.2 ⟨rel, hrel, rfl⟩, h⟩
  · rintro ⟨k, hk, h⟩
    obtain ⟨rel, hrel, rfl⟩ := Register.mem_keys_iff.1 hk
    exact ⟨rel, hrel, h⟩

end WorkingSet

/-- A record relates what its links say, and a link that is there already stays as it is. -/
theorem relationships_emitRecord (s : WorkingSet) (f : FileSite) (r : SourceRecord) :
    (emitRecord s f r).relationships = (f.recordLinks r).foldl Register.insertNew s.relationships := by
  rw [emitRecord_eq, WorkingSet.applyAll_eq, FileSite.filterMap_relationship?_recordChanges]

/-- A record folds in its nodes, in their order. -/
theorem nodes_emitRecord (s : WorkingSet) (f : FileSite) (r : SourceRecord) :
    (emitRecord s f r).nodes = s.nodes.foldNodes (f.recordNodes r) := by
  rw [emitRecord_eq, WorkingSet.applyAll_eq, FileSite.filterMap_node?_recordChanges]

/-- What hangs after a record has been walked hung before or is the target of one of its links. -/
theorem FileSite.Fresh.hangs_emitRecord_iff {f : FileSite} (hf : f.Fresh) {s : WorkingSet}
    {r : SourceRecord} {id : String} :
    (emitRecord s f r).Hangs (f.holders r) id ↔
      (∃ rel ∈ f.recordLinks r, rel.target = id) ∨ s.Hangs (f.holders r) id := by
  -- Only the keys of relationships matter, and a key is there if a link brings it or it was there before.
  rw [WorkingSet.hangs_iff, WorkingSet.hangs_iff, relationships_emitRecord]
  simp only [Register.mem_keys_foldl_insertNew]
  constructor
  · rintro ⟨k, hk | ⟨rel, hrel, rfl⟩, h⟩
    · exact .inr ⟨k, hk, h⟩
    · exact .inl ⟨rel, hrel, h.2.2⟩
  · rintro (⟨rel, hrel, rfl⟩ | ⟨k, hk, h⟩)
    · obtain ⟨hkind, hsource⟩ := hf.holds_recordLinks rel hrel
      exact ⟨rel.key, .inr ⟨rel, hrel, rfl⟩, hkind, hsource, rfl⟩
    · exact ⟨k, .inl hk, h⟩

/-- **Which declarations of a record hang in the containment tree** once it has been walked: all of them but
the displaced types, and a displaced type only if it hung there before. So all of them do if a nested name
goes with one category of types. -/
theorem hangs_emitRecord (s : WorkingSet) (language : Language) (path fileId : String) (r : SourceRecord) :
    let f : FileSite := { language, path, fileId }
    (emitRecord s f r).nodes = s.nodes.foldNodes (f.recordNodes r) ∧
      (∀ n ∈ f.recordNodes r, (emitRecord s f r).Hangs (f.holders r) n.id ↔
        ¬ f.Displaced r n.id ∨ s.Hangs (f.holders r) n.id) ∧
      ((∀ d ∈ r.facts.types, ∀ e ∈ r.facts.types, d.nestedName = e.nestedName →
          language.typeCategory d.kind = language.typeCategory e.kind) →
        ∀ n ∈ f.recordNodes r, (emitRecord s f r).Hangs (f.holders r) n.id) := by
  intro f
  have hf : f.Fresh := ⟨rfl, rfl⟩
  refine ⟨nodes_emitRecord s f r, fun n hn => ?_, fun h n hn => ?_⟩
  · rw [hf.hangs_emitRecord_iff]
    -- What held the node before still does; it remains to see which nodes the links reach.
    refine or_congr_left ⟨?_, hf.exists_link hn⟩
    rintro ⟨rel, hrel, htarget⟩
    exact htarget ▸ hf.not_displaced_of_mem hrel
  · exact hf.hangs_emitRecord_iff.2 (.inl (hf.exists_link hn (FileSite.not_displaced_of_category h n.id)))

/-- A class that is local to a method of `T`. -/
def localClass : TypeDecl :=
  { name := "L", kind := .plainClass, enclosing := some "T", span := ⟨3, 3⟩ }

/-- An enum of the same name that is local to another method of `T`. -/
def localEnum : TypeDecl :=
  { name := "L", kind := .enum, enclosing := some "T", span := ⟨4, 4⟩ }

/-- The record of a class with both of them. -/
def localTypes : SourceRecord :=
  .java (some "p") 1
    { types := [{ name := "T", kind := .plainClass, span := ⟨2, 5⟩ }, localClass, localEnum] }

/-- The site of the file of `localTypes`. -/
def localSite : FileSite :=
  { language := .java, path := "T.java", fileId := nodeId (.generic .file) "T.java" "T.java" }

/-- The enum of the same nested name comes later. -/
theorem displaced_localClass :
    localSite.Displaced localTypes ((localSite.inside localTypes).typeNode localClass).id := by
  decide +kernel

/-- The enum displaces the class, and hangs in its place. -/
theorem hangs_emitRecord_localTypes :
    let node := (localSite.inside localTypes).typeNode
    localSite.Displaced localTypes (node localClass).id ∧
      (emitRecord {} localSite localTypes).Hangs (localSite.holders localTypes) (node localEnum).id := by
  intro node
  have henum : ¬ localSite.Displaced localTypes (node localEnum).id := by
    -- Of the two types of the name, the enum is the last one.
    exact fun h => h.2 localEnum (by decide) (by decide +kernel) rfl
  have hmem : node localEnum ∈ localSite.recordNodes localTypes := by
    simp [FileSite.recordNodes, localTypes, SourceRecord.facts, node]
  obtain ⟨-, hiff, -⟩ := hangs_emitRecord {} .java "T.java"
    (nodeId (.generic .file) "T.java" "T.java") localTypes
  exact ⟨displaced_localClass, (hiff _ hmem).2 (.inl henum)⟩

/-- **Nothing holds the class**, although it has a node: the enum has taken its nested name. -/
theorem not_hangs_localClass :
    let n := (localSite.inside localTypes).typeNode localClass
    n ∈ localSite.recordNodes localTypes ∧
      ¬ (emitRecord {} localSite localTypes).Hangs (localSite.holders localTypes) n.id := by
  intro n
  have hf : localSite.Fresh := ⟨rfl, rfl⟩
  refine ⟨by simp [FileSite.recordNodes, localTypes, SourceRecord.facts, n], fun h => ?_⟩
  rcases hf.hangs_emitRecord_iff.1 h with ⟨rel, hrel, htarget⟩ | ⟨rel, hrel, -⟩
  · exact hf.not_displaced_of_mem hrel (htarget ▸ displaced_localClass)
  · cases hrel

end CodeAtlas
