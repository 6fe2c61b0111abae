import CodeAtlas.Schema.Standard
import CodeAtlas.Proofs.Containment

/-!
# What the standard schema allows

A record is turned into nodes and links by rules that know nothing of the schema, and the schema is
registered by tables that know nothing of these rules. This module compares the two.

* The categories that a language gives to its declarations are registered in its namespace
  (`registered_recordNodes`).
* The standard schema lets the declarations of a language stand where the language puts them
  (`Schema.Serves`). That is a statement over all categories of the language, and the kernel checks it by
  evaluation (`serves_standard`).
* A record is `Tidy` if its declarations hang together: owners are types of the record that have a body,
  nested names are distinct, and each language keeps to what it can express. Every link of a tidy record is
  then one that the schema allows (`Fresh.allowed_recordLinks`).

Kinds are read off ids (`kindOfId?`), so `Relationship.Allowed` is a property of the relationship alone, and
it does not matter with which nodes an id has been merged.
-/

namespace CodeAtlas

/-! ### Verdicts -/

namespace Schema

variable {schema : Schema}

/-- Whether a kind of relationship may connect two kinds of nodes. -/
def connects (schema : Schema) (kind : RelKind) (source target : NodeKind) : Bool :=
  (schema.relationships.lookup kind).any fun pairs => pairs.contains (source, target)

/-- A list with new items holds its own items and the new ones. -/
theorem contains_addNew {α : Type} [BEq α] [LawfulBEq α] (l new : List α) (a : α) :
    (addNew l new).contains a = (l.contains a || new.contains a) := by
  rw [Bool.eq_iff_iff, Bool.or_eq_true, List.contains_iff_mem, List.contains_iff_mem,
    List.contains_iff_mem]
  unfold addNew
  -- Along the new members, with the list left open since it grows.
  induction new generalizing l with
  | nil => simp
  | cons b new ih =>
    rw [List.foldl_cons, ih]
    split
    · rename_i hb
      have hmem : b ∈ l := List.contains_iff_mem.1 hb
      grind
    · grind

/-- A table that is adjusted at one key answers there as adjusted, and elsewhere as before. -/
theorem lookup_adjust {κ α : Type} [DecidableEq κ] (k j : κ) (d : α) (f : α → α) (l : List (κ × α)) :
    (adjust k d f l).lookup j = if j = k then some (f ((l.lookup k).getD d)) else l.lookup j := by
  induction l with
  | nil => by_cases h : j = k <;> simp [adjust, h]
  | cons p l ih =>
    obtain ⟨i, v⟩ := p
    unfold adjust
    -- Either the first entry is the one to adjust, or it is passed.
    by_cases hi : i = k
    · subst hi
      rw [if_pos rfl]
      by_cases h : j = i
      · simp [h]
      · rw [if_neg h, List.lookup_cons, List.lookup_cons, beq_false_of_ne h]
    · rw [if_neg hi, List.lookup_cons, List.lookup_cons, List.lookup_cons,
        beq_false_of_ne (Ne.symm hi), ih]
      by_cases h : j = i
      · subst h
        simp [hi]
      · rw [beq_false_of_ne h]

/-- **A registration adds its pairs** and takes none away. -/
theorem connects_relationship (kind : RelKind) (sources targets : List NodeKind) (k : RelKind)
    (a b : NodeKind) :
    (schema.relationship kind sources targets).connects k a b =
      (schema.connects k a b || (k == kind && sources.contains a && targets.contains b)) := by
  -- The pairs that a registration adds are all those of a source and a target.
  have hpairs : (sources.flatMap fun a => targets.map fun b => (a, b)).contains (a, b) =
      (sources.contains a && targets.contains b) := by
    rw [Bool.eq_iff_iff]
    simp
  unfold connects relationship
  rw [lookup_adjust]
  by_cases h : k = kind
  · subst h
    rw [if_pos rfl, beq_self_eq_true, Bool.true_and, ← hpairs]
    change (addNew _ _).contains (a, b) = _
    rw [contains_addNew]
    cases schema.relationships.lookup k <;> rfl
  · rw [if_neg h, beq_false_of_ne h, Bool.false_and, Bool.false_and, Bool.or_false]

/-- Registering a kind of nodes connects nothing. -/
theorem connects_node (kind : NodeKind) (required optional : List String) :
    (schema.node kind required optional).connects = schema.connects :=
  rfl

theorem connects_nodesOf (ns : Namespace) (categories : List Category)
    (required optional : List String) :
    (schema.nodesOf ns categories required optional).connects = schema.connects := by
  unfold nodesOf
  induction categories generalizing schema with
  | nil => rfl
  | cons c categories ih => rw [List.foldl_cons, ih, connects_node]

theorem connects_empty (k : RelKind) (a b : NodeKind) : empty.connects k a b = false :=
  rfl

/-- **A relationship is accepted** if its kind may connect the two kinds of nodes. -/
theorem checkRelationship_eq_ok_iff {r : Relationship} {source target : NodeKind} :
    schema.checkRelationship r source target = .ok () ↔ schema.connects r.kind source target = true := by
  unfold connects checkRelationship
  cases schema.relationships.lookup r.kind with
  | none => simp
  | some pairs => by_cases h : pairs.contains (source, target) <;> simp_all

theorem checkRelationship_of_connects {r : Relationship} {source target : NodeKind}
    (h : schema.connects r.kind source target = true) :
    schema.checkRelationship r source target = .ok () :=
  checkRelationship_eq_ok_iff.2 h

/-- A property is there if its text is not blank and is not the text of an empty list. -/
theorem isPresent_iff {n : Node} {p : String} :
    isPresent n p = true ↔ ∃ v ∈ n.fieldText? p, Text.isBlankString v = false ∧ v ≠ "[]" := by
  unfold isPresent
  cases n.fieldText? p with
  | none => simp
  | some v => simp

/-- **A node is accepted** if its kind is registered and all that the kind requires is there. -/
theorem checkNode_eq_ok_iff {n : Node} :
    schema.checkNode n = .ok () ↔
      schema.isRegistered n.kind = true ∧ ∀ p ∈ schema.requiredOf n.kind, isPresent n p = true := by
  unfold checkNode isRegistered requiredOf
  cases schema.spec? n.kind with
  | none => simp
  | some spec =>
    dsimp only [Option.isSome_some, Option.map_some, Option.getD_some]
    split
    -- The first property that is missing is reported, so there is one exactly if the node is refused.
    next p hp =>
      have hmem := List.mem_of_find?_eq_some hp
      have hmissing := List.find?_some hp
      simp only [reduceCtorEq, true_and, false_iff]
      intro h
      simp [h p hmem] at hmissing
    next hnone => simpa using List.find?_eq_none.1 hnone

/-- A node of a registered kind is never refused for its kind. -/
theorem checkNode_ne_unknownNodeKind {n : Node} (h : schema.isRegistered n.kind = true) (label : String) :
    schema.checkNode n ≠ .error (.unknownNodeKind label) := by
  unfold isRegistered at h
  unfold checkNode
  -- The kind is looked up first, and only if it is not found is it reported.
  cases hs : schema.spec? n.kind with
  | none =>
    rw [hs] at h
    cases h
  | some spec =>
    dsimp only
    split
    · simp
    · simp

end Schema

/-! ### The categories of a language -/

namespace Language

/-- The categories of the types of a language. -/
def typeCategories (l : Language) : List Category :=
  TypeKind.all.map l.typeCategory

/-- The categories of the callables of a language. -/
def callableCategories : Language → List Category
  | .java => [.method, .constructor]
  | .kotlin => [.function, .extensionFunction]
  | .dart => [.function, .method, .constructor]
  | .python => [.function]

/-- The categories of what may be annotated: types, callables and fields. -/
def declaredCategories (l : Language) : List Category :=
  l.typeCategories ++ l.callableCategories ++ [l.fieldCategory]

/-- The categories of what may stand outside of all types. -/
def topLevelCategories (l : Language) : List Category :=
  match l with
  | .java => l.typeCategories
  | .kotlin => l.declaredCategories
  | .dart => l.typeCategories ++ [.function, .field]
  | .python => l.declaredCategories

/-- The categories of what may stand in a type. -/
def memberCategories (l : Language) : List Category :=
  match l with
  | .dart => [.method, .constructor, .field]
  | _ => l.declaredCategories

theorem mem_all (l : Language) : l ∈ all := by
  cases l <;> decide

/-- Every namespace is that of a language. -/
theorem exists_space (ns : Namespace) : ∃ l : Language, l.space = ns := by
  cases ns with
  | generic => exact ⟨.python, rfl⟩
  | java => exact ⟨.java, rfl⟩
  | kotlin => exact ⟨.kotlin, rfl⟩
  | dart => exact ⟨.dart, rfl⟩

/-- The category of a type is one of those of types. -/
theorem typeCategory_mem (l : Language) (k : TypeKind) : l.typeCategory k ∈ l.typeCategories :=
  List.mem_map.2 ⟨k, by cases k <;> decide, rfl⟩

/-- The category of a callable is one of those of callables. -/
theorem callableCategory_mem (l : Language) (d : CallableDecl) :
    l.callableCategory d ∈ l.callableCategories := by
  -- Each language has a rule of its own.
  cases l with
  | java =>
    unfold callableCategory
    dsimp only
    split <;> decide
  | kotlin =>
    unfold callableCategory
    dsimp only
    split <;> decide
  | dart =>
    unfold callableCategory
    dsimp only
    split
    · decide
    · split <;> decide
  | python => exact List.mem_singleton.2 rfl

theorem typeCategory_mem_declared (l : Language) (k : TypeKind) :
    l.typeCategory k ∈ l.declaredCategories :=
  List.mem_append_left _ (List.mem_append_left _ (l.typeCategory_mem k))

theorem callableCategory_mem_declared (l : Language) (d : CallableDecl) :
    l.callableCategory d ∈ l.declaredCategories :=
  List.mem_append_left _ (List.mem_append_right _ (l.callableCategory_mem d))

theorem fieldCategory_mem_declared (l : Language) : l.fieldCategory ∈ l.declaredCategories :=
  List.mem_append_right _ (List.mem_singleton.2 rfl)

end Language

/-! ### Tables -/

namespace Schema

/-- Every category that a language uses is registered in its namespace. -/
theorem registered_categories :
    ∀ l ∈ Language.all, ∀ c ∈ l.scopeCategory :: .importLine :: l.declaredCategories,
      standard.isRegistered ⟨l.space, c⟩ = true := by
  decide +kernel

/-- So is the category of every stand-in. -/
theorem registered_stub (l : Language) (clause : SuperClause) :
    standard.isRegistered ⟨l.space, l.stubCategory clause⟩ = true := by
  cases l <;> cases clause <;> decide +kernel

/-- A registered category that may call and be called is one that the language gives to its callables. -/
theorem mem_callableCategories :
    ∀ l ∈ Language.all, ∀ c ∈ Category.all.filter Category.isCallable,
      standard.isRegistered ⟨l.space, c⟩ = true → c ∈ l.callableCategories := by
  decide +kernel

/-- **A schema that serves a language** lets its declarations stand where the language puts them. -/
@[mk_iff]
structure Serves (schema : Schema) (l : Language) : Prop where
  /-- A file holds its scope and its imports. -/
  file : ∀ c ∈ [l.scopeCategory, .importLine],
    schema.connects .contains fileKind ⟨l.space, c⟩ = true
  /-- A scope holds what may stand outside of all types, by the link that the language chooses. -/
  topLevel : ∀ c ∈ l.topLevelCategories,
    schema.connects (l.scopeLink c) ⟨l.space, l.scopeCategory⟩ ⟨l.space, c⟩ = true
  /-- Without a scope the file holds it; a file of Python always has a scope. -/
  unscoped : l ≠ .python → ∀ c ∈ l.topLevelCategories,
    schema.connects .contains fileKind ⟨l.space, c⟩ = true
  /-- A type that is no alias holds what may stand in a type. -/
  member : ∀ k ∈ TypeKind.all, k ≠ .typeAlias → ∀ c ∈ l.memberCategories,
    schema.connects .contains ⟨l.space, l.typeCategory k⟩ ⟨l.space, c⟩ = true
  /-- Where annotations are declared types, every declaration may be annotated. -/
  annotated : l.linksAnnotations = true → ∀ c ∈ l.declaredCategories,
    schema.connects ⟨l.space, .annotatedWith⟩ ⟨l.space, c⟩ ⟨l.space, .annotationType⟩ = true
  calls : ∀ c ∈ l.callableCategories, ∀ d ∈ l.callableCategories,
    schema.connects .calls ⟨l.space, c⟩ ⟨l.space, d⟩ = true
  imports : schema.connects .imports fileKind fileKind = true

/-- **The standard schema serves every language.** -/
theorem serves_standard (l : Language) : standard.Serves l := by
  -- Each registration adds its pairs, whatever stands before it. What is left to evaluate is whether
  -- one of them has the pair, and no schema is built for it.
  have htables : ∀ l ∈ Language.all, standard.Serves l := by
    simp only [serves_iff, standard, registerGeneric, registerJava, registerKotlin, registerDart,
      connects_relationship, connects_node, connects_nodesOf, connects_empty]
    decide +kernel
  exact htables l l.mem_all

end Schema

/-! ### Kinds of the nodes of a record -/

namespace FileSite

variable (f : FileSite)

/-- The id of the node of a type tells its category. -/
theorem kindOfId?_typeNode (d : TypeDecl) :
    kindOfId? (f.typeNode d).id = some (f.kind (f.language.typeCategory d.kind)) :=
  (d.identified_node _ _ _).trans (congrArg some (d.kind_node _ _ _))

theorem kindOfId?_callableNode (d : CallableDecl) :
    kindOfId? (f.callableNode d).id = some (f.kind (f.language.callableCategory d)) :=
  (d.identified_node _ _ _).trans (congrArg some (d.kind_node _ _ _))

theorem kindOfId?_fieldNode (d : FieldDecl) :
    kindOfId? (f.fieldNode d).id = some (f.kind f.language.fieldCategory) :=
  (d.identified_node _ _ _).trans (congrArg some (d.kind_node _ _ _))

theorem kindOfId?_importNode (d : ImportDecl) :
    kindOfId? (f.importNode d).id = some (f.kind .importLine) :=
  (d.identified_node _ _).trans (congrArg some (d.kind_node _ _))

variable {f}

/-- The node of a scope is of the category of scopes. -/
theorem kind_scopeNode? {scope : Option RecordScope} {e : String × Node}
    (h : f.scopeNode? scope = some e) : e.2.kind = f.kind f.language.scopeCategory := by
  cases scope with
  | none => cases h
  | some scope =>
    unfold scopeNode? at h
    dsimp only at h
    split at h
    · cases h
    · obtain rfl := Option.some.inj h
      exact Node.kind_setText? _ _ _

theorem kindOfId?_scopeNode? {scope : Option RecordScope} {e : String × Node}
    (h : f.scopeNode? scope = some e) :
    kindOfId? e.2.id = some (f.kind f.language.scopeCategory) :=
  (declares_scopeNode? h).identified.trans (congrArg some (kind_scopeNode? h))

/-- **Every node of a record has a registered kind.** -/
theorem registered_recordNodes {r : SourceRecord} :
    ∀ n ∈ f.recordNodes r, Schema.standard.isRegistered n.kind = true := by
  intro n hn
  have hcategory : ∀ {c : Category},
      c ∈ f.language.scopeCategory :: .importLine :: f.language.declaredCategories →
        Schema.standard.isRegistered (f.kind c) = true :=
    fun hc => Schema.registered_categories f.language f.language.mem_all _ hc
  have hdeclared : ∀ {c : Category}, c ∈ f.language.declaredCategories →
      Schema.standard.isRegistered (f.kind c) = true :=
    fun hc => hcategory (List.mem_cons_of_mem _ (List.mem_cons_of_mem _ hc))
  have hkind : ∀ c, (f.inside r).kind c = f.kind c := by
    intro c
    unfold kind
    rw [language_inside]
  unfold recordNodes at hn
  simp only [List.mem_append, List.mem_map, Option.mem_toList] at hn
  -- The scope, imports, types, callables and fields.
  rcases hn with (((⟨e, he, rfl⟩ | ⟨d, -, rfl⟩) | ⟨d, -, rfl⟩) | ⟨d, -, rfl⟩) | ⟨d, -, rfl⟩
  · rw [kind_scopeNode? he]
    exact hcategory List.mem_cons_self
  · unfold importNode
    rw [d.kind_node, hkind]
    exact hcategory (List.mem_cons_of_mem _ List.mem_cons_self)
  · unfold typeNode
    rw [d.kind_node, hkind, language_inside]
    exact hdeclared (f.language.typeCategory_mem_declared d.kind)
  · unfold callableNode
    rw [d.kind_node, hkind, language_inside]
    exact hdeclared (f.language.callableCategory_mem_declared d)
  · unfold fieldNode
    rw [d.kind_node, hkind, language_inside]
    exact hdeclared f.language.fieldCategory_mem_declared

end FileSite

/-! ### Tidy records -/

namespace SourceRecord

/-- A type of the record with a nested name and a body. -/
def HasBody (r : SourceRecord) (nested : String) : Prop :=
  ∃ t ∈ r.facts.types, t.nestedName = nested ∧ t.kind ≠ .typeAlias

instance (r : SourceRecord) (nested : String) : Decidable (r.HasBody nested) :=
  inferInstanceAs (Decidable (∃ t ∈ r.facts.types, t.nestedName = nested ∧ t.kind ≠ .typeAlias))

/-- The name of a module is not blank, unless it is empty and stands for the root. -/
def NamesModule : SourceRecord → Prop
  | .python module _ _ => module = "" ∨ Text.trimmed module ≠ ""
  | _ => True

instance : DecidablePred NamesModule
  | .python module _ _ => inferInstanceAs (Decidable (module = "" ∨ Text.trimmed module ≠ ""))
  | .java .. => .isTrue trivial
  | .kotlin .. => .isTrue trivial
  | .dart .. => .isTrue trivial

/-- **A record whose declarations hang together.** -/
@[mk_iff]
structure Tidy (r : SourceRecord) : Prop where
  distinctNames : (r.facts.types.map (·.nestedName)).Nodup
  enclosing : ∀ d ∈ r.facts.types, ∀ nested ∈ d.enclosing, r.HasBody nested
  callableOwner : ∀ d ∈ r.facts.callables, ∀ nested ∈ d.owner, r.HasBody nested
  fieldOwner : ∀ d ∈ r.facts.fields, ∀ nested ∈ d.owner, r.HasBody nested
  /-- In Java nothing but types stands outside of all types. -/
  javaCallables : r.language = .java → ∀ d ∈ r.facts.callables, d.owner.isSome = true
  javaFields : r.language = .java → ∀ d ∈ r.facts.fields, d.owner.isSome = true
  dartConstructors : r.language = .dart →
    ∀ d ∈ r.facts.callables, d.kind = .constructor → d.owner.isSome = true
  dartTypes : r.language = .dart → ∀ d ∈ r.facts.types, d.enclosing = none
  namesModule : r.NamesModule

instance : DecidablePred Tidy := fun r => decidable_of_iff _ (tidy_iff r).symm

end SourceRecord

/-- **A relationship that the standard schema allows** between the kinds that its ends tell. -/
def Relationship.Allowed (rel : Relationship) : Prop :=
  ∀ source target, kindOfId? rel.source = some source → kindOfId? rel.target = some target →
    Schema.standard.connects rel.kind source target = true

/-- A relationship is allowed if the kinds that its ends tell are connected. -/
theorem Relationship.Allowed.of_connects {rel : Relationship} {source target : NodeKind}
    (hs : kindOfId? rel.source = some source) (ht : kindOfId? rel.target = some target)
    (h : Schema.standard.connects rel.kind source target = true) : rel.Allowed := by
  intro a b ha hb
  obtain rfl := Option.some.inj (ha.symm.trans hs)
  obtain rfl := Option.some.inj (hb.symm.trans ht)
  exact h

/-- The id of a file tells that it is one. -/
theorem ParsedFile.kindOfId?_fileId (f : ParsedFile) : kindOfId? f.site.fileId = some Schema.fileKind :=
  f.identified_node

namespace FileSite

variable {f : FileSite} {r : SourceRecord}

/-- The types of a tidy record can be told apart by their nested names. -/
theorem lastNamed?_of_mem (h : r.Tidy) {d : TypeDecl} (hd : d ∈ r.facts.types) :
    lastNamed? r.facts.types d.nestedName = some d := by
  obtain ⟨e, he⟩ := exists_lastNamed? hd
  obtain ⟨hmem, hname⟩ := lastNamed?_eq_some he
  rw [he, List.inj_on_of_nodup_map h.distinctNames hmem hd hname]

/-- A file of Python has a scope if its record is tidy. -/
theorem isSome_scopeNode?_python (h : r.Tidy) (hl : r.language = .python) :
    (f.scopeNode? r.scope?).isSome = true := by
  cases r with
  | python module doc facts =>
    -- A module without a name is named like the root, and a tidy one has a name that is not blank.
    have hname : Text.trimmed (if module = "" then rootModule else module) ≠ "" := by
      split
      · decide
      · rename_i hne
        exact h.namesModule.resolve_left hne
    change (f.scopeNode? (some _)).isSome = true
    unfold scopeNode?
    dsimp only
    rw [if_neg hname]
    rfl
  | _ => cases hl

section Tidy

variable (hf : f.Fresh) (hfile : kindOfId? f.fileId = some Schema.fileKind) (h : r.Tidy)
  (hl : r.language = f.language)
include hf hfile h hl

/-- **A link of a tidy record is allowed**, if its target may stand where it is put. -/
theorem Fresh.allowed_link {nested : Option String} {id : String} {c : Category}
    (hid : kindOfId? id = some (f.kind c)) (htop : nested = none → c ∈ f.language.topLevelCategories)
    (hmember : nested ≠ none → c ∈ f.language.memberCategories)
    (hbody : ∀ name ∈ nested, r.HasBody name) :
    ((f.inside r).link ((f.inside r).owner? nested) id c).Allowed := by
  have hlanguage := language_inside (f := f) r
  cases nested with
  | some name =>
    -- The owner is the one type of the name, and it has a body.
    obtain ⟨t, ht, rfl, hkind⟩ := hbody name rfl
    have howner := hf.type?_inside r t.nestedName
    rw [lastNamed?_of_mem h ht] at howner
    change (f.inside r).owner? (some t.nestedName) = _ at howner
    unfold link
    rw [howner]
    refine .of_connects ((f.inside r).kindOfId?_typeNode t) hid ?_
    unfold kind
    rw [hlanguage]
    exact (Schema.serves_standard f.language).member _ (by cases t.kind <;> decide) hkind _
      (hmember (by simp))
  | none =>
    change ((f.inside r).topLevelLink id c).Allowed
    unfold topLevelLink
    rw [hf.scope_inside]
    cases hs : f.scopeNode? r.scope? with
    | some e =>
      refine .of_connects (kindOfId?_scopeNode? hs) hid ?_
      change Schema.standard.connects ((f.inside r).language.scopeLink c) _ _ = true
      rw [hlanguage]
      exact (Schema.serves_standard f.language).topLevel _ (htop rfl)
    | none =>
      -- Without a scope the file itself holds the declaration, which the schema does not allow in Python.
      have hpython : f.language ≠ .python := by
        intro hp
        have := isSome_scopeNode?_python (f := f) h (hl.trans hp)
        rw [hs] at this
        cases this
      have hsource : kindOfId? (f.inside r).fileId = some Schema.fileKind := by
        rw [fileId_inside]
        exact hfile
      change (Relationship.between .contains (f.inside r).fileId id).Allowed
      exact .of_connects hsource hid
        ((Schema.serves_standard f.language).unscoped hpython _ (htop rfl))

/-- The link of a type of a tidy record is allowed. -/
theorem Fresh.allowed_typeLink {d : TypeDecl} (hd : d ∈ r.facts.types) {t : String × String}
    (ht : (f.inside r).type? d.nestedName = some t) :
    ((f.inside r).link ((f.inside r).owner? d.enclosing) t.1
      ((f.inside r).language.typeCategory d.kind)).Allowed := by
  rw [hf.type?_inside, lastNamed?_of_mem h hd] at ht
  obtain rfl := Option.some.inj ht
  rw [language_inside]
  refine hf.allowed_link hfile h hl ?_ (fun _ => ?_) (fun hne => ?_) (h.enclosing d hd)
  · rw [(f.inside r).kindOfId?_typeNode d]
    unfold kind
    rw [language_inside]
  -- It stands outside of all types, as any type may.
  · cases hlang : f.language with
    | java => exact Language.typeCategory_mem .java d.kind
    | kotlin => exact Language.typeCategory_mem_declared .kotlin d.kind
    | dart => exact List.mem_append_left _ (Language.typeCategory_mem .dart d.kind)
    | python => exact Language.typeCategory_mem_declared .python d.kind
  -- It stands in another type, which in Dart no type does.
  · cases hlang : f.language with
    | dart => exact absurd (h.dartTypes (hl.trans hlang) d hd) hne
    | java => exact Language.typeCategory_mem_declared .java d.kind
    | kotlin => exact Language.typeCategory_mem_declared .kotlin d.kind
    | python => exact Language.typeCategory_mem_declared .python d.kind

/-- So is the link of a callable. -/
theorem Fresh.allowed_callableLink {d : CallableDecl} (hd : d ∈ r.facts.callables) :
    ((f.inside r).callableLink d).Allowed := by
  unfold callableLink
  rw [language_inside]
  refine hf.allowed_link hfile h hl ?_ (fun hnone => ?_) (fun hne => ?_) (h.callableOwner d hd)
  · rw [(f.inside r).kindOfId?_callableNode d]
    unfold kind
    rw [language_inside]
  -- At the top level, Java has no callables and Dart has no constructors.
  · cases hlang : f.language with
    | java =>
      have := h.javaCallables (hl.trans hlang) d hd
      rw [hnone] at this
      cases this
    | kotlin => exact Language.callableCategory_mem_declared .kotlin d
    | dart =>
      -- Without an owner it is no constructor, and so a function.
      have hkind : d.kind ≠ .constructor := by
        intro hk
        have := h.dartConstructors (hl.trans hlang) d hd hk
        rw [hnone] at this
        cases this
      unfold Language.callableCategory
      dsimp only
      rw [if_neg hkind, hnone]
      decide
    | python => exact Language.callableCategory_mem_declared .python d
  · cases hlang : f.language with
    | java => exact Language.callableCategory_mem_declared .java d
    | kotlin => exact Language.callableCategory_mem_declared .kotlin d
    | dart =>
      unfold Language.callableCategory
      dsimp only
      rw [Option.isSome_iff_ne_none.2 hne]
      split
      · decide
      · decide
    | python => exact Language.callableCategory_mem_declared .python d

/-- So is the link of a field. -/
theorem Fresh.allowed_fieldLink {d : FieldDecl} (hd : d ∈ r.facts.fields) :
    ((f.inside r).fieldLink d).Allowed := by
  unfold fieldLink
  rw [language_inside]
  refine hf.allowed_link hfile h hl ?_ (fun hnone => ?_) (fun _ => ?_) (h.fieldOwner d hd)
  · rw [(f.inside r).kindOfId?_fieldNode d]
    unfold kind
    rw [language_inside]
  -- At the top level, Java has no fields.
  · cases hlang : f.language with
    | java =>
      have := h.javaFields (hl.trans hlang) d hd
      rw [hnone] at this
      cases this
    | kotlin => decide
    | dart => decide
    | python => decide
  · cases f.language <;> decide

/-- **Every link of a tidy record is allowed.** -/
theorem Fresh.allowed_recordLinks : ∀ rel ∈ f.recordLinks r, rel.Allowed := by
  intro rel hrel
  have hholds : ∀ c ∈ [f.language.scopeCategory, .importLine],
      Schema.standard.connects .contains Schema.fileKind (f.kind c) = true :=
    (Schema.serves_standard f.language).file
  -- The scope and the imports hang on the file, the declarations on what is around them.
  rcases mem_recordLinks.1 hrel with
    ⟨e, he, rfl⟩ | ⟨d, -, rfl⟩ | ⟨d, hd, t, ht, rfl⟩ | ⟨d, hd, rfl⟩ | ⟨d, hd, rfl⟩
  · exact .of_connects hfile (kindOfId?_scopeNode? he) (hholds _ List.mem_cons_self)
  · refine .of_connects hfile ((f.inside r).kindOfId?_importNode d) ?_
    unfold kind
    rw [language_inside]
    exact hholds _ (List.mem_cons_of_mem _ List.mem_cons_self)
  · exact hf.allowed_typeLink hfile h hl hd ht
  · exact hf.allowed_callableLink hfile h hl hd
  · exact hf.allowed_fieldLink hfile h hl hd

end Tidy

end FileSite

end CodeAtlas
