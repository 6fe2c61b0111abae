import Mathlib.Logic.Relation
import Mathlib.Data.Prod.Lex
import CodeAtlas.Proofs.Containment
import CodeAtlas.Proofs.Resolution

/-!
# Containment has no cycles

No node of a working set holds itself, directly or through others (`acyclic_workingSet`). Only the links of
records hold anything (`links_workingSet`), and each of them leads downwards (`descends_recordLinks`):
from a file to a scope, from a scope to a type, from a type to a member, or from a type to a type whose
qualified name continues its own with a dot. A dot is not white space, so the longer name stays longer when
both are trimmed (`length_trimmed_lt`), whatever the names in between are made of.

An id is a digest, so the name of a type cannot be read off its id. What is asked of a project is therefore
that ids tell its declarations apart (`ParseResult.TellsApart`): whatever a build computes ids from has
different ids if it differs in kind, trimmed name or normalised path.
-/

namespace CodeAtlas

/-! ### Names below names -/

namespace Text

/-- Trimming shortens a text. -/
theorem length_trimEnd_le (s : List Char) : (trimEnd s).length ≤ s.length := by
  unfold trimEnd dropEndWhile
  calc (s.reverse.dropWhile isBlank).reverse.length
      = (s.reverse.dropWhile isBlank).length := List.length_reverse
    _ ≤ s.reverse.length := List.length_dropWhile_le _ _
    _ = s.length := List.length_reverse

/-- Trimming at the start does not pass a dot. -/
theorem trimStart_append_dot (s t : List Char) : trimStart (s ++ '.' :: t) = trimStart s ++ '.' :: t := by
  unfold trimStart
  rw [List.dropWhile_append]
  split
  · rename_i h
    rw [List.isEmpty_iff.1 h]
    rfl
  · rfl

/-- What stands before a dot is not trimmed at its end. -/
theorem length_lt_trimEnd_append_dot (s t : List Char) : s.length < (trimEnd (s ++ '.' :: t)).length := by
  unfold trimEnd dropEndWhile
  rw [List.length_reverse, List.reverse_append, List.reverse_cons, List.append_assoc,
    List.dropWhile_append]
  split
  · have hdot : (['.'] ++ s.reverse).dropWhile isBlank = ['.'] ++ s.reverse := rfl
    rw [hdot, List.length_append, List.length_reverse, List.length_singleton]
    omega
  · rw [List.length_append, List.length_append, List.length_reverse, List.length_singleton]
    omega

/-- **A name below another one stays longer when both are trimmed.** -/
theorem length_trimmed_lt (outer inner : String) :
    (trimmed outer).length < (trimmed (outer ++ "." ++ inner)).length := by
  unfold trimmed
  rw [String.length_ofList, String.length_ofList]
  have hlist : (outer ++ "." ++ inner).toList = outer.toList ++ '.' :: inner.toList := by
    rw [String.toList_append, String.toList_append, List.append_assoc]
    rfl
  unfold trim
  rw [hlist, trimStart_append_dot]
  exact Nat.lt_of_le_of_lt (length_trimEnd_le _) (length_lt_trimEnd_append_dot _ _)

end Text

/-! ### Identities -/

/-- **What the id of a node is computed from.** -/
structure Identity where
  kind : NodeKind
  name : String
  path : String

namespace Identity

/-- The id. -/
def id (i : Identity) : String := nodeId i.kind i.name i.path

/-- What an id is to tell apart: the kind, the trimmed name and the normalised path. -/
def triple (i : Identity) : NodeKind × String × String :=
  (i.kind, Text.trimmed i.name, Path.normalize i.path)

end Identity

namespace FileSite

/-- The identity of a declaration of a file. -/
def identity (f : FileSite) (c : Category) (name : String) : Identity :=
  ⟨f.kind c, name, Path.normalize f.path⟩

/-- The identity of a type. -/
def typeIdentity (f : FileSite) (d : TypeDecl) : Identity :=
  f.identity (f.language.typeCategory d.kind) (f.qualify d.nestedName)

/-- A type is identified by its qualified name. -/
theorem name_typeIdentity (f : FileSite) (d : TypeDecl) :
    (f.typeIdentity d).name = f.qualify d.nestedName := rfl

/-- The identity of a callable. -/
def callableIdentity (f : FileSite) (d : CallableDecl) : Identity :=
  f.identity (f.language.callableCategory d) (d.idName (memberName f (f.owner? d.owner) d.name))

/-- The identity of a field. An extension property is named after its receiver. -/
def fieldIdentity (f : FileSite) (d : FieldDecl) : Identity :=
  let name := match f.owner? d.owner, d.receiver with
    | none, some receiver => simpleName receiver ++ "." ++ d.name
    | _, _ => d.name
  f.identity f.language.fieldCategory (memberName f (f.owner? d.owner) name)

/-- The identity of an import. -/
def importIdentity (f : FileSite) (d : ImportDecl) : Identity :=
  f.identity .importLine (d.qualifiedName ++ "@" ++ String.ofList (Json.natChars d.line))

/-- **The identities of a record**: that of its scope, which ignores the file, and one for each
declaration. -/
def identities (f : FileSite) (r : SourceRecord) : List Identity :=
  (f.scopeNode? r.scope?).toList.map (fun e => ⟨f.kind f.language.scopeCategory, e.1, ""⟩) ++
    r.facts.imports.map (f.inside r).importIdentity ++ r.facts.types.map (f.inside r).typeIdentity ++
    r.facts.callables.map (f.inside r).callableIdentity ++ r.facts.fields.map (f.inside r).fieldIdentity

/-- The id of a scope ignores the file. -/
theorem id_scopeNode? {f : FileSite} {scope : Option RecordScope} {e : String × Node}
    (h : f.scopeNode? scope = some e) : e.2.id = nodeId (f.kind f.language.scopeCategory) e.1 "" := by
  cases scope with
  | none => cases h
  | some scope =>
    unfold scopeNode? at h
    dsimp only at h
    split at h
    · cases h
    · obtain rfl := Option.some.inj h
      exact Node.id_setText? _ _ _

/-- The identity of an import is what its id is computed from. -/
theorem id_importIdentity (f : FileSite) (d : ImportDecl) :
    (f.importIdentity d).id = (f.importNode d).id := by
  unfold importNode ImportDecl.node
  cases d.localName <;> rfl

theorem id_typeIdentity (f : FileSite) (d : TypeDecl) : (f.typeIdentity d).id = (f.typeNode d).id :=
  (f.id_typeNode d).symm

theorem id_callableIdentity (f : FileSite) (d : CallableDecl) :
    (f.callableIdentity d).id = (f.callableNode d).id := by
  symm
  simp only [callableNode, CallableDecl.node, Node.declared, Node.withId, Node.id_set,
    Node.id_setIfPresent, Node.id_setText?]
  rfl

theorem id_fieldIdentity (f : FileSite) (d : FieldDecl) :
    (f.fieldIdentity d).id = (f.fieldNode d).id := by
  symm
  simp only [fieldNode, FieldDecl.node, Node.declared, Node.withId, Node.id_setIfPresent,
    Node.id_setText?]
  rfl

/-- **The identities of a record are those of its nodes.** -/
theorem map_id_identities (f : FileSite) (r : SourceRecord) :
    (f.identities r).map Identity.id = (f.recordNodes r).map (·.id) := by
  have hscope : (f.scopeNode? r.scope?).toList.map
        (Identity.id ∘ fun e => ⟨f.kind f.language.scopeCategory, e.1, ""⟩)
      = (f.scopeNode? r.scope?).toList.map ((·.id) ∘ (·.2)) :=
    List.map_congr_left fun e he => (id_scopeNode? (Option.mem_toList.1 he)).symm
  unfold identities recordNodes
  simp only [List.map_append, List.map_map, hscope]
  simp only [Function.comp_def, id_importIdentity, id_typeIdentity, id_callableIdentity,
    id_fieldIdentity]

end FileSite

namespace ParseResult

/-- **The identities of the declarations of a project**, files included. Stand-ins are not among them. -/
def identities (r : ParseResult) (languages : List Language) : List Identity :=
  r.files.flatMap fun f =>
    match f.built languages with
    | .error _ => []
    | .ok record => ⟨.generic .file, f.path, Path.normalize f.path⟩ :: f.site.identities record

/-- **Ids tell the declarations of a project apart.** -/
def TellsApart (r : ParseResult) (languages : List Language) : Prop :=
  ∀ i ∈ r.identities languages, ∀ j ∈ r.identities languages, i.id = j.id → i.triple = j.triple

end ParseResult

/-! ### Links lead downwards -/

theorem ParsedFile.depth_fileId (f : ParsedFile) : depthOfId f.site.fileId = 0 := by
  rw [f.fileId_site, f.identified_node.depthOfId]
  rfl

/-- A type in a type continues its nested name. -/
theorem TypeDecl.nestedName_of_enclosing (d : TypeDecl) {outer : String} (h : d.enclosing = some outer) :
    d.nestedName = outer ++ "." ++ d.name := by
  unfold nestedName
  rw [h]

namespace FileSite

variable {f : FileSite}

/-- A name below a nested name is below its qualified name. -/
theorem qualify_append (f : FileSite) (outer inner : String) :
    f.qualify (outer ++ "." ++ inner) = f.qualify outer ++ "." ++ inner := by
  unfold qualify
  cases f.scope with
  | none => rfl
  | some e => simp only [String.append_assoc]

/-- The source of a link is a type of the record, or lies above the types. -/
theorem Fresh.depth_source_link (hf : f.Fresh) (hfile : depthOfId f.fileId = 0) (r : SourceRecord)
    (nested : Option String) (id : String) (c : Category) :
    (∃ outer ∈ r.facts.types, nested = some outer.nestedName ∧
        ((f.inside r).link ((f.inside r).owner? nested) id c).source
          = ((f.inside r).typeIdentity outer).id) ∨
      depthOfId ((f.inside r).link ((f.inside r).owner? nested) id c).source < 2 := by
  -- A type, the scope, or the file.
  rcases (f.inside r).source_link nested id c with ⟨name, t, rfl, ht, h⟩ | ⟨e, he, h⟩ | h
  · rw [hf.type?_inside] at ht
    obtain ⟨outer, ho, rfl⟩ := Option.map_eq_some_iff.1 ht
    obtain ⟨hmem, hname⟩ := lastNamed?_eq_some ho
    exact .inl ⟨outer, hmem, congrArg some hname.symm, h.trans (id_typeIdentity _ _).symm⟩
  · rw [hf.scope_inside] at he
    obtain ⟨e', he', rfl⟩ := Option.map_eq_some_iff.1 he
    rw [h, f.depth_scopeNode? he']
    exact .inr (by decide)
  · rw [h, fileId_inside, hfile]
    exact .inr (by decide)

/-- **Each link of a record leads downwards**: to a greater depth, or from a type to a type whose name
continues its own. -/
theorem Fresh.descends_recordLinks (hf : f.Fresh) (hfile : depthOfId f.fileId = 0) {r : SourceRecord} :
    ∀ rel ∈ f.recordLinks r, depthOfId rel.source < depthOfId rel.target ∨
      ∃ outer ∈ r.facts.types, ∃ inner ∈ r.facts.types, ∃ name,
        rel.source = ((f.inside r).typeIdentity outer).id ∧
        rel.target = ((f.inside r).typeIdentity inner).id ∧
        inner.nestedName = outer.nestedName ++ "." ++ name := by
  intro rel hrel
  -- Members are deeper than anything that holds them.
  have hmember : ∀ nested id c, depthOfId id = 3 →
      depthOfId ((f.inside r).link ((f.inside r).owner? nested) id c).source
        < depthOfId ((f.inside r).link ((f.inside r).owner? nested) id c).target := by
    intro nested id c hid
    rw [target_link, hid]
    rcases hf.depth_source_link hfile r nested id c with ⟨outer, -, -, h⟩ | h
    · rw [h, id_typeIdentity, depth_typeNode]
      decide
    · omega
  rcases mem_recordLinks.1 hrel with
    ⟨e, he, rfl⟩ | ⟨d, -, rfl⟩ | ⟨d, -, t, ht, rfl⟩ | ⟨d, -, rfl⟩ | ⟨d, -, rfl⟩
  · refine .inl ?_
    change depthOfId f.fileId < depthOfId e.2.id
    rw [hfile, f.depth_scopeNode? he]
    decide
  · refine .inl ?_
    change depthOfId f.fileId < depthOfId ((f.inside r).importNode d).id
    rw [hfile, depth_importNode]
    decide
  -- A link of a type: its source is a type around it, or something above all types.
  · rw [hf.type?_inside] at ht
    obtain ⟨inner, hi, rfl⟩ := Option.map_eq_some_iff.1 ht
    obtain ⟨hmem, hname⟩ := lastNamed?_eq_some hi
    rw [target_link]
    rcases hf.depth_source_link hfile r d.enclosing _ _ with ⟨outer, ho, henc, h⟩ | h
    · -- The nested name of a type continues that of the type around it.
      refine .inr ⟨outer, ho, inner, hmem, d.name, h, (id_typeIdentity _ _).symm, ?_⟩
      rw [hname, d.nestedName_of_enclosing henc]
    · rw [depth_typeNode]
      exact .inl h
  · exact .inl (hmember _ _ _ (depth_callableNode _ d))
  · exact .inl (hmember _ _ _ (depth_fieldNode _ d))

end FileSite

/-! ### What holds what in a working set -/

/-- Whether a verb says that the source holds the target. -/
def Verb.holds : Verb → Bool
  | containing | definingClass | definingFunction => true
  | _ => false

/-- The kinds of containment are told by their verbs. -/
theorem RelKind.holds_of_isContainment {k : RelKind} (h : k.isContainment = true) :
    k.verb.holds = true := by
  unfold isContainment at h
  simp only [Bool.or_eq_true, beq_iff_eq] at h
  rcases h with (rfl | rfl) | rfl <;> rfl

namespace WorkingSet

/-- **A node of the set holds another one.** -/
def Contains (s : WorkingSet) (a b : String) : Prop :=
  ∃ rel ∈ s.relationships.entries, rel.kind.isContainment = true ∧ rel.source = a ∧ rel.target = b

/-- **Resolving a reference puts nothing anywhere.** -/
theorem holds_referenceChanges {s : WorkingSet} (languages : List Language) {r : Reference}
    {rel : Relationship} (h : Change.relationship rel ∈ referenceChanges languages s r) :
    rel.kind.verb.holds = false := by
  have hrel := relates_of_mem h
  -- By the kind of reference, each with the verbs that it may relate by.
  cases r with
  | supertype source name clause =>
    obtain ⟨ns, verb, hverb, target, rfl⟩ := hrel
    have hnone : ∀ v ∈ Verb.inheritances, v.holds = false := by decide
    exact hnone verb hverb
  | call caller callee qualifier line =>
    obtain ⟨target, rfl⟩ := hrel
    rfl
  | _ =>
    obtain ⟨_, _, rfl⟩ := hrel
    rfl

/-- What holds of the relationships that are there and of those that arrive holds of all. -/
theorem forall_relationships_applyAll {P : Relationship → Prop} {s : WorkingSet} {l : List Change}
    (hs : ∀ rel ∈ s.relationships.entries, P rel) (hl : ∀ rel, Change.relationship rel ∈ l → P rel) :
    ∀ rel ∈ (s.applyAll l).relationships.entries, P rel := by
  intro rel hrel
  -- Relationships are never merged, so there is nothing to keep when two of one key meet.
  refine forall_holds_applyAll (Q := fun c => ∀ rel, c = .relationship rel → P rel) ?_ ?_ ?_
    (.relationship rel) hrel rel rfl
  · intro a b _ _ _ rel hrel
    cases hrel
  · rintro c hc rel rfl
    exact hs rel hc
  · rintro c hc rel rfl
    exact hl rel hc

end WorkingSet

/-- A relationship that holds something only if it is a link of a record of the project. -/
def ParseResult.Links (r : ParseResult) (languages : List Language) (rel : Relationship) : Prop :=
  rel.kind.verb.holds = true →
    ∃ f ∈ r.files, ∃ record, f.built languages = .ok record ∧ rel ∈ f.site.recordLinks record

/-- **Only the links of records hold anything.** It is so when all files have been walked, and no reference
adds a relationship that holds. -/
theorem links_workingSet (languages : List Language) (r : ParseResult) :
    ∀ rel ∈ (workingSet languages r).relationships.entries, r.Links languages rel := by
  unfold workingSet
  rw [foldl_addParsedFile]
  -- The walk adds the links of records, and no answered reference adds one.
  refine WorkingSet.resolvePending_invariant
    (Q := fun t => ∀ rel ∈ t.relationships.entries, r.Links languages rel) ?_ ?_
  · refine WorkingSet.forall_relationships_applyAll (fun rel hrel => nomatch hrel) fun rel hrel _ => ?_
    obtain ⟨f, hf, hrel⟩ := List.mem_flatMap.1 hrel
    exact ⟨f, hf, ParsedFile.mem_recordLinks_of_mem_changes hrel⟩
  · intro t ht ref _
    refine WorkingSet.forall_relationships_applyAll ht fun rel hrel hholds => ?_
    rw [WorkingSet.holds_referenceChanges languages hrel] at hholds
    cases hholds

theorem exists_link_of_contains {languages : List Language} {r : ParseResult} {a b : String}
    (h : (workingSet languages r).Contains a b) :
    ∃ f ∈ r.files, ∃ record, f.built languages = .ok record ∧
      ∃ rel ∈ f.site.recordLinks record, rel.source = a ∧ rel.target = b := by
  obtain ⟨rel, hrel, hk, hsource, htarget⟩ := h
  obtain ⟨f, hf, record, hb, hlink⟩ :=
    links_workingSet languages r rel hrel (RelKind.holds_of_isContainment hk)
  exact ⟨f, hf, record, hb, rel, hlink, hsource, htarget⟩

/-! ### No cycles -/

namespace ParseResult

/-- The length of the trimmed name of the declaration with an id. -/
def nameLength (r : ParseResult) (languages : List Language) (id : String) : Nat :=
  (((r.identities languages).find? fun i => i.id == id).map fun i => (Text.trimmed i.name).length).getD 0

/-- Where ids tell declarations apart, an id gives the length of the name. -/
theorem TellsApart.nameLength {r : ParseResult} {languages : List Language} (h : r.TellsApart languages)
    {i : Identity} (hi : i ∈ r.identities languages) :
    r.nameLength languages i.id = (Text.trimmed i.name).length := by
  unfold ParseResult.nameLength
  cases hf : (r.identities languages).find? fun j => j.id == i.id with
  | none => simpa using List.find?_eq_none.1 hf i hi
  | some j =>
    have hid : j.id = i.id := by simpa using List.find?_some hf
    have htriple := h j (List.mem_of_find?_eq_some hf) i hi hid
    have hname : Text.trimmed j.name = Text.trimmed i.name := congrArg (·.2.1) htriple
    simp [hname]

/-- **The place of an id**: its depth, and then the length of its name. -/
def place (r : ParseResult) (languages : List Language) (id : String) : ℕ ×ₗ ℕ :=
  toLex (depthOfId id, r.nameLength languages id)

/-- What is held lies below what holds it. -/
theorem TellsApart.place_lt {r : ParseResult} {languages : List Language} (h : r.TellsApart languages)
    {a b : String} (hab : (workingSet languages r).Contains a b) :
    r.place languages a < r.place languages b := by
  obtain ⟨f, hf, record, hb, rel, hrel, rfl, rfl⟩ := exists_link_of_contains hab
  -- A link of a record leads down from files to members, but between two types the depth is the same and the
  -- length of the nested name decides.
  have hfresh : f.site.Fresh := ⟨rfl, rfl⟩
  unfold place
  rw [Prod.Lex.toLex_lt_toLex]
  dsimp only
  rcases hfresh.descends_recordLinks f.depth_fileId rel hrel with
    hlt | ⟨outer, ho, inner, hi, name, hs, ht, hname⟩
  · exact .inl hlt
  · -- Two types, of which the inner one has the longer name.
    have hmem : ∀ d ∈ record.facts.types,
        (f.site.inside record).typeIdentity d ∈ r.identities languages := by
      intro d hd
      refine List.mem_flatMap.2 ⟨f, hf, ?_⟩
      rw [hb]
      unfold FileSite.identities
      simp only [List.mem_cons, List.mem_append, List.mem_map]
      exact .inr (.inl (.inl (.inr ⟨d, hd, rfl⟩)))
    rw [hs, ht, h.nameLength (hmem outer ho), h.nameLength (hmem inner hi)]
    refine .inr ⟨?_, ?_⟩
    · simp only [FileSite.id_typeIdentity, FileSite.depth_typeNode]
    · rw [FileSite.name_typeIdentity, FileSite.name_typeIdentity, hname, FileSite.qualify_append]
      exact Text.length_trimmed_lt _ name

end ParseResult

/-- **Containment has no cycles**: where ids tell the declarations of a project apart, no node of its working
set holds itself, directly or through others. -/
theorem acyclic_workingSet (languages : List Language) (r : ParseResult) (h : r.TellsApart languages) :
    ∀ id, ¬ Relation.TransGen (workingSet languages r).Contains id id := by
  intro id hcycle
  -- A cycle of holders would be a descent from a place to itself.
  have hlt : Relation.TransGen (· < ·) (r.place languages id) (r.place languages id) :=
    hcycle.lift (r.place languages) fun a b hab => h.place_lt hab
  rw [Relation.transGen_eq_self] at hlt
  exact lt_irrefl _ hlt

/-- A project with a class in a class, and in that one a class whose name is blank. -/
def nestedClasses : ParseResult :=
  let outer : TypeDecl := { name := "Outer", kind := .plainClass, span := ⟨2, 9⟩ }
  let inner : TypeDecl :=
    { name := "Inner", kind := .plainClass, enclosing := some "Outer", span := ⟨3, 8⟩ }
  let blank : TypeDecl :=
    { name := " ", kind := .plainClass, enclosing := some "Outer.Inner", span := ⟨4, 5⟩ }
  { files := [.ofRecord "Outer.java" (.java (some "p") 1 { types := [outer, inner, blank] })] }

/-- The ids of its declarations are all different. -/
theorem tellsApart_nestedClasses : nestedClasses.TellsApart Language.all := by
  have hids : ((nestedClasses.identities Language.all).map Identity.id).Nodup := by decide +kernel
  intro i hi j hj hid
  rw [List.inj_on_of_nodup_map hids hi hj hid]

/-- Classes in classes hold each other in one direction only. -/
theorem acyclic_workingSet_nestedClasses :
    nestedClasses.TellsApart Language.all ∧
      ∀ id, ¬ Relation.TransGen (workingSet Language.all nestedClasses).Contains id id :=
  ⟨tellsApart_nestedClasses,
    acyclic_workingSet Language.all nestedClasses tellsApart_nestedClasses⟩

end CodeAtlas
