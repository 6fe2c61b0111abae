import CodeAtlas.Proofs.ImportLinks
import CodeAtlas.Proofs.Precedence

/-!
# Stand-ins are leaves

A type that a project names but does not declare gets a stand-in, and stand-ins share the table of nodes with
the declarations. They enter it while references are still being resolved, so a later reference might start
at one, find one by its name, or reach one through the hierarchy. None does (`leaves_of_standIns`): a
stand-in is the target of an inheritance or of an extension, of nothing else, and the source of nothing.

The reasons are two.

* What a reference starts at, and whatever it finds other than a type, was there when all files had been
  walked: names and members are looked up among the declarations, imports among the files, and resolution
  enters neither (`Settled.source_mem_keys`, `Settled.target_mem_keys`).
* No id of that time is the id of a stand-in (`TellsNodesApart.notMem_keys`). An id covers kind, name and
  path; the path of a stand-in is empty, and the only nodes of files without a path are scopes, which are no
  types. As ids are digests, this has to be asked of a project.

A reference that brings a stand-in also relates its source to it (`exists_towardType_of_standIn`); it would
not do so only for a type that is its own stand-in. All of this is kept by each answer
(`Disciplined.applyAll`) and so holds at the end of the run.
-/

namespace CodeAtlas

/-- Whether a verb leads to a type by its name: an inheritance or an extension. -/
def Verb.TowardType (v : Verb) : Prop :=
  v.isHierarchy = true ∨ v = .extensionOf

theorem Verb.towardType_of_mem_inheritances {v : Verb} (h : v ∈ inheritances) : v.TowardType := by
  have hall : ∀ v ∈ inheritances, v.isHierarchy = true := by decide
  exact .inl (hall v h)

/-- The verbs that lead to types are none of the others. -/
theorem Verb.TowardType.notMem_others {v : Verb} (h : v.TowardType) :
    v ∉ [containing, definingFunction, definingClass, calling, overriding, annotatedWith, importing] := by
  have hothers : ∀ v ∈ [containing, definingFunction, definingClass, calling, overriding, annotatedWith,
      importing], v.isHierarchy = false ∧ v ≠ .extensionOf := by decide
  intro hv
  obtain ⟨hhierarchy, hextension⟩ := hothers v hv
  rcases h with h | h
  · rw [hhierarchy] at h
    cases h
  · exact hextension h

/-- A stand-in stays one only under stand-ins. -/
theorem Node.isStub_of_isStub_mergeFrom {a b : Node} (h : (a.mergeFrom b).isStub = true) :
    b.isStub = true := by
  rw [isStub_iff, standing_mergeFrom] at h
  split at h
  · cases h
  · exact isStub_iff.2 h

namespace WorkingSet

variable {s t : WorkingSet} {languages : List Language}

/-! ### The stand-ins that references need -/

/-- **The stand-in that a declaration needs for a type that it names**, if it names none of the project. A
stand-in has no path. -/
def missing? (languages : List Language) (s : WorkingSet) (source name : String) (clause : SuperClause) :
    Option Identity :=
  match s.languageOf? languages source with
  | none => none
  | some (l, kind) =>
    match s.resolve name (s.originOf source) (isTypeIn kind.space) with
    | some _ => none
    | none => some ⟨⟨kind.space, l.stubCategory clause⟩, name, ""⟩

/-- The name of the type that an extension extends, for all its receivers with and without null. -/
def extendedName (receiver : String) : String :=
  String.ofList (Text.dropEndWhile (· == '?') receiver.toList)

/-- The stand-in that a reference needs. -/
def standIn? (languages : List Language) (s : WorkingSet) : Reference → Option Identity
  | .supertype source name clause => missing? languages s source name clause
  | .extension source receiver => missing? languages s source (extendedName receiver) .superclass
  | _ => none

theorem standIn?_supertype (source name : String) (clause : SuperClause) :
    standIn? languages s (.supertype source name clause) = missing? languages s source name clause := rfl

theorem standIn?_extension (source receiver : String) :
    standIn? languages s (.extension source receiver)
      = missing? languages s source (extendedName receiver) .superclass := rfl

/-- A stand-in is needed where no type of the name is found. -/
theorem missing?_eq_some_iff {source name : String} {clause : SuperClause} {i : Identity} :
    missing? languages s source name clause = some i ↔
      ∃ l kind, s.languageOf? languages source = some (l, kind) ∧
        s.resolve name (s.originOf source) (isTypeIn kind.space) = none ∧
        i = ⟨⟨kind.space, l.stubCategory clause⟩, name, ""⟩ := by
  unfold missing?
  -- Without a language nothing is looked up; with one, the name is found or it is missing.
  cases hl : s.languageOf? languages source with
  | none => simp
  | some e =>
    obtain ⟨l, kind⟩ := e
    dsimp only
    cases hr : s.resolve name (s.originOf source) (isTypeIn kind.space) with
    | some id =>
      refine ⟨fun h => (nomatch h), ?_⟩
      rintro ⟨l', kind', he, hr', -⟩
      obtain ⟨rfl, rfl⟩ := Prod.mk.inj (Option.some.inj he)
      cases hr.symm.trans hr'
    | none =>
      constructor
      · exact fun h => ⟨l, kind, rfl, hr, (Option.some.inj h).symm⟩
      · rintro ⟨l', kind', he, -, rfl⟩
        obtain ⟨rfl, rfl⟩ := Prod.mk.inj (Option.some.inj he)
        rfl

/-- A stand-in is a type without a path. -/
theorem type_of_standIn? {ref : Reference} {i : Identity} (h : standIn? languages s ref = some i) :
    i.kind.category.isType = true ∧ i.path = "" := by
  have hmissing : ∀ {source name clause}, missing? languages s source name clause = some i →
      i.kind.category.isType = true ∧ i.path = "" := by
    intro source name clause h
    obtain ⟨l, kind, -, -, rfl⟩ := missing?_eq_some_iff.1 h
    exact ⟨isType_stubCategory l clause, rfl⟩
  -- Only supertypes and receivers need stand-ins.
  cases ref with
  | supertype source name clause =>
    rw [standIn?_supertype] at h
    exact hmissing h
  | extension source receiver =>
    rw [standIn?_extension] at h
    exact hmissing h
  | _ => cases h

/-- What an extended type contributes, with its name. -/
theorem extensionChanges_eq (source receiver : String) :
    extensionChanges languages s source receiver
      = match s.languageOf? languages source with
        | none => []
        | some (l, kind) =>
          let t := s.typeTarget kind.space (s.originOf source) (extendedName receiver)
            (l.stubCategory .superclass)
          t.1 ++ [.relationship (.between ⟨kind.space, .extensionOf⟩ source t.2)] := rfl

/-- What is not found is brought along as a stand-in. -/
theorem typeTarget_of_none {ns : Namespace} {origin : Origin} {name : String} {stub : Category}
    (h : s.resolve name origin (isTypeIn ns) = none) :
    s.typeTarget ns origin name stub
      = ([.node (Node.stub ⟨ns, stub⟩ name)], Identity.id ⟨⟨ns, stub⟩, name, ""⟩) := by
  unfold typeTarget
  rw [h]
  rfl

/-- A type is brought along if it is missing. -/
theorem missing?_of_mem_typeTarget {source name : String} {clause : SuperClause} {l : Language}
    {kind : NodeKind} (hl : s.languageOf? languages source = some (l, kind)) {n : Node}
    (hn : Change.node n ∈ (s.typeTarget kind.space (s.originOf source) name (l.stubCategory clause)).1) :
    ∃ i, missing? languages s source name clause = some i ∧ n.id = i.id := by
  -- A type that is found brings nothing along.
  cases hr : s.resolve name (s.originOf source) (isTypeIn kind.space) with
  | some id =>
    unfold typeTarget at hn
    rw [hr] at hn
    cases hn
  | none =>
    rw [typeTarget_of_none hr] at hn
    refine ⟨_, missing?_eq_some_iff.2 ⟨l, kind, hl, hr, rfl⟩, ?_⟩
    rw [Change.node.inj (List.mem_singleton.1 hn)]
    rfl

/-- **A reference folds in the stand-in that it needs**, and no other node. -/
theorem standIn?_of_node_mem {ref : Reference} {n : Node}
    (hn : Change.node n ∈ referenceChanges languages s ref) :
    ∃ i, standIn? languages s ref = some i ∧ n.id = i.id := by
  -- The two kinds of references that may bring a node; the others make relationships only.
  cases ref with
  | supertype source name clause =>
    rw [standIn?_supertype]
    obtain ⟨l, kind, hl, hn | ⟨target, hn⟩ | hn⟩ := mem_supertypeChanges hn
    · exact missing?_of_mem_typeTarget hl hn
    · cases hn
    · cases hn
  | extension source receiver =>
    rw [standIn?_extension]
    change Change.node n ∈ extensionChanges languages s source receiver at hn
    rw [extensionChanges_eq] at hn
    split at hn
    · cases hn
    · rename_i l kind hl
      rcases List.mem_append.1 hn with hn | hn
      · exact missing?_of_mem_typeTarget hl hn
      · cases List.mem_singleton.1 hn
  | _ =>
    obtain ⟨rel, hrel⟩ := exists_relationship_of_mem languages rfl hn
    cases hrel

/-- **A reference that brings a stand-in relates its source to it.** -/
theorem exists_towardType_of_standIn (hs : ∀ n ∈ s.nodes.entries, n.Identified) {ref : Reference}
    {i : Identity} (hi : standIn? languages s ref = some i) (hne : i.id ∉ ref.ids) :
    ∃ rel, Change.relationship rel ∈ referenceChanges languages s ref ∧ rel.target = i.id ∧
      rel.kind.verb.TowardType := by
  cases ref with
  | supertype source name clause =>
    rw [standIn?_supertype] at hi
    obtain ⟨l, kind, hl, hr, rfl⟩ := missing?_eq_some_iff.1 hi
    have hid : (s.typeTarget kind.space (s.originOf source) name (l.stubCategory clause)).2 = _ :=
      congrArg Prod.snd (typeTarget_of_none hr)
    -- The kind of the stand-in can be read off its id, so the verb of the hierarchy is known.
    have hkind := kind?_typeTarget hs kind.space (s.originOf source) name (l.stubCategory clause)
    change ∃ rel, Change.relationship rel ∈ supertypeChanges languages s source name clause ∧ _
    unfold supertypeChanges
    rw [hl]
    dsimp only
    rw [hkind, hid, if_neg fun h => hne (List.mem_singleton.2 h)]
    unfold Identity.id
    rw [kindOfId?_nodeId]
    exact ⟨_, List.mem_append_right _ List.mem_cons_self, rfl,
      Verb.towardType_of_mem_inheritances (l.hierarchyVerb_mem _ _ clause)⟩
  | extension source receiver =>
    rw [standIn?_extension] at hi
    obtain ⟨l, kind, hl, hr, rfl⟩ := missing?_eq_some_iff.1 hi
    change ∃ rel, Change.relationship rel ∈ extensionChanges languages s source receiver ∧ _
    rw [extensionChanges_eq, hl]
    dsimp only
    rw [typeTarget_of_none hr]
    exact ⟨_, List.mem_append_right _ List.mem_cons_self, rfl, .inr rfl⟩
  | _ => cases hi

/-- **A reference needs the same stand-in in every set that extends the first one.** -/
theorem Extends.standIn? (hs : s.Extends s) (h : s.Extends t) (hclosed : s.Closed) {ref : Reference}
    (hids : ∀ id ∈ ref.ids, id ∈ s.nodes.keys) :
    standIn? languages t ref = WorkingSet.standIn? languages s ref := by
  -- The source is a node of the smaller set, and what is around it and what names find are the same in both.
  have hmissing : ∀ {source}, source ∈ s.nodes.keys → ∀ name clause,
      missing? languages t source name clause = missing? languages s source name clause := by
    intro source hsource name clause
    unfold missing?
    rw [hs.languageOf? h languages hsource, h.originOf]
    cases s.languageOf? languages source with
    | none => rfl
    | some e =>
      dsimp only
      rw [hs.resolve h hclosed]
  cases ref with
  | supertype source name clause =>
    rw [standIn?_supertype, standIn?_supertype]
    exact hmissing (hids source List.mem_cons_self) name clause
  | extension source receiver =>
    rw [standIn?_extension, standIn?_extension]
    exact hmissing (hids source List.mem_cons_self) _ _
  | _ => rfl

/-! ### What references find -/

/-- An id that names can refer to. -/
def Declared (s : WorkingSet) (id : String) : Prop :=
  ∃ d ∈ s.declarations.entries, d.id = id

theorem declared_of_resolve {name : String} {origin : Origin} {accept : NodeKind → Bool} {id : String}
    (h : s.resolve name origin accept = some id) : s.Declared id := by
  rw [resolve_eq] at h
  obtain ⟨d, hd, rfl⟩ := Option.map_eq_some_iff.1 h
  exact ⟨d, (mem_of_referent? hd).1, rfl⟩

theorem declared_of_callableMember? {p : String → Bool} {name owner id : String}
    (h : s.callableMember? p name owner = some id) : s.Declared id := by
  obtain ⟨d, hd, rfl⟩ := List.mem_map.1 (List.mem_of_find?_eq_some h)
  exact ⟨d, List.mem_of_mem_filter hd, rfl⟩

theorem declared_of_overridden? {member owner name id : String}
    (h : s.overridden? member owner name = some id) : s.Declared id := by
  obtain ⟨type, ht⟩ := Reach.exists_of_nearest? h
  split at ht
  · cases ht
  · exact declared_of_callableMember? ht

/-- **A callee is found as a member of a type or by its name.** -/
theorem callee?_cases {ns : Namespace} {origin : Origin} {callee : String} {qualifier : Option String}
    {id : String} (h : s.callee? ns origin callee qualifier = some id) :
    (∃ type, s.memberInHierarchy? type callee = some id) ∨
      ∃ name, s.resolve name origin (isCallableIn ns) = some id := by
  have hor : ∀ {type : Option String} {name : String},
      ((type.bind fun t => s.memberInHierarchy? t callee).or
        (s.resolve name origin (isCallableIn ns))) = some id →
      (∃ type, s.memberInHierarchy? type callee = some id) ∨
        ∃ name, s.resolve name origin (isCallableIn ns) = some id := by
    intro type name h
    rcases Option.or_eq_some_iff.1 h with h | ⟨-, h⟩
    · obtain ⟨t, -, h⟩ := Option.bind_eq_some_iff.1 h
      exact .inl ⟨t, h⟩
    · exact .inr ⟨name, h⟩
  unfold callee? at h
  -- A qualifier only decides in which type the member is looked for, and whether it is at all.
  cases qualifier with
  | none => exact hor h
  | some q =>
    dsimp only at h
    split at h
    · exact hor h
    · split at h
      · exact hor h
      · exact .inr ⟨callee, h⟩

theorem declared_of_callee? {ns : Namespace} {origin : Origin} {callee : String}
    {qualifier : Option String} {id : String} (h : s.callee? ns origin callee qualifier = some id) :
    s.Declared id := by
  rcases callee?_cases h with ⟨type, h⟩ | ⟨name, h⟩
  · obtain ⟨type, ht⟩ := Reach.exists_of_nearest? h
    exact declared_of_callableMember? ht
  · exact declared_of_resolve h

section Answers

variable (hs : s.Closed) (h : s.Settled t)
include hs h

/-- What is declared was there before references were resolved. -/
theorem Settled.mem_keys_of_declared {id : String} (hid : t.Declared id) : id ∈ s.nodes.keys := by
  obtain ⟨d, hd, rfl⟩ := hid
  rw [h.declarations] at hd
  exact hs (.declaration d) hd d.id List.mem_cons_self

theorem Settled.mem_keys_of_file {path id : String} (hid : t.files.get? path = some id) :
    id ∈ s.nodes.keys :=
  hs.file (h.files ▸ hid)

/-- **A relationship starts at what was there before the resolution.** -/
theorem Settled.source_mem_keys {ref : Reference} (href : ref ∈ s.pending) {rel : Relationship}
    (hrel : Change.relationship rel ∈ referenceChanges languages t ref) : rel.source ∈ s.nodes.keys := by
  have hstart : t.StartsAt ref rel.source := answers_referenceChanges languages ref _ hrel
  have hids : ∀ id ∈ ref.ids, id ∈ s.nodes.keys := hs (.reference ref) href
  cases ref with
  | importing file l i line statement => exact h.mem_keys_of_file hs hstart
  | _ => exact hids _ hstart

/-- **What is found was there before the resolution**, unless it is a type. -/
theorem Settled.target_mem_keys {ref : Reference} {rel : Relationship}
    (hrel : Change.relationship rel ∈ referenceChanges languages t ref) :
    rel.kind.verb.TowardType ∨ rel.target ∈ s.nodes.keys := by
  -- Supertypes and receivers lead to types, which may be stand-ins; everything else was declared or is a
  -- file.
  cases ref with
  | supertype source name clause =>
    obtain ⟨ns, verb, hverb, target, rfl⟩ := relates_of_mem hrel
    exact .inl (Verb.towardType_of_mem_inheritances hverb)
  | extension source receiver =>
    obtain ⟨ns, target, rfl⟩ := relates_of_mem hrel
    exact .inl (.inr rfl)
  | overriding member owner name =>
    obtain ⟨kind, target, -, ht, hc⟩ := mem_overrideChanges hrel
    obtain rfl := Change.relationship.inj hc
    exact .inr (h.mem_keys_of_declared hs (declared_of_overridden? ht))
  | annotated source name =>
    obtain ⟨kind, target, -, ht, hc⟩ := mem_annotationChanges hrel
    obtain rfl := Change.relationship.inj hc
    exact .inr (h.mem_keys_of_declared hs (declared_of_resolve ht))
  | call caller callee qualifier line =>
    obtain ⟨kind, target, -, ht, hc⟩ := mem_callChanges hrel
    obtain rfl := Change.relationship.inj hc
    exact .inr (h.mem_keys_of_declared hs (declared_of_callee? ht))
  | importing file l i line statement =>
    obtain ⟨source, target, id, -, hid, -, hc⟩ := mem_importChanges hrel
    obtain rfl := Change.relationship.inj hc
    exact .inr (h.mem_keys_of_file hs hid)

end Answers

/-- What holds of the ids of the stand-ins that are there and of the nodes that are folded in holds of the
ids of all stand-ins: what a stand-in is merged into has its id. -/
theorem forall_stubs_applyAll {P : String → Prop} {l : List Change}
    (hs : ∀ n ∈ s.nodes.entries, n.isStub = true → P n.id) (hl : ∀ n, Change.node n ∈ l → P n.id) :
    ∀ n ∈ (s.applyAll l).nodes.entries, n.isStub = true → P n.id := by
  intro n hn
  refine forall_holds_applyAll (Q := fun c => ∀ m, c = .node m → m.isStub = true → P m.id) ?_ ?_ ?_
    (.node n) hn n rfl
  -- A merged node is a stand-in only if the one that arrives is.
  · rintro a b hid - hb m hm hstub
    obtain rfl := Change.node.inj hm
    rw [id_mergeFrom a b hid, hid]
    exact hb b rfl (Node.isStub_of_isStub_mergeFrom hstub)
  · rintro c hc m rfl hstub
    exact hs m hc hstub
  · rintro c hc m rfl -
    exact hl m hc

/-- Relationships are never lost: each key that is there or arrives is there afterwards. -/
theorem exists_relationship_applyAll {l : List Change} {rel : Relationship}
    (h : rel ∈ s.relationships.entries ∨ Change.relationship rel ∈ l) :
    ∃ rel' ∈ (s.applyAll l).relationships.entries, rel'.key = rel.key := by
  rw [← Register.mem_keys_iff, applyAll_eq]
  refine Register.mem_keys_foldl_insertNew.2 (h.imp (fun h => ?_) fun h => ?_)
  · exact Register.mem_keys_iff.2 ⟨rel, h, rfl⟩
  · exact ⟨rel, Change.mem_filterMap_relationship?.2 h, rfl⟩

/-- **A type relates to an id**, by inheritance or extension. -/
def LedTo (s : WorkingSet) (id : String) : Prop :=
  ∃ rel ∈ s.relationships.entries, rel.target = id ∧ rel.kind.verb.TowardType

/-- A relationship that leads to an id is there from then on. -/
theorem ledTo_applyAll {l : List Change} {rel : Relationship} {id : String}
    (h : rel ∈ s.relationships.entries ∨ Change.relationship rel ∈ l) (hid : rel.target = id)
    (hverb : rel.kind.verb.TowardType) : (s.applyAll l).LedTo id := by
  obtain ⟨rel', hrel', hkey⟩ := exists_relationship_applyAll h
  simp only [Relationship.key, Prod.mk.injEq] at hkey
  obtain ⟨-, hkind, htarget⟩ := hkey
  exact ⟨rel', hrel', htarget.trans hid, hkind ▸ hverb⟩

end WorkingSet

/-! ### The ids of stand-ins -/

namespace ParseResult

variable {r : ParseResult} {languages : List Language}

/-- **The identities of the stand-ins of a project**: one for each reference that needs one when all files
have been walked. -/
def standIns (r : ParseResult) (languages : List Language) : List Identity :=
  (r.collected languages).pending.filterMap (WorkingSet.standIn? languages (r.collected languages))

/-- **Ids tell the nodes of a build apart**, declarations and stand-ins alike. -/
def TellsNodesApart (r : ParseResult) (languages : List Language) : Prop :=
  ∀ i ∈ r.identities languages ++ r.standIns languages,
    ∀ j ∈ r.identities languages ++ r.standIns languages, i.id = j.id → i.triple = j.triple

/-- What the files bring is of the path of a file, or a scope. -/
theorem scope_or_path_of_mem_identities {i : Identity} (hi : i ∈ r.identities languages) :
    (∃ l : Language, i.kind.category = l.scopeCategory) ∨
      ∃ f ∈ r.files, i.path = Path.normalize f.path := by
  obtain ⟨f, hf, hi⟩ := List.mem_flatMap.1 hi
  split at hi
  · cases hi
  · rename_i record hb
    rcases List.mem_cons.1 hi with rfl | hi
    · exact .inr ⟨f, hf, rfl⟩
    unfold FileSite.identities at hi
    simp only [List.mem_append, List.mem_map] at hi
    have hpath : Path.normalize (f.site.inside record).path = Path.normalize f.path := by
      rw [FileSite.path_inside]
      rfl
    -- Scopes have no path of their own, and all others have that of the file.
    rcases hi with (((⟨e, -, rfl⟩ | ⟨d, -, rfl⟩) | ⟨d, -, rfl⟩) | ⟨d, -, rfl⟩) | ⟨d, -, rfl⟩
    · exact .inl ⟨f.language, rfl⟩
    · exact .inr ⟨f, hf, hpath⟩
    · exact .inr ⟨f, hf, hpath⟩
    · exact .inr ⟨f, hf, hpath⟩
    · exact .inr ⟨f, hf, hpath⟩

/-- Every node that is there before the resolution has its identity from a file. -/
theorem exists_identity_of_mem_keys {id : String} (h : id ∈ (r.collected languages).nodes.keys) :
    ∃ i ∈ r.identities languages, i.id = id := by
  rcases WorkingSet.mem_keys_applyAll.1 h with h | h
  · cases h
  obtain ⟨n, hn, rfl⟩ := mem_nodeIds.1 h
  obtain ⟨f, hf, hn⟩ := List.mem_flatMap.1 hn
  obtain ⟨record, hb, hn⟩ := ParsedFile.mem_recordNodes_of_mem_changes hn
  -- The identities of a file are those of its node and of the nodes of its record.
  have hmem : ∀ i ∈ Identity.mk (.generic .file) f.path (Path.normalize f.path)
      :: f.site.identities record, i ∈ r.identities languages := by
    intro i hi
    refine List.mem_flatMap.2 ⟨f, hf, ?_⟩
    rw [hb]
    exact hi
  rcases hn with rfl | hn
  · exact ⟨_, hmem _ List.mem_cons_self, rfl⟩
  · have hid : n.id ∈ (f.site.identities record).map Identity.id := by
      rw [FileSite.map_id_identities]
      exact List.mem_map_of_mem hn
    obtain ⟨i, hi, he⟩ := List.mem_map.1 hid
    exact ⟨i, hmem i (List.mem_cons_of_mem _ hi), he⟩

theorem isType_scopeCategory (l : Language) : l.scopeCategory.isType = false := by
  cases l <;> rfl

/-- **No declaration has the id of a stand-in.** -/
theorem TellsNodesApart.notMem_keys (h : r.TellsNodesApart languages)
    (hpaths : ∀ f ∈ r.files, Path.normalize f.path ≠ "") {i : Identity} (hi : i ∈ r.standIns languages) :
    i.id ∉ (r.collected languages).nodes.keys := by
  intro hid
  obtain ⟨j, hj, hji⟩ := exists_identity_of_mem_keys hid
  have htriple := h j (List.mem_append_left _ hj) i (List.mem_append_right _ hi) hji
  obtain ⟨ref, -, href⟩ := List.mem_filterMap.1 hi
  obtain ⟨htype, hpath⟩ := WorkingSet.type_of_standIn? href
  -- A scope is no type, and every other declaration has a path, which a stand-in has not.
  rcases scope_or_path_of_mem_identities hj with ⟨l, hl⟩ | ⟨f, hf, hjpath⟩
  · have hkind : j.kind = i.kind := congrArg (·.1) htriple
    rw [← hkind, hl, isType_scopeCategory] at htype
    cases htype
  · have hnormal : Path.normalize j.path = Path.normalize i.path := congrArg (·.2.2) htriple
    rw [hjpath, Path.normalize_normalize, hpath] at hnormal
    exact hpaths f hf (hnormal.trans rfl)

/-! ### The run -/

/-- **A point of the resolution at which stand-ins are leaves.** The ids of what the files brought are those
of the set that the resolution started from. -/
structure Disciplined (r : ParseResult) (languages : List Language) (t : WorkingSet) : Prop where
  settled : (r.collected languages).Settled t
  extended : (r.collected languages).Extends t
  standIn : ∀ n ∈ t.nodes.entries, n.isStub = true → ∃ i ∈ r.standIns languages, n.id = i.id
  ledTo : ∀ n ∈ t.nodes.entries, n.isStub = true → t.LedTo n.id
  source : ∀ rel ∈ t.relationships.entries, rel.source ∈ (r.collected languages).nodes.keys
  target : ∀ rel ∈ t.relationships.entries,
    rel.kind.verb.TowardType ∨ rel.target ∈ (r.collected languages).nodes.keys

/-- The ids of all nodes that files bring tell their kinds. -/
theorem identified_collected : ∀ n ∈ (r.collected languages).nodes.entries, n.Identified := by
  refine WorkingSet.identified_applyAll (fun n hn => nomatch hn) fun n hn => ?_
  obtain ⟨f, -, hf⟩ := List.mem_flatMap.1 hn
  exact ParsedFile.identified_of_mem_changes hf

/-- The files bring no stand-ins. -/
theorem isStub_collected : ∀ n ∈ (r.collected languages).nodes.entries, n.isStub = false := by
  refine WorkingSet.forall_nodes_applyAll (fun a b _ hb => ?_) (fun n hn => nomatch hn) fun n hn => ?_
  · rw [Bool.eq_false_iff] at hb ⊢
    exact fun h => hb (Node.isStub_of_isStub_mergeFrom h)
  · obtain ⟨f, -, hf⟩ := List.mem_flatMap.1 hn
    exact ParsedFile.isStub_of_mem_changes hf

theorem extends_collected : (r.collected languages).Extends (r.collected languages) :=
  ⟨rfl, fun _ h => h, identified_collected⟩

/-- When all files have been walked, there are no stand-ins. -/
theorem disciplined_start :
    r.Disciplined languages { r.collected languages with pending := [] } where
  settled := .start _
  extended := ⟨rfl, fun _ h => h, identified_collected⟩
  standIn n hn hstub := by rw [isStub_collected n hn] at hstub; cases hstub
  ledTo n hn hstub := by rw [isStub_collected n hn] at hstub; cases hstub
  source rel hrel := r.closed_collected languages (.relationship rel) hrel _ List.mem_cons_self
  target rel hrel := .inr (r.closed_collected languages (.relationship rel) hrel _
    (List.mem_cons_of_mem _ List.mem_cons_self))

/-- **Each answer keeps stand-ins leaves.** -/
theorem Disciplined.applyAll (h : r.TellsNodesApart languages)
    (hpaths : ∀ f ∈ r.files, Path.normalize f.path ≠ "") {t : WorkingSet} (ht : r.Disciplined languages t)
    {ref : Reference} (href : ref ∈ (r.collected languages).pending) :
    r.Disciplined languages (t.applyAll (WorkingSet.referenceChanges languages t ref)) := by
  have hclosed := r.closed_collected languages
  have hids : ∀ id ∈ ref.ids, id ∈ (r.collected languages).nodes.keys := hclosed (.reference ref) href
  -- Any node that is folded in is the stand-in that the reference needed from the start.
  have hneeded : ∀ n, Change.node n ∈ WorkingSet.referenceChanges languages t ref →
      ∃ i ∈ r.standIns languages, WorkingSet.standIn? languages t ref = some i ∧ n.id = i.id := by
    intro n hn
    obtain ⟨i, hi, hid⟩ := WorkingSet.standIn?_of_node_mem hn
    refine ⟨i, List.mem_filterMap.2 ⟨ref, href, ?_⟩, hi, hid⟩
    rw [← extends_collected.standIn? ht.extended hclosed hids, hi]
  -- A stand-in is related to its source by the same answer that brings it.
  have hled : ∀ n, Change.node n ∈ WorkingSet.referenceChanges languages t ref →
      (t.applyAll (WorkingSet.referenceChanges languages t ref)).LedTo n.id := by
    intro n hn
    obtain ⟨i, hmem, hi, hid⟩ := hneeded n hn
    have hne : i.id ∉ ref.ids := fun h' => h.notMem_keys hpaths hmem (hids _ h')
    obtain ⟨rel, hrel, htarget, hverb⟩ :=
      WorkingSet.exists_towardType_of_standIn ht.extended.identified hi hne
    exact WorkingSet.ledTo_applyAll (.inr hrel) (htarget.trans hid.symm) hverb
  refine ⟨ht.settled.applyAll languages ref, ?_, ?_, ?_, ?_, ?_⟩
  · exact ht.extended.applyAll languages t ref
  · refine WorkingSet.forall_stubs_applyAll (P := fun id => ∃ i ∈ r.standIns languages, id = i.id)
      ht.standIn fun n hn => ?_
    obtain ⟨i, hmem, -, hid⟩ := hneeded n hn
    exact ⟨i, hmem, hid⟩
  · refine WorkingSet.forall_stubs_applyAll (fun n hn hstub => ?_) hled
    obtain ⟨rel, hrel, htarget, hverb⟩ := ht.ledTo n hn hstub
    exact WorkingSet.ledTo_applyAll (.inl hrel) htarget hverb
  · exact WorkingSet.forall_relationships_applyAll ht.source fun rel hrel =>
      ht.settled.source_mem_keys hclosed href hrel
  · exact WorkingSet.forall_relationships_applyAll ht.target fun rel hrel =>
      ht.settled.target_mem_keys hclosed hrel

end ParseResult

/-- **Stand-ins are leaves.** In the working set of a project whose files have paths and whose ids tell its
nodes apart, each stand-in is the target of an inheritance or of an extension, it is the target of nothing
else, and it is the source of nothing. -/
theorem leaves_of_standIns (languages : List Language) (r : ParseResult)
    (hpaths : ∀ f ∈ r.files, Path.normalize f.path ≠ "") (hids : r.TellsNodesApart languages) :
    ∀ n ∈ (workingSet languages r).nodes.entries, n.isStub = true →
      (∃ rel ∈ (workingSet languages r).relationships.entries,
        rel.target = n.id ∧ (rel.kind.verb.isHierarchy = true ∨ rel.kind.verb = .extensionOf)) ∧
      (∀ rel ∈ (workingSet languages r).relationships.entries, rel.source ≠ n.id) ∧
      ∀ rel ∈ (workingSet languages r).relationships.entries, rel.target = n.id →
        rel.kind.verb ∉ [.containing, .definingFunction, .definingClass, .calling, .overriding,
          .annotatedWith, .importing] := by
  -- The discipline holds when the files have been walked and is kept by every answer.
  have hrun : r.Disciplined languages (workingSet languages r) := by
    rw [r.workingSet_eq]
    exact WorkingSet.resolvePending_invariant ParseResult.disciplined_start
      fun t ht ref href => ht.applyAll hids hpaths href
  intro n hn hstub
  obtain ⟨i, hi, hid⟩ := hrun.standIn n hn hstub
  have hnew : n.id ∉ (r.collected languages).nodes.keys := hid ▸ hids.notMem_keys hpaths hi
  refine ⟨hrun.ledTo n hn hstub, fun rel hrel h => hnew (h ▸ hrun.source rel hrel), ?_⟩
  intro rel hrel h
  rcases hrun.target rel hrel with hverb | hkey
  · exact hverb.notMem_others
  · exact absurd (h ▸ hkey) hnew

/-- A project that names types which it does not declare: a superclass and the receiver of an extension. -/
def unknownTypes : ParseResult :=
  let app : TypeDecl := { name := "App", kind := .plainClass, superclass := some "Base", span := ⟨1, 4⟩ }
  let shout : CallableDecl :=
    { name := "shout", kind := .extensionFunction, receiver := some "String?", span := ⟨6, 8⟩ }
  { files := [.ofRecord "App.kt" (.kotlin none 0 { types := [app], callables := [shout] })] }

/-- The superclass and the receiver each get a stand-in, and these are leaves. -/
theorem leaves_of_standIns_unknownTypes :
    (∀ f ∈ unknownTypes.files, Path.normalize f.path ≠ "") ∧ unknownTypes.TellsNodesApart Language.all ∧
      (unknownTypes.standIns Language.all).map (·.name) = ["Base", "String"] ∧
      ∀ n ∈ (workingSet Language.all unknownTypes).nodes.entries, n.isStub = true →
        (∃ rel ∈ (workingSet Language.all unknownTypes).relationships.entries,
          rel.target = n.id ∧ (rel.kind.verb.isHierarchy = true ∨ rel.kind.verb = .extensionOf)) ∧
        (∀ rel ∈ (workingSet Language.all unknownTypes).relationships.entries, rel.source ≠ n.id) ∧
        ∀ rel ∈ (workingSet Language.all unknownTypes).relationships.entries, rel.target = n.id →
          rel.kind.verb ∉ [.containing, .definingFunction, .definingClass, .calling, .overriding,
            .annotatedWith, .importing] := by
  have hpaths : ∀ f ∈ unknownTypes.files, Path.normalize f.path ≠ "" := by decide +kernel
  -- The ids are evaluated, and no two of them are the same.
  have hdistinct : ((unknownTypes.identities Language.all ++ unknownTypes.standIns Language.all).map
      Identity.id).Nodup := by decide +kernel
  have hids : unknownTypes.TellsNodesApart Language.all := by
    intro i hi j hj hid
    rw [List.inj_on_of_nodup_map hdistinct hi hj hid]
  exact ⟨hpaths, hids, by decide +kernel, leaves_of_standIns Language.all unknownTypes hpaths hids⟩

end CodeAtlas
