import CodeAtlas.Proofs.ContainmentOrder
import CodeAtlas.Proofs.Repetition
import CodeAtlas.Proofs.SchemaTables

/-!
# Builds and the standard schema agree

A plan leaves out what the schema refuses and warns about it. Some of these warnings are meant for the
author of the sources: a class that extends an annotation is no valid program. Others could only say that the
build and the schema have drifted apart, and these never come up (`reasons_of_plan`): no node has an
unknown kind, and no call, import or annotation connects kinds that the schema does not expect. If the records
are tidy, no containment does either.

The warnings of a plan are texts, so they are first traced back to what they are about (`Plan.reasons`,
`warnings_ofWorkingSet`).

The proof carries one invariant over the whole build (`Sanctioned`). It says of everything that a working
set holds, in terms of kinds that ids tell, what the resolution of references relies on: a declaration is in
the namespace of its owner and a type in the namespace of its supertypes, so that a search for a callee that
starts at a callable never leaves its namespace (`tellsCallable_callee?`).

* Files contribute nothing else (`sanctioned_changes`), which is a matter of what the record has.
* A reference that is resolved adds nothing else (`sanctioned_referenceChanges`), which is a matter of what
  the set holds.
-/

namespace CodeAtlas

/-! ### Why something is not planned -/

/-- **What a warning of a plan is about.** -/
inductive Reason where
  | file (message : String)
  | node (n : Node) (e : Rejection)
  | relationship (rel : Relationship) (e : Rejection)
  /-- An end of the relationship is not planned. -/
  | dropped (rel : Relationship)

/-- The warning that a reason is worded as. -/
def Reason.message : Reason → String
  | .file message => message
  | .node _ e => e.message
  | .relationship _ e => e.message
  | .dropped rel => Plan.droppedMessage rel

namespace Plan

variable {schema : Schema} {s : WorkingSet}

/-- Why a node is not planned. -/
def nodeReason? (schema : Schema) (n : Node) : Option Reason :=
  match schema.checkNode n with
  | .ok _ => none
  | .error e => some (.node n e)

/-- Why a relationship between planned nodes is not planned. -/
def relationshipReason? (schema : Schema) (nodes : List Node) (rel : Relationship) : Option Reason :=
  match kindAmong? nodes rel.source, kindAmong? nodes rel.target with
  | some source, some target =>
    match schema.checkRelationship rel source target with
    | .ok _ => none
    | .error e => some (.relationship rel e)
  | _, _ => some (.dropped rel)

/-- **Why parts of a working set are not planned**, in the order of the warnings. -/
def reasons (schema : Schema) (s : WorkingSet) : List Reason :=
  s.warnings.map .file ++ s.nodes.entries.filterMap (nodeReason? schema) ++
    s.relationships.entries.filterMap (relationshipReason? schema (nodesOf schema s))

/-- The reason of a node is worded as its warning. -/
theorem map_message_nodeReason? (n : Node) :
    (nodeReason? schema n).map Reason.message = schema.nodeWarning? n := by
  unfold nodeReason? Schema.nodeWarning?
  cases schema.checkNode n with
  | ok _ => rfl
  | error e => rfl

/-- So is the reason of a relationship. -/
theorem map_message_relationshipReason? (nodes : List Node) (rel : Relationship) :
    (relationshipReason? schema nodes rel).map Reason.message
      = relationshipWarning? schema nodes rel := by
  unfold relationshipReason? relationshipWarning?
  -- Both look up the two ends and then ask the schema, so they branch alike.
  cases kindAmong? nodes rel.source with
  | none => rfl
  | some source =>
    cases kindAmong? nodes rel.target with
    | none => rfl
    | some target =>
      dsimp only
      cases schema.checkRelationship rel source target with
      | ok _ => rfl
      | error e => rfl

/-- **The warnings of a plan are its reasons, worded.** -/
theorem warnings_ofWorkingSet (schema : Schema) (s : WorkingSet) :
    (ofWorkingSet schema s).warnings = (reasons schema s).map Reason.message := by
  have hfiles : (s.warnings.map Reason.file).map Reason.message = s.warnings := by
    rw [List.map_map]
    exact List.map_id _
  rw [ofWorkingSet_eq]
  unfold reasons
  rw [List.map_append, List.map_append, hfiles, List.map_filterMap, List.map_filterMap]
  simp only [map_message_nodeReason?, map_message_relationshipReason?]

/-- A node is among the reasons exactly if the schema refuses it. -/
theorem node_mem_reasons {n : Node} {e : Rejection} :
    .node n e ∈ reasons schema s ↔ n ∈ s.nodes.entries ∧ schema.checkNode n = .error e := by
  -- The reasons are of two sorts, and only nodes give reasons that name a node.
  have hnode : ∀ m, nodeReason? schema m = some (.node n e) ↔ m = n ∧ schema.checkNode n = .error e := by
    intro m
    unfold nodeReason?
    cases h : schema.checkNode m with
    | ok _ => grind
    | error e' => grind
  have hrel : ∀ rel, relationshipReason? schema (nodesOf schema s) rel ≠ some (.node n e) := by
    intro rel h
    unfold relationshipReason? at h
    grind
  unfold reasons
  simp only [List.mem_append, List.mem_map, List.mem_filterMap, hnode, hrel, reduceCtorEq, and_false,
    exists_false, false_or, or_false]
  exact ⟨fun ⟨m, hm, h, he⟩ => ⟨h ▸ hm, he⟩, fun ⟨hn, he⟩ => ⟨n, hn, rfl, he⟩⟩

/-- A relationship is refused for the kinds of two planned nodes. -/
theorem exists_of_relationship_mem_reasons {rel : Relationship} {e : Rejection}
    (h : .relationship rel e ∈ reasons schema s) :
    rel ∈ s.relationships.entries ∧ ∃ a ∈ s.nodes.entries, ∃ b ∈ s.nodes.entries,
      a.id = rel.source ∧ b.id = rel.target ∧ schema.checkRelationship rel a.kind b.kind = .error e := by
  -- Only relationships give reasons that name a relationship.
  have hnode : ∀ m, nodeReason? schema m ≠ some (.relationship rel e) := by
    intro m h
    unfold nodeReason? at h
    grind
  unfold reasons at h
  simp only [List.mem_append, List.mem_map, List.mem_filterMap, hnode, reduceCtorEq, and_false,
    exists_false, false_or] at h
  obtain ⟨rel', hrel, h⟩ := h
  unfold relationshipReason? at h
  split at h
  · rename_i source target hs ht
    obtain ⟨a, ha, hai, rfl⟩ := exists_of_kindAmong? hs
    obtain ⟨b, hb, hbi, rfl⟩ := exists_of_kindAmong? ht
    split at h
    · cases h
    · rename_i e' he
      obtain ⟨rfl, rfl⟩ := Reason.relationship.inj (Option.some.inj h)
      exact ⟨hrel, a, (mem_nodesOf.1 ha).1, b, (mem_nodesOf.1 hb).1, hai, hbi, he⟩
  · cases h

end Plan

/-! ### What builds keep to -/

/-- Whether a verb is one that only the build chooses, and not the sources. -/
def Verb.isBuilt : Verb → Bool
  | calling | importing | annotatedWith => true
  | _ => false

/-- The verb of a supertype is chosen by the sources. -/
theorem Language.isBuilt_hierarchyVerb (l : Language) (source target : Category) (clause : SuperClause) :
    (l.hierarchyVerb source target clause).isBuilt = false := by
  have hnone : ∀ v ∈ Verb.inheritances, v.isBuilt = false := by decide
  exact hnone _ (l.hierarchyVerb_mem source target clause)

theorem RelKind.isBuilt_of_isContainment {k : RelKind} (h : k.isContainment = true) :
    k.verb.isBuilt = false := by
  unfold isContainment at h
  simp only [Bool.or_eq_true, beq_iff_eq] at h
  rcases h with (rfl | rfl) | rfl <;> rfl

/-- Whether two ids tell kinds of one namespace. -/
def SameSpace (a b : String) : Prop :=
  ∃ j k, kindOfId? a = some j ∧ kindOfId? b = some k ∧ j.space = k.space

/-- Whether an id tells a kind of callables of a namespace that the schema knows. -/
def TellsCallable (ns : Namespace) (id : String) : Prop :=
  ∃ k, kindOfId? id = some k ∧ k.space = ns ∧ k.category.isCallable = true ∧
    Schema.standard.isRegistered k = true

/-- What a reference that waits starts from: calls are made by callables, and what is annotated may be. -/
def Reference.Sanctioned : Reference → Prop
  | .annotated source _ => ∃ k, kindOfId? source = some k ∧
      Schema.standard.connects ⟨k.space, .annotatedWith⟩ k ⟨k.space, .annotationType⟩ = true
  | .call caller _ _ _ => ∃ ns, TellsCallable ns caller
  | _ => True

/-- **What a build holds at any time**, as far as kinds and namespaces go. -/
def Change.Sanctioned : Change → Prop
  | .node n => n.Identified ∧ Schema.standard.isRegistered n.kind = true
  | .declaration d => ∀ o ∈ d.origin.owner, SameSpace d.id o
  | .file _ id => kindOfId? id = some Schema.fileKind
  | .relationship rel => rel.kind.verb.isBuilt = true → rel.Allowed
  | .reference r => r.Sanctioned
  | .inheritance child parent => SameSpace child parent
  | _ => True

/-- Merging keeps the kind that the id tells. -/
theorem mergeable_sanctioned : WorkingSet.Mergeable Change.Sanctioned := by
  intro a b hid ha hb
  refine ⟨ha.1.mergeFrom hb.1, ?_⟩
  unfold Node.mergeFrom
  split
  · exact hb.2
  · exact ha.2

/-- Two ids of one language tell kinds of one namespace. -/
theorem SameSpace.of_language {l : Language} {a b : String} (ha : OfLanguage l a) (hb : OfLanguage l b) :
    SameSpace a b := by
  obtain ⟨j, hj, hjs, -⟩ := ha
  obtain ⟨k, hk, hks, -⟩ := hb
  exact ⟨j, k, hj, hk, hjs.trans hks.symm⟩

/-! ### What files contribute -/

namespace FileSite

variable {f : FileSite} {r : SourceRecord}

/-- An id of a kind that the language gives to its declarations. -/
def DeclaresId (f : FileSite) (id : String) : Prop :=
  ∃ c ∈ f.language.declaredCategories, kindOfId? id = some (f.kind c)

/-- The annotations of a declaration start at a kind that may be annotated. -/
theorem sanctioned_annotationRefs {id : String} (h : f.DeclaresId id) (annotations : List String) :
    ∀ ref ∈ f.annotationRefs id annotations, ref.Sanctioned := by
  obtain ⟨c, hc, hid⟩ := h
  intro ref href
  unfold annotationRefs at href
  split at href
  · rename_i hlinks
    obtain ⟨a, -, rfl⟩ := List.mem_map.1 href
    exact ⟨f.kind c, hid, (Schema.serves_standard f.language).annotated hlinks c hc⟩
  · cases href

/-- Receivers start anywhere. -/
theorem sanctioned_receiverRefs (id : String) (receiver : Option String) :
    ∀ ref ∈ receiverRefs id receiver, ref.Sanctioned := by
  intro ref href
  obtain ⟨a, -, rfl⟩ := List.mem_map.1 href
  trivial

/-- What a type refers to starts at the type. -/
theorem sanctioned_typeRefs {id : String} (h : f.DeclaresId id) (d : TypeDecl) :
    ∀ ref ∈ f.typeRefs id d, ref.Sanctioned := by
  intro ref href
  unfold typeRefs at href
  rcases List.mem_append.1 href with href | href
  · rcases List.mem_append.1 href with href | href
    · obtain ⟨e, -, rfl⟩ := List.mem_map.1 href
      trivial
    · obtain ⟨e, -, rfl⟩ := List.mem_map.1 href
      trivial
  · exact sanctioned_annotationRefs h d.annotations ref href

/-- Overrides start anywhere. -/
theorem sanctioned_overrideRefs (d : CallableDecl) : ∀ ref ∈ f.overrideRefs d, ref.Sanctioned := by
  intro ref href
  unfold overrideRefs at href
  split at href
  · split at href
    · obtain rfl := List.mem_singleton.1 href
      trivial
    · cases href
  · cases href

/-- The node of a callable is that of a callable. -/
theorem tellsCallable_callableNode (d : CallableDecl) :
    TellsCallable f.language.space (f.callableNode d).id := by
  refine ⟨f.kind (f.language.callableCategory d), f.kindOfId?_callableNode d, rfl, ?_, ?_⟩
  · have hall : ∀ l ∈ Language.all, ∀ c ∈ l.callableCategories, c.isCallable = true := by decide
    exact hall _ f.language.mem_all _ (f.language.callableCategory_mem d)
  · exact Schema.registered_categories f.language f.language.mem_all _
      (List.mem_cons_of_mem _ (List.mem_cons_of_mem _ (f.language.callableCategory_mem_declared d)))

/-- A call is made by a callable of the record. -/
theorem sanctioned_callRef? {callables : List CallableDecl} {site : CallSite} {ref : Reference}
    (h : callRef? (f.spans callables) site = some ref) : ref.Sanctioned := by
  obtain ⟨caller, hcaller, rfl⟩ := Option.map_eq_some_iff.1 h
  obtain ⟨e, he, rfl⟩ := mem_of_innermost? hcaller
  obtain ⟨d, -, rfl⟩ := List.mem_map.1 he
  exact ⟨_, f.tellsCallable_callableNode d⟩

/-- The reference of a member comes with the member. -/
theorem mem_of_mem_memberChanges {n : Node} {owner : Option String} {c : Category}
    {refs : List Reference} {ref : Reference}
    (h : Change.reference ref ∈ f.memberChanges n owner c refs) : ref ∈ refs := by
  unfold memberChanges Change.declare at h
  simpa using h

/-- Types contribute no references when they are declared. -/
theorem not_reference_mem_typeChanges {l : List TypeDecl} {ref : Reference} :
    Change.reference ref ∉ f.typeChanges l := by
  induction l generalizing f with
  | nil => exact List.not_mem_nil
  | cons d l ih =>
    intro h
    rcases List.mem_append.1 h with h | h
    · simp [Change.declare] at h
    · exact ih h

/-- **Every reference of a record starts where it may.** -/
theorem Fresh.sanctioned_reference (hf : f.Fresh) {ref : Reference}
    (h : Change.reference ref ∈ f.recordChanges r) : ref.Sanctioned := by
  unfold recordChanges at h
  simp only [List.mem_append] at h
  change ((((((_ ∨ _) ∨ _) ∨ _ ∈ r.facts.types.flatMap (f.inside r).linkChanges) ∨
    _ ∈ r.facts.callables.flatMap (f.inside r).callableChanges) ∨
    _ ∈ r.facts.fields.flatMap (f.inside r).fieldChanges) ∨
    _ ∈ (r.facts.calls.filterMap (callRef? ((f.inside r).spans r.facts.callables))).map _) at h
  -- Scope, imports, types, links of types, callables, fields, calls.
  rcases h with (((((h | h) | h) | h) | h) | h) | h
  · unfold scopeChanges at h
    split at h
    · cases h
    · simp [Change.declare] at h
  · obtain ⟨d, -, h⟩ := List.mem_flatMap.1 h
    simp only [importChanges, List.mem_cons, reduceCtorEq, Change.reference.injEq, List.not_mem_nil,
      or_false, false_or] at h
    subst h
    trivial
  · exact absurd h not_reference_mem_typeChanges
  · obtain ⟨d, -, h⟩ := List.mem_flatMap.1 h
    unfold linkChanges at h
    split at h
    · cases h
    · rename_i id q ht
      -- The id is that of a type of the record.
      rw [hf.type?_inside] at ht
      obtain ⟨t, -, ht⟩ := Option.map_eq_some_iff.1 ht
      obtain ⟨rfl, -⟩ := Prod.mk.inj ht
      rcases List.mem_cons.1 h with h | h
      · cases h
      · obtain ⟨ref', href, he⟩ := List.mem_map.1 h
        obtain rfl := Change.reference.inj he
        exact sanctioned_typeRefs ⟨_, Language.typeCategory_mem_declared _ _,
          (f.inside r).kindOfId?_typeNode t⟩ d ref' href
  · obtain ⟨d, -, h⟩ := List.mem_flatMap.1 h
    have href := mem_of_mem_memberChanges h
    rcases List.mem_append.1 href with href | href
    · rcases List.mem_append.1 href with href | href
      · exact sanctioned_overrideRefs d ref href
      · exact sanctioned_receiverRefs _ _ ref href
    · exact sanctioned_annotationRefs ⟨_, Language.callableCategory_mem_declared _ _,
        (f.inside r).kindOfId?_callableNode d⟩ d.annotations ref href
  · obtain ⟨d, -, h⟩ := List.mem_flatMap.1 h
    have href := mem_of_mem_memberChanges h
    rcases List.mem_append.1 href with href | href
    · exact sanctioned_receiverRefs _ _ ref href
    · exact sanctioned_annotationRefs ⟨_, Language.fieldCategory_mem_declared _,
        (f.inside r).kindOfId?_fieldNode d⟩ d.annotations ref href
  · obtain ⟨ref', href, he⟩ := List.mem_map.1 h
    obtain rfl := Change.reference.inj he
    obtain ⟨site, -, hsite⟩ := List.mem_filterMap.1 href
    exact sanctioned_callRef? hsite

end FileSite

/-- Nothing is known at the site of a file. -/
theorem ParsedFile.fresh_site (f : ParsedFile) : f.site.Fresh :=
  ⟨rfl, rfl⟩

/-- The kind of files is registered. -/
theorem Schema.registered_fileKind : standard.isRegistered fileKind = true := by
  decide +kernel

/-- **A file contributes only what builds keep to.** -/
theorem ParsedFile.sanctioned_changes (f : ParsedFile) (languages : List Language) :
    ∀ c ∈ f.changes languages, c.Sanctioned := by
  intro c hc
  have hnode : ∀ n, Change.node n ∈ f.changes languages → (Change.node n).Sanctioned := by
    intro n hn
    refine ⟨identified_of_mem_changes hn, ?_⟩
    obtain ⟨record, -, rfl | hn⟩ := mem_recordNodes_of_mem_changes hn
    · exact Schema.registered_fileKind
    · exact FileSite.registered_recordNodes n hn
  have hrel : ∀ rel, Change.relationship rel ∈ f.changes languages →
      (Change.relationship rel).Sanctioned := by
    intro rel hrel hbuilt
    -- A record only says what holds what.
    obtain ⟨record, -, hlink⟩ := mem_recordLinks_of_mem_changes hrel
    have hcontains := (f.fresh_site.holds_recordLinks rel hlink).1
    rw [RelKind.isBuilt_of_isContainment hcontains] at hbuilt
    cases hbuilt
  have hall := hc
  unfold changes at hc
  cases hb : f.built languages with
  | error skip =>
    rw [hb] at hc
    obtain rfl := List.mem_singleton.1 hc
    trivial
  | ok record =>
    rw [hb] at hc
    -- A file brings its node, its place among the files, and what its record brings.
    rcases List.mem_cons.1 hc with rfl | hc
    · exact hnode _ hall
    rcases List.mem_cons.1 hc with rfl | hc
    · exact f.kindOfId?_fileId
    have hwithin := f.within_language record c hc
    cases c with
    | node n => exact hnode n hall
    | declaration d => exact fun o ho => .of_language hwithin.1 (hwithin.2 o ho)
    | relationship rel => exact hrel rel hall
    | reference ref => exact f.fresh_site.sanctioned_reference hc
    | scope path name => trivial
    | _ => exact hwithin.elim

/-! ### What resolved references add -/

/-- **The answer of a search comes from a place that the search may reach**: a property of the places in the
queue that edges keep. -/
theorem Reach.exists_of_nearest?_of_forall {α β : Type} [DecidableEq α] {visit : α → Option β}
    {P : α → Prop} {edges : List (α × α)} {queue : List α} {b : β} (hq : ∀ a ∈ queue, P a)
    (he : ∀ e ∈ edges, P e.1 → P e.2) (h : nearest? visit edges queue = some b) :
    ∃ a, P a ∧ visit a = some b := by
  fun_induction nearest? visit edges queue with
  | case1 => cases h
  | case2 edges a rest b' hv => exact ⟨a, hq a List.mem_cons_self, hv.trans h⟩
  | case3 edges a rest hv ih =>
    -- The edges that leave the graph lead from a place of the queue to places that join it.
    refine ih (fun c hc => ?_) (fun e hmem => he e (List.mem_of_mem_filter hmem)) h
    rcases List.mem_append.1 hc with hc | hc
    · exact hq c (List.mem_cons_of_mem a hc)
    · obtain ⟨e, hmem, rfl⟩ := List.mem_map.1 hc
      unfold outgoing at hmem
      obtain ⟨hmem, hsource⟩ := List.mem_filter.1 hmem
      have hsource : e.1 = a := by simpa using hsource
      exact he e hmem (hsource ▸ hq a List.mem_cons_self)

namespace WorkingSet

variable {s : WorkingSet}

/-- Whether an id tells a kind of a namespace. -/
def TellsSpace (ns : Namespace) (id : String) : Prop :=
  ∃ k, kindOfId? id = some k ∧ k.space = ns

/-- Ids of one namespace tell it alike. -/
theorem TellsSpace.of_sameSpace {ns : Namespace} {a b : String} (h : SameSpace a b) :
    TellsSpace ns a ↔ TellsSpace ns b := by
  obtain ⟨j, k, hj, hk, hjk⟩ := h
  constructor
  · rintro ⟨i, hi, rfl⟩
    obtain rfl := Option.some.inj (hj.symm.trans hi)
    exact ⟨k, hk, hjk.symm⟩
  · rintro ⟨i, hi, rfl⟩
    obtain rfl := Option.some.inj (hk.symm.trans hi)
    exact ⟨j, hj, hjk⟩

section Sanctioned

variable (hs : ∀ c, s.Holds c → c.Sanctioned)
include hs

/-- A node that is found has the kind that its id tells, and the schema knows it. -/
theorem kindOfId?_of_kind? {id : String} {k : NodeKind} (h : s.kind? id = some k) :
    kindOfId? id = some k ∧ Schema.standard.isRegistered k = true := by
  obtain ⟨n, hn, rfl⟩ := Option.map_eq_some_iff.1 h
  obtain ⟨hmem, rfl⟩ := Register.get?_eq_some_iff.1 hn
  exact hs (.node n) hmem

/-- A callable member of a type is a callable of its namespace. -/
theorem tellsCallable_callableMember? {p : String → Bool} {name owner id : String} {ns : Namespace}
    (hns : TellsSpace ns owner) (h : s.callableMember? p name owner = some id) :
    TellsCallable ns id := by
  -- It is declared in the type, so it is in the namespace of the type.
  obtain ⟨d, hd, rfl⟩ := List.mem_map.1 (List.mem_of_find?_eq_some h)
  obtain ⟨hmem, howner⟩ := List.mem_filter.1 hd
  have hsame : SameSpace d.id owner := hs (.declaration d) hmem owner (by simpa using howner)
  obtain ⟨k, hk, rfl⟩ := (TellsSpace.of_sameSpace hsame).2 hns
  -- And its node says that it is a callable.
  have hp := List.find?_some h
  rw [Bool.and_eq_true, Option.any_eq_true] at hp
  obtain ⟨-, n, hn, hn'⟩ := hp
  rw [Bool.and_eq_true] at hn'
  have hkind : s.kind? d.id = some n.kind := by
    unfold kind?
    rw [hn]
    rfl
  obtain ⟨hid, hregistered⟩ := kindOfId?_of_kind? hs hkind
  obtain rfl := Option.some.inj (hk.symm.trans hid)
  exact ⟨n.kind, hid, rfl, hn'.2, hregistered⟩

/-- **A search through the hierarchy stays in the namespace in which it starts.** -/
theorem tellsCallable_memberInHierarchy? {owner name id : String} {ns : Namespace}
    (hns : TellsSpace ns owner) (h : s.memberInHierarchy? owner name = some id) :
    TellsCallable ns id := by
  obtain ⟨type, htype, hvisit⟩ := Reach.exists_of_nearest?_of_forall (P := TellsSpace ns)
    (fun a ha => List.mem_singleton.1 ha ▸ hns)
    (fun e he => (TellsSpace.of_sameSpace (hs (.inheritance e.1 e.2) he)).1) h
  exact tellsCallable_callableMember? hs htype hvisit

/-- A name that is accepted as a callable refers to one. -/
theorem tellsCallable_resolve {ns : Namespace} {name : String} {origin : Origin} {id : String}
    (h : s.resolve name origin (isCallableIn ns) = some id) : TellsCallable ns id := by
  obtain ⟨k, hk, haccept⟩ := kind?_of_resolve h
  obtain ⟨hid, hregistered⟩ := kindOfId?_of_kind? hs hk
  unfold isCallableIn at haccept
  rw [Bool.and_eq_true, beq_iff_eq] at haccept
  exact ⟨k, hid, haccept.1, haccept.2, hregistered⟩

/-- A name that is accepted as a type refers to one of the namespace. -/
theorem tellsSpace_resolve {ns : Namespace} {name : String} {origin : Origin} {id : String}
    (h : s.resolve name origin (isTypeIn ns) = some id) : TellsSpace ns id := by
  obtain ⟨k, hk, haccept⟩ := kind?_of_resolve h
  unfold isTypeIn at haccept
  rw [Bool.and_eq_true, beq_iff_eq] at haccept
  exact ⟨k, (kindOfId?_of_kind? hs hk).1, haccept.1⟩

/-- **What a call refers to is a callable of the namespace of the caller.** -/
theorem tellsCallable_callee? {ns : Namespace} {origin : Origin} {callee : String}
    {qualifier : Option String} {id : String} (ho : ∀ o ∈ origin.owner, TellsSpace ns o)
    (h : s.callee? ns origin callee qualifier = some id) : TellsCallable ns id := by
  -- Every way to a callee is a member of a type of the namespace, or else a name.
  have hor : ∀ {type : Option String} {name : String}, (∀ t ∈ type, TellsSpace ns t) →
      ((type.bind fun t => s.memberInHierarchy? t callee).or
        (s.resolve name origin (isCallableIn ns))) = some id → TellsCallable ns id := by
    intro type name htype h
    rcases Option.or_eq_some_iff.1 h with h | ⟨-, h⟩
    · obtain ⟨t, ht, h⟩ := Option.bind_eq_some_iff.1 h
      exact tellsCallable_memberInHierarchy? hs (htype t ht) h
    · exact tellsCallable_resolve hs h
  unfold callee? at h
  cases qualifier with
  | none => exact hor ho h
  | some q =>
    dsimp only at h
    split at h
    · exact hor ho h
    · split at h
      · exact hor (fun t ht => tellsSpace_resolve hs ht) h
      · exact tellsCallable_resolve hs h

/-- The type around a declaration is in its namespace. -/
theorem tellsSpace_owner {id : String} {k : NodeKind} (hk : kindOfId? id = some k) :
    ∀ o ∈ (s.originOf id).owner, TellsSpace k.space o := by
  intro o ho
  unfold originOf origin? at ho
  -- An id without a declaration has no owner.
  cases hd : s.declarations.get? id with
  | none =>
    rw [hd] at ho
    cases ho
  | some d =>
    rw [hd] at ho
    obtain ⟨hmem, rfl⟩ := Register.get?_eq_some_iff.1 hd
    have hsame : SameSpace d.id o := hs (.declaration d) hmem o ho
    exact (TellsSpace.of_sameSpace hsame).1 ⟨k, hk, rfl⟩

/-- A stand-in is of a kind that the schema knows. -/
theorem sanctioned_typeTarget {languages : List Language} {id : String} {l : Language} {k : NodeKind}
    (hl : s.languageOf? languages id = some (l, k)) (origin : Origin) (name : String)
    (clause : SuperClause) :
    (∀ c ∈ (s.typeTarget k.space origin name (l.stubCategory clause)).1, c.Sanctioned) ∧
      TellsSpace k.space (s.typeTarget k.space origin name (l.stubCategory clause)).2 := by
  have hspace : k.space = l.space := by
    unfold languageOf? at hl
    obtain ⟨kind, -, hl⟩ := Option.bind_eq_some_iff.1 hl
    obtain ⟨l', hl', hl⟩ := Option.bind_eq_some_iff.1 hl
    split at hl
    · obtain ⟨rfl, rfl⟩ := Prod.mk.inj (Option.some.inj hl)
      have := List.find?_some hl'
      exact (beq_iff_eq.1 this).symm
    · cases hl
  unfold typeTarget
  cases h : s.resolve name origin (isTypeIn k.space) with
  | some target => exact ⟨fun c hc => absurd hc List.not_mem_nil, tellsSpace_resolve hs h⟩
  | none =>
    refine ⟨fun c hc => ?_, ⟨_, Node.identified_stub _ _, rfl⟩⟩
    obtain rfl := List.mem_singleton.1 hc
    refine ⟨Node.identified_stub _ _, ?_⟩
    rw [hspace]
    exact Schema.registered_stub l clause

/-- An annotation connects what may be annotated with an annotation. -/
theorem allowed_annotation {source name target : String} {k : NodeKind}
    (hr : (Reference.annotated source name).Sanctioned) (hk : s.kind? source = some k)
    (ht : s.resolve name (s.originOf source)
      (fun j => j.space == k.space && j.category == .annotationType) = some target) :
    (Relationship.between ⟨k.space, .annotatedWith⟩ source target).Allowed := by
  obtain ⟨j, hj, haccept⟩ := kind?_of_resolve ht
  rw [Bool.and_eq_true, beq_iff_eq, beq_iff_eq] at haccept
  have hjkind : j = ⟨k.space, .annotationType⟩ := by
    rw [← haccept.1, ← haccept.2]
  obtain ⟨k', hk', hconnects⟩ := hr
  -- What may be annotated is said of the kind that the id tells, which is the kind of the node.
  have hsource := (kindOfId?_of_kind? hs hk).1
  obtain rfl := Option.some.inj (hk'.symm.trans hsource)
  exact .of_connects hsource ((kindOfId?_of_kind? hs hj).1.trans (congrArg some hjkind)) hconnects

/-- A call connects two callables of one namespace. -/
theorem allowed_call {caller callee target : String} {qualifier : Option String} {line : Nat}
    {k : NodeKind} (hr : (Reference.call caller callee qualifier line).Sanctioned)
    (hk : s.kind? caller = some k)
    (ht : s.callee? k.space (s.originOf caller) callee qualifier = some target) :
    ((Relationship.between .calls caller target).set "line" (.ofNat line)).Allowed := by
  have hsource := (kindOfId?_of_kind? hs hk).1
  obtain ⟨ns, k', hk', -, hcallable, hregistered⟩ := hr
  obtain rfl := Option.some.inj (hk'.symm.trans hsource)
  obtain ⟨j, hj, hspace, hjcallable, hjregistered⟩ :=
    tellsCallable_callee? hs (tellsSpace_owner hs hsource) ht
  refine .of_connects hsource hj ?_
  -- Both kinds are of one namespace now, so the table of its language says that they may be connected.
  obtain ⟨ns', c⟩ := k'
  obtain ⟨ns'', d⟩ := j
  obtain rfl : ns'' = ns' := hspace
  obtain ⟨l, rfl⟩ := Language.exists_space ns''
  exact (Schema.serves_standard l).calls
    c (Schema.mem_callableCategories l l.mem_all c
      (List.mem_filter.2 ⟨Category.mem_all c, hcallable⟩) hregistered)
    d (Schema.mem_callableCategories l l.mem_all d
      (List.mem_filter.2 ⟨Category.mem_all d, hjcallable⟩) hjregistered)

/-- **A reference that is resolved adds only what builds keep to.** -/
theorem sanctioned_referenceChanges (languages : List Language) {r : Reference} (hr : r.Sanctioned) :
    ∀ c ∈ referenceChanges languages s r, c.Sanctioned := by
  intro c hc
  -- Only three kinds of references make relationships that a build has to keep to: annotations, calls and
  -- imports.
  cases r with
  | supertype source name clause =>
    obtain ⟨l, kind, hl, hc⟩ := mem_supertypeChanges hc
    obtain ⟨hstub, htarget⟩ := sanctioned_typeTarget hs hl (s.originOf source) name clause
    rcases hc with hc | ⟨target, rfl⟩ | rfl
    · exact hstub c hc
    · intro hbuilt
      change (l.hierarchyVerb kind.category target clause).isBuilt = true at hbuilt
      rw [l.isBuilt_hierarchyVerb] at hbuilt
      cases hbuilt
    · -- A type and its supertype are in one namespace, be it found or a stand-in.
      obtain ⟨k, hk, hspace⟩ := htarget
      exact ⟨kind, k, (kindOfId?_of_kind? hs (kind?_of_languageOf? hl)).1, hk, hspace.symm⟩
  | extension source receiver =>
    obtain ⟨l, kind, name, hl, hc | rfl⟩ := mem_extensionChanges hc
    · exact (sanctioned_typeTarget hs hl _ name .superclass).1 c hc
    · exact fun hbuilt => nomatch hbuilt
  | overriding member owner name =>
    obtain ⟨kind, target, -, -, rfl⟩ := mem_overrideChanges hc
    exact fun hbuilt => nomatch hbuilt
  | annotated source name =>
    obtain ⟨kind, target, hk, ht, rfl⟩ := mem_annotationChanges hc
    exact fun _ => allowed_annotation hs hr hk ht
  | call caller callee qualifier line =>
    obtain ⟨kind, target, hk, ht, rfl⟩ := mem_callChanges hc
    exact fun _ => allowed_call hs hr hk ht
  | importing file l i line statement =>
    obtain ⟨source, target, id, hsource, hid, -, rfl⟩ := mem_importChanges hc
    exact fun _ => .of_connects (hs (.file file source) hsource) (hs (.file target id) hid)
      (Schema.serves_standard l).imports

end Sanctioned

end WorkingSet

/-- **Everything in the working set of a project is what builds keep to.** -/
theorem sanctioned_workingSet (languages : List Language) (r : ParseResult) :
    ∀ c, (workingSet languages r).Holds c → c.Sanctioned := by
  unfold workingSet
  rw [foldl_addParsedFile]
  -- It is so when all files have been walked, for the references that wait too.
  have hfiles : ∀ c, (({} : WorkingSet).applyAll (r.files.flatMap (·.changes languages))).Holds c →
      c.Sanctioned := by
    refine WorkingSet.forall_holds_applyAll mergeable_sanctioned
      (fun c hc => absurd hc (WorkingSet.not_holds_empty c)) fun c hc => ?_
    obtain ⟨f, -, hc⟩ := List.mem_flatMap.1 hc
    exact f.sanctioned_changes languages c hc
  refine WorkingSet.resolvePending_invariant (Q := fun t => ∀ c, t.Holds c → c.Sanctioned) ?_ ?_
  · intro c hc
    cases c with
    | reference ref => exact absurd hc List.not_mem_nil
    | _ => exact hfiles _ hc
  · intro t ht ref href
    exact WorkingSet.forall_holds_applyAll mergeable_sanctioned ht
      (WorkingSet.sanctioned_referenceChanges ht languages (hfiles (.reference ref) href))

/-- **In a project of tidy records, all that holds something may hold it.** -/
theorem allowed_of_isContainment {languages : List Language} {r : ParseResult}
    (h : ∀ f ∈ r.files, ∀ record, f.built languages = .ok record → record.Tidy) {rel : Relationship}
    (hrel : rel ∈ (workingSet languages r).relationships.entries)
    (hcontains : rel.kind.isContainment = true) : rel.Allowed := by
  obtain ⟨f, hf, record, hbuilt, hlink⟩ :=
    links_workingSet languages r rel hrel (RelKind.holds_of_isContainment hcontains)
  refine f.fresh_site.allowed_recordLinks f.kindOfId?_fileId (h f hf record hbuilt) ?_ rel hlink
  -- A file whose record is of another language is not built.
  unfold ParsedFile.built at hbuilt
  grind [ParsedFile.site]

/-- A relationship that is refused is one that the schema does not allow. -/
theorem not_allowed_of_mem_reasons {languages : List Language} {r : ParseResult} {rel : Relationship}
    {e : Rejection} (h : .relationship rel e ∈ Plan.reasons .standard (workingSet languages r)) :
    ¬ rel.Allowed := by
  intro hallowed
  obtain ⟨-, a, ha, b, hb, hsource, htarget, he⟩ := Plan.exists_of_relationship_mem_reasons h
  have ha := sanctioned_workingSet languages r (.node a) ha
  have hb := sanctioned_workingSet languages r (.node b) hb
  have hconnects := hallowed a.kind b.kind (hsource ▸ ha.1) (htarget ▸ hb.1)
  rw [Schema.checkRelationship_of_connects hconnects] at he
  cases he

/-- **Builds and the standard schema agree.** Whatever the files: no node is refused for its kind, and no
call, import or annotation is refused for what it connects. If every record is tidy, no containment is
either. -/
theorem reasons_of_plan (languages : List Language) (r : ParseResult) :
    let reasons := Plan.reasons .standard (workingSet languages r)
    (plan ⟨.standard, languages⟩ r).warnings = reasons.map Reason.message ∧
      (∀ n label, .node n (.unknownNodeKind label) ∉ reasons) ∧
      (∀ rel e, .relationship rel e ∈ reasons →
        rel.kind ≠ .calls ∧ rel.kind ≠ .imports ∧ rel.kind.verb ≠ .annotatedWith) ∧
      ((∀ f ∈ r.files, ∀ record, f.built languages = .ok record → record.Tidy) →
        ∀ rel e, .relationship rel e ∈ reasons →
          rel.kind ≠ .contains ∧ rel.kind ≠ .definesClass ∧ rel.kind ≠ .definesFunction) := by
  intro reasons
  have hsanctioned := sanctioned_workingSet languages r
  refine ⟨Plan.warnings_ofWorkingSet _ _, fun n label hn => ?_, fun rel e hrel => ?_,
    fun htidy rel e hrel => ?_⟩
  · obtain ⟨hmem, he⟩ := Plan.node_mem_reasons.1 hn
    exact Schema.checkNode_ne_unknownNodeKind (hsanctioned (.node n) hmem).2 label he
  · have hmem := (Plan.exists_of_relationship_mem_reasons hrel).1
    -- What a build relates is allowed, so a relationship that is refused is none of those.
    have hbuilt : ¬ rel.kind.verb.isBuilt = true := fun hbuilt =>
      not_allowed_of_mem_reasons hrel (hsanctioned (.relationship rel) hmem hbuilt)
    refine ⟨fun h => hbuilt ?_, fun h => hbuilt ?_, fun h => hbuilt ?_⟩
    · rw [h]
      rfl
    · rw [h]
      rfl
    · rw [h]
      rfl
  · have hmem := (Plan.exists_of_relationship_mem_reasons hrel).1
    -- In tidy records, what holds something may hold it, so no containment is refused.
    have hcontains : ¬ rel.kind.isContainment = true := fun hcontains =>
      not_allowed_of_mem_reasons hrel (allowed_of_isContainment htidy hmem hcontains)
    refine ⟨fun h => hcontains ?_, fun h => hcontains ?_, fun h => hcontains ?_⟩
    · rw [h]
      rfl
    · rw [h]
      rfl
    · rw [h]
      rfl

/-- A Kotlin file with a class in a class, and a Python file. The Kotlin class extends an annotation, which is
the author's mistake and is refused. -/
def tidyFiles : ParseResult :=
  let marker : TypeDecl := { name := "Marker", kind := .annotationType, span := ⟨1, 1⟩ }
  let outer : TypeDecl :=
    { name := "Outer", kind := .plainClass, annotations := ["@Marker"], superclass := some "Marker",
      span := ⟨2, 9⟩ }
  let inner : TypeDecl :=
    { name := "Inner", kind := .object, enclosing := some "Outer", span := ⟨3, 8⟩ }
  let run : CallableDecl :=
    { name := "run", kind := .method, owner := some "Outer.Inner", span := ⟨4, 7⟩ }
  let main : CallableDecl := { name := "main", kind := .function, span := ⟨1, 3⟩ }
  { files :=
      [.ofRecord "Outer.kt" (.kotlin (some "p") 1
        { types := [marker, outer, inner], callables := [run], calls := [⟨"run", none, 5, false⟩] }),
      .ofRecord "main.py" (.python "main" none { callables := [main] })] }

/-- The records of the two files are tidy. -/
theorem tidy_tidyFiles : ∀ f ∈ tidyFiles.files, ∀ record, f.built Language.all = .ok record →
    record.Tidy := by
  have hall : ∀ f ∈ tidyFiles.files, ∀ record ∈ f.record, record.Tidy := by decide +kernel
  intro f hf record hbuilt
  refine hall f hf record ?_
  -- The record that is built is the one that was read.
  unfold ParsedFile.built at hbuilt
  grind

/-- The records are tidy, so the schema agrees with every place that the build chose. -/
theorem reasons_of_plan_tidyFiles :
    (∀ f ∈ tidyFiles.files, ∀ record, f.built Language.all = .ok record → record.Tidy) ∧
      ∀ rel e, .relationship rel e ∈ Plan.reasons .standard (workingSet Language.all tidyFiles) →
        rel.kind ≠ .contains ∧ rel.kind ≠ .definesClass ∧ rel.kind ≠ .definesFunction :=
  ⟨tidy_tidyFiles, (reasons_of_plan Language.all tidyFiles).2.2.2 tidy_tidyFiles⟩

end CodeAtlas
