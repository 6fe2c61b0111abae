import CodeAtlas.Proofs.Batch
import CodeAtlas.Proofs.Provenance

/-!
# Indexing a project again

Applying the statements of a plan to a store a second time changes nothing (`reindexing_idempotent`),
whatever the store held before the first time. A single statement is idempotent by what merging is, but
that says little about a batch: a later statement might take back what an earlier one set, a relationship
might find its ends only the second time, and a statement that is refused stops everything.

* No statement of a build is refused. A store wants the names of properties to be identifiers, and all
  names that a build sets are (`named_workingSet`, `named_relationships_workingSet`).
* So what a batch leaves behind is known exactly (`applyAll_plan`): each planned node is written over the
  stored node of its id, each planned relationship over the stored edge of its key, and both ends of every
  relationship are there by then.
* Ids and keys of a plan are distinct, so no two statements meet in one entry. In a second round each entry
  meets what it left behind in the first one (`written_written`).

What is written is also said field by field (`Writes`), since a store that ignores every statement would be
idempotent as well.
-/

namespace CodeAtlas

/-! ### Names of properties -/

/-- **All names of a map are identifiers of the query language.** -/
def Keyed.Named {α : Type} (m : Keyed α) : Prop :=
  ∀ k ∈ m.keys, isFieldName k = true

theorem Keyed.named_empty {α : Type} : (empty : Keyed α).Named :=
  fun _ hk => nomatch hk

/-- One more identifier may be added. -/
theorem Keyed.Named.insert {α : Type} {m : Keyed α} (h : m.Named) {k : String}
    (hk : isFieldName k = true) (v : α) : (m.insert k v).Named := by
  intro j hj
  rw [mem_keys_iff, get?_insert] at hj
  split at hj
  · rename_i hjk
    exact hjk ▸ hk
  · exact h j (mem_keys_iff.2 hj)

namespace Node

variable {n : Node}

/-- The properties of a made node have identifiers for names. -/
theorem Made.named {path : String} (h : n.Made path) : n.properties.Named := by
  induction h with
  | withId id kind qualified name line => exact Keyed.named_empty.insert (by decide) _
  | set v hk _ ih => exact ih.insert (isDeclaredField_iff.1 hk).1 v

theorem named_stub (kind : NodeKind) (name : String) : (stub kind name).properties.Named :=
  (Keyed.named_empty.insert (by decide) _).insert (by decide) _

/-- Filling gaps takes names from both sides, and only from them. -/
theorem named_fillProperties {a b : Properties} (ha : a.Named) (hb : b.Named) :
    (fillProperties a b).Named := by
  intro k hk
  rw [Keyed.mem_keys_iff, get?_fillProperties, Option.isSome_or, Bool.or_eq_true] at hk
  rcases hk with hk | hk
  · exact ha k (Keyed.mem_keys_iff.2 hk)
  · exact hb k (Keyed.mem_keys_iff.2 hk)

/-- Merging brings no other names in. -/
theorem named_mergeFrom {a b : Node} (ha : a.properties.Named) (hb : b.properties.Named) :
    (a.mergeFrom b).properties.Named := by
  -- Taking the mark of stand-ins away adds no name.
  have herase : (a.properties.erase "stub").Named := by
    intro k hk
    rw [Keyed.mem_keys_iff, Keyed.get?_erase] at hk
    split at hk
    · cases hk
    · exact ha k (Keyed.mem_keys_iff.2 hk)
  unfold mergeFrom
  split
  · exact named_fillProperties hb herase
  · exact named_fillProperties ha hb

/-- The fields of a node have accepted names as soon as its properties do. -/
theorem isFieldName_of_mem_fields (h : n.properties.Named) : ∀ e ∈ n.fields, isFieldName e.1 = true := by
  have hcore : ∀ k ∈ ["name", "file_path", "node_type", "line_number"], isFieldName k = true := by
    decide
  intro e he
  rcases mem_fields he with he | he
  · exact hcore e.1 he
  · exact h e.1 he

end Node

/-- **Every node of a build has properties with accepted names.** -/
theorem named_workingSet (languages : List Language) (r : ParseResult) :
    ∀ n ∈ (workingSet languages r).nodes.entries, n.properties.Named := by
  refine forall_nodes_workingSet (fun a b => Node.named_mergeFrom) ?_ Node.named_stub
  intro n hn
  obtain ⟨f, -, hmade⟩ := hn.made
  exact hmade.named

/-- Links of records have no properties. -/
theorem FileSite.properties_recordLinks (f : FileSite) (r : SourceRecord) :
    ∀ rel ∈ f.recordLinks r, rel.properties = Keyed.empty := by
  have hlink : ∀ (f : FileSite) owner child c, (f.link owner child c).properties = Keyed.empty := by
    intro f owner child c
    unfold link topLevelLink
    split
    · rfl
    · split <;> rfl
  intro rel hrel
  unfold recordLinks at hrel
  simp only [List.mem_append, List.mem_map, List.mem_flatMap] at hrel
  -- The links of the scope, the imports, the types, the callables and the fields.
  rcases hrel with (((⟨e, -, rfl⟩ | ⟨d, -, rfl⟩) | ⟨d, -, hd⟩) | ⟨d, -, rfl⟩) | ⟨d, -, rfl⟩
  · rfl
  · rfl
  · obtain ⟨t, -, rfl⟩ := List.mem_map.1 hd
    exact hlink _ _ _ _
  · exact hlink _ _ _ _
  · exact hlink _ _ _ _

/-- What an answer says about a relationship stands under accepted names. -/
theorem WorkingSet.named_referenceChanges {s : WorkingSet} (languages : List Language) {r : Reference}
    {rel : Relationship} (h : Change.relationship rel ∈ referenceChanges languages s r) :
    rel.properties.Named := by
  have hrel := relates_of_mem h
  cases r with
  -- Calls and imports say where they stand.
  | call caller callee qualifier line =>
    obtain ⟨target, rfl⟩ := hrel
    exact Keyed.named_empty.insert (by decide) _
  | importing file l i line statement =>
    obtain ⟨source, target, rfl⟩ := hrel
    exact (Keyed.named_empty.insert (by decide) _).insert (by decide) _
  | supertype source name clause =>
    obtain ⟨ns, verb, -, target, rfl⟩ := hrel
    exact Keyed.named_empty
  | _ =>
    obtain ⟨_, _, rfl⟩ := hrel
    exact Keyed.named_empty

/-- **Every relationship of a build has properties with accepted names.** -/
theorem named_relationships_workingSet (languages : List Language) (r : ParseResult) :
    ∀ rel ∈ (workingSet languages r).relationships.entries, rel.properties.Named := by
  refine forall_relationships_workingSet ?_ fun t ref rel hrel =>
    WorkingSet.named_referenceChanges languages hrel
  intro f _ record _ rel hrel
  rw [f.site.properties_recordLinks record rel hrel]
  exact Keyed.named_empty

/-- Fields with accepted names are stored. -/
theorem checkedFields_eq_ok {fields : List (String × Property)}
    (h : ∀ e ∈ fields, isFieldName e.1 = true) : checkedFields fields = .ok (storedFields fields) := by
  have hfind : (fields.find? fun e => !isFieldName e.1) = none :=
    List.find?_eq_none.2 fun e he => by rw [h e he]; decide
  unfold checkedFields
  rw [hfind]

/-! ### Writing over what is there -/

/-- What a field has after others are written over it. -/
theorem get?_overwrite (m n : Properties) (k : String) :
    (overwrite m n.entries).get? k = (n.get? k).or (m.get? k) := by
  unfold overwrite
  rw [Keyed.get?_foldl_insert, Keyed.lookup_reverse_entries]

/-- A map that is written over itself stays as it is. -/
theorem overwrite_self (m : Properties) : overwrite m m.entries = m := by
  refine Keyed.ext_get? fun k => ?_
  rw [get?_overwrite, Option.or_self]

/-- A stored node with the fields of another one written over its own. -/
def StoredNode.overwrittenBy (a b : StoredNode) : StoredNode :=
  { a with fields := overwrite a.fields b.fields.entries }

theorem StoredNode.id_overwrittenBy (a b : StoredNode) (_ : a.id = b.id) :
    (a.overwrittenBy b).id = a.id := rfl

/-- A stored edge with the fields of another one written over its own. -/
def StoredEdge.overwrittenBy (a b : StoredEdge) : StoredEdge :=
  { a with fields := overwrite a.fields b.fields.entries }

theorem StoredEdge.key_overwrittenBy (a b : StoredEdge) (_ : a.key = b.key) :
    (a.overwrittenBy b).key = a.key := rfl

namespace StoredGraph

variable {g h : StoredGraph} {p : Plan}

/-- The graph with nodes written over those that it has. -/
def writeNodes (g : StoredGraph) (nodes : List Node) : StoredGraph :=
  { g with
    nodes := g.nodes.upsertAll StoredNode.overwrittenBy StoredNode.id_overwrittenBy
      (nodes.map Node.stored) }

/-- The graph with relationships written over the edges that it has. -/
def writeEdges (g : StoredGraph) (rels : List Relationship) : StoredGraph :=
  { g with
    edges := g.edges.upsertAll StoredEdge.overwrittenBy StoredEdge.key_overwrittenBy
      (rels.map Relationship.stored) }

/-- **The graph with all that a plan holds written over it.** -/
def written (g : StoredGraph) (p : Plan) : StoredGraph :=
  (g.writeNodes p.nodes).writeEdges p.relationships

/-- The nodes of a batch are written one after the other, and none is refused. -/
theorem applyAll_mergeNodes_eq {nodes : List Node} (hn : ∀ n ∈ nodes, n.properties.Named) :
    g.applyAll (nodes.map .mergeNode) = .ok (g.writeNodes nodes) := by
  induction nodes generalizing g with
  | nil => rfl
  | cons n nodes ih =>
    -- The names of the properties are field names, so the statement passes the check.
    have hfirst : g.apply (.mergeNode n) = .ok (g.writeNodes [n]) := by
      unfold apply
      dsimp only
      rw [checkedFields_eq_ok (Node.isFieldName_of_mem_fields (hn n List.mem_cons_self))]
      rfl
    rw [List.map_cons, applyAll, hfirst]
    exact ih fun m hm => hn m (List.mem_cons_of_mem n hm)

/-- So are the relationships, as long as both ends are there. -/
theorem applyAll_mergeRelationships_eq {rels : List Relationship}
    (hr : ∀ r ∈ rels, r.properties.Named)
    (hends : ∀ r ∈ rels, r.source ∈ g.nodes.keys ∧ r.target ∈ g.nodes.keys) :
    g.applyAll (rels.map .mergeRelationship) = .ok (g.writeEdges rels) := by
  induction rels generalizing g with
  | nil => rfl
  | cons r rels ih =>
    have hfields : checkedFields r.properties.entries = .ok (storedFields r.properties.entries) :=
      checkedFields_eq_ok fun e he => hr r List.mem_cons_self e.1 (List.mem_map_of_mem he)
    have hboth : (g.hasNode r.source && g.hasNode r.target) = true := by
      unfold hasNode Register.contains
      rw [decide_eq_true (hends r List.mem_cons_self).1, decide_eq_true (hends r List.mem_cons_self).2]
      rfl
    have hfirst : g.apply (.mergeRelationship r) = .ok (g.writeEdges [r]) := by
      unfold apply
      dsimp only
      rw [hfields]
      change Except.ok (g.mergeEdge _ _ _ _) = _
      unfold mergeEdge
      rw [if_pos hboth]
      rfl
    rw [List.map_cons, applyAll, hfirst]
    -- An edge changes nothing about the nodes, so the other ends are still there.
    exact ih (fun q hq => hr q (List.mem_cons_of_mem r hq)) fun q hq => hends q (List.mem_cons_of_mem r hq)

/-- **The statements of a plan write the plan**, if their names are accepted. -/
theorem applyAll_statements {schema : Schema} (hp : Statement.WellFormed schema p.statements)
    (hn : ∀ n ∈ p.nodes, n.properties.Named) (hr : ∀ r ∈ p.relationships, r.properties.Named) :
    g.applyAll p.statements = .ok (g.written p) := by
  -- Both ends of a relationship are planned, and all planned nodes are there by then.
  have hplanned : ∀ n ∈ p.nodes, n.id ∈ (g.written p).nodes.keys := fun n hn =>
    Register.mem_keys_upsertAll.2 (.inr ⟨n.stored, List.mem_map_of_mem hn, rfl⟩)
  have hends : ∀ r ∈ p.relationships,
      r.source ∈ (g.written p).nodes.keys ∧ r.target ∈ (g.written p).nodes.keys := by
    intro r hmem
    obtain ⟨a, b, ha, hb, has, hbt, -⟩ :=
      hp.relationshipsAccepted r ((Plan.mergeRelationship_mem_statements p).2 hmem)
    rw [Plan.mergeNode_mem_statements] at ha hb
    exact ⟨has ▸ hplanned a ha, hbt ▸ hplanned b hb⟩
  exact applyAll_append_eq_ok.2 ⟨g.writeNodes p.nodes, applyAll_mergeNodes_eq hn,
    applyAll_mergeRelationships_eq hr hends⟩

/-- **The statements of a build write its plan**, into whatever graph. -/
theorem applyAll_plan (settings : BuildSettings) (r : ParseResult) (g : StoredGraph) :
    g.applyAll (plan settings r).statements = .ok (g.written (plan settings r)) := by
  have hwell : Statement.WellFormed settings.schema (plan settings r).statements :=
    Plan.wellFormed_statements settings.schema (workingSet settings.languages r)
  refine applyAll_statements hwell ?_ ?_
  -- What is planned comes from a build, and there all properties have proper names.
  · intro n hn
    unfold plan at hn
    rw [Plan.ofWorkingSet_eq] at hn
    exact named_workingSet settings.languages r n (Plan.mem_nodesOf.1 hn).1
  · intro rel hrel
    unfold plan at hrel
    rw [Plan.ofWorkingSet_eq] at hrel
    exact named_relationships_workingSet settings.languages r rel (List.mem_filter.1 hrel).1

/-! ### Writing twice -/

/-- The ids of a plan are distinct in the store as well. -/
theorem nodup_stored_ids {schema : Schema} (hp : Statement.WellFormed schema p.statements) :
    ((p.nodes.map Node.stored).map StoredNode.id).Nodup := by
  have hids := hp.distinctIds
  rw [Plan.filterMap_node?_statements] at hids
  rw [List.map_map]
  exact hids

theorem nodup_stored_edges {schema : Schema} (hp : Statement.WellFormed schema p.statements) :
    ((p.relationships.map Relationship.stored).map StoredEdge.key).Nodup := by
  have hkeys := hp.distinctKeys
  rw [Plan.filterMap_relationship?_statements] at hkeys
  rw [List.map_map]
  exact nodup_stored_keys hkeys

/-- Nodes that are written again change nothing. -/
theorem writeNodes_twice {nodes : List Node} (hd : ((nodes.map Node.stored).map StoredNode.id).Nodup) :
    (g.writeNodes nodes).writeNodes nodes = g.writeNodes nodes := by
  refine congrArg (StoredGraph.mk · g.edges) (Register.upsertAll_twice hd ?_ ?_)
  · intro a _
    unfold StoredNode.overwrittenBy
    rw [overwrite_self]
  · intro a _ b
    exact congrArg (StoredNode.mk b.id) (Keyed.foldl_insert_twice a.fields.entries b.fields)

/-- Neither do relationships. -/
theorem writeEdges_twice {rels : List Relationship}
    (hd : ((rels.map Relationship.stored).map StoredEdge.key).Nodup) :
    (g.writeEdges rels).writeEdges rels = g.writeEdges rels := by
  refine congrArg (StoredGraph.mk g.nodes) (Register.upsertAll_twice hd ?_ ?_)
  · intro a _
    unfold StoredEdge.overwrittenBy
    rw [overwrite_self]
  · intro a _ b
    exact congrArg (StoredEdge.mk b.source b.target b.label)
      (Keyed.foldl_insert_twice a.fields.entries b.fields)

/-- **Writing a plan a second time changes nothing.** -/
theorem written_written {schema : Schema} (hp : Statement.WellFormed schema p.statements) :
    (g.written p).written p = g.written p := by
  -- Nodes and edges are kept apart, so each side is written twice on its own.
  calc (g.written p).written p
      = (((g.writeNodes p.nodes).writeNodes p.nodes).writeEdges p.relationships).writeEdges
          p.relationships := rfl
    _ = ((g.writeNodes p.nodes).writeEdges p.relationships).writeEdges p.relationships := by
      rw [writeNodes_twice (nodup_stored_ids hp)]
    _ = g.written p := writeEdges_twice (nodup_stored_edges hp)

/-- **What a graph holds once a plan has been written over another one**: each planned node and each planned
relationship with all its fields, over the fields that were there; and nothing else is touched. -/
structure Writes (p : Plan) (g h : StoredGraph) : Prop where
  node : ∀ n ∈ p.nodes, ∃ a, h.nodes.get? n.id = some a ∧
    ∀ k, a.fields.get? k = (n.stored.fields.get? k).or
      ((g.nodes.get? n.id).bind fun b => b.fields.get? k)
  otherNode : ∀ id, (∀ n ∈ p.nodes, n.id ≠ id) → h.nodes.get? id = g.nodes.get? id
  edge : ∀ r ∈ p.relationships, ∃ a, h.edges.get? r.stored.key = some a ∧
    ∀ k, a.fields.get? k = (r.stored.fields.get? k).or
      ((g.edges.get? r.stored.key).bind fun b => b.fields.get? k)
  otherEdge : ∀ key, (∀ r ∈ p.relationships, r.stored.key ≠ key) → h.edges.get? key = g.edges.get? key

/-- A written plan can be read back. -/
theorem writes_written {schema : Schema} (hp : Statement.WellFormed schema p.statements) :
    Writes p g (g.written p) where
  node n hn := by
    -- The edges are written behind the nodes and leave them as they are.
    refine ⟨_, Register.get?_upsertAll_of_mem (nodup_stored_ids hp) (List.mem_map_of_mem hn), ?_⟩
    intro k
    change (((g.nodes.get? n.id).elim n.stored _).fields).get? k = _
    cases g.nodes.get? n.id with
    | none => exact Option.or_none.symm
    | some b => exact get?_overwrite b.fields n.stored.fields k
  otherNode id hid := by
    refine Register.get?_upsertAll_of_notMem fun a ha => ?_
    obtain ⟨n, hn, rfl⟩ := List.mem_map.1 ha
    exact hid n hn
  edge r hr := by
    refine ⟨_, Register.get?_upsertAll_of_mem (nodup_stored_edges hp) (List.mem_map_of_mem hr), ?_⟩
    intro k
    change (((g.edges.get? r.stored.key).elim r.stored _).fields).get? k = _
    cases g.edges.get? r.stored.key with
    | none => exact Option.or_none.symm
    | some b => exact get?_overwrite b.fields r.stored.fields k
  otherEdge key hkey := by
    refine Register.get?_upsertAll_of_notMem fun a ha => ?_
    obtain ⟨r, hr, rfl⟩ := List.mem_map.1 ha
    exact hkey r hr

end StoredGraph

/-! ### Batches that nothing befalls -/

namespace Connection

/-- Statements that can be applied are applied to the open transaction. -/
theorem applyAll_of_applyAll {batch : List Statement} {g x y : StoredGraph}
    (h : x.applyAll batch = .ok y) :
    applyAll batch { committed := g, pending := some x }
      = (.ok (), { committed := g, pending := some y }) := by
  -- Along the batch. Without faults, each statement acts on the pending graph as on any graph.
  induction batch generalizing x with
  | nil =>
    obtain rfl := Except.ok.inj h
    rfl
  | cons s batch ih =>
    obtain ⟨z, hz, hrest⟩ := StoredGraph.applyAll_cons_eq_ok.1 h
    have hs : apply s { committed := g, pending := some x }
        = (.ok (), { committed := g, pending := some z }) := by
      unfold apply command nextFault current
      dsimp only [Option.getD_some]
      rw [hz]
      rfl
    rw [applyAll, hs]
    exact ih hrest

/-- **A batch that nothing befalls is applied and committed.** -/
theorem executeBatch_of_applyAll {batch : List Statement} {g h : StoredGraph}
    (ha : g.applyAll batch = .ok h) :
    executeBatch batch { committed := g } = (.ok batch.length, { committed := h }) := by
  cases batch with
  | nil =>
    obtain rfl := Except.ok.inj ha
    rfl
  | cons s batch =>
    -- With no fault due, a batch takes three commands: to begin, to apply and to commit.
    have hstart : start { committed := g } = (.ok (), { committed := g, pending := some g }) := rfl
    have hcommit : commit { committed := g, pending := some h } = (.ok (), { committed := h }) := rfl
    unfold executeBatch transaction
    rw [if_neg (by simp), hstart]
    dsimp only
    rw [applyAll_of_applyAll ha]
    dsimp only
    rw [hcommit]

end Connection

/-- **Indexing a project again changes nothing.** Into whatever graph a build is written, its batch is
applied as a whole; applied a second time it is accepted again and leaves the same graph behind, and so does
an attempt that is interrupted. What the graph then holds is the plan written over the graph that was there
before. -/
theorem reindexing_idempotent (settings : BuildSettings) (r : ParseResult) (g : StoredGraph) :
    let batch := (plan settings r).statements
    ∃ h : StoredGraph,
      Connection.executeBatch batch { committed := g } = (.ok batch.length, { committed := h }) ∧
      Connection.executeBatch batch { committed := h } = (.ok batch.length, { committed := h }) ∧
      (∀ faults, (Connection.executeBatch batch { committed := h, faults }).2.committed = h) ∧
      StoredGraph.Writes (plan settings r) g h := by
  intro batch
  have hwell : Statement.WellFormed settings.schema (plan settings r).statements :=
    Plan.wellFormed_statements settings.schema (workingSet settings.languages r)
  have honce : g.applyAll batch = .ok (g.written (plan settings r)) :=
    StoredGraph.applyAll_plan settings r g
  have htwice : (g.written (plan settings r)).applyAll batch = .ok (g.written (plan settings r)) := by
    rw [StoredGraph.applyAll_plan settings r, StoredGraph.written_written hwell]
  refine ⟨g.written (plan settings r), Connection.executeBatch_of_applyAll honce,
    Connection.executeBatch_of_applyAll htwice, fun faults => ?_, StoredGraph.writes_written hwell⟩
  -- An attempt is applied as a whole, which changes nothing, or not at all.
  rcases Connection.executeBatch_cases
      (c := { committed := g.written (plan settings r), faults }) batch rfl with
    ⟨d, hd, happlied, -⟩ | ⟨e, d, hd, hkept, -⟩
  · rw [hd]
    exact (Except.ok.inj (htwice.symm.trans happlied)).symm
  · rw [hd]
    exact hkept

end CodeAtlas
