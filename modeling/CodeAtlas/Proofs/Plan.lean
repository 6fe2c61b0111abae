import CodeAtlas.Graph.Build
import CodeAtlas.Proofs.Resolution

/-!
# What a plan holds

A plan is made in two passes over a working set: the nodes that the schema accepts, and then the
relationships that it accepts between planned nodes. Both passes either take an entry or warn about it, so
each is a filter with a list of warnings beside it (`foldl_addNode`, `foldl_addRelationship`), and
`ofWorkingSet_eq` says what the plan of a working set is in one equation.

Two results are read off it, for all settings and all files:

* `wellFormed_build` — the statements of a build are well formed, and its report counts them exactly. Ids
  and keys are distinct since registers keep them so, and since a merge never changes an id; both ends of
  a relationship are planned since a plan looks its kinds up there;
* `warnings_account` — nothing is lost silently: every file, node and relationship that does not make it
  into the plan has its own warning. No relationship lacks an end to begin with (`closed_workingSet`).
-/

namespace CodeAtlas

/-! ### The passes of a plan -/

/-- Why a schema rejects a node. -/
def Schema.nodeWarning? (schema : Schema) (n : Node) : Option String :=
  match schema.checkNode n with
  | .ok _ => none
  | .error e => some e.message

namespace Plan

/-- The kind of the node with an id in a list. -/
def kindAmong? (nodes : List Node) (id : String) : Option NodeKind :=
  (nodes.find? fun n => n.id == id).map (·.kind)

/-- Why a relationship between planned nodes is not planned. -/
def relationshipWarning? (schema : Schema) (nodes : List Node) (r : Relationship) : Option String :=
  match kindAmong? nodes r.source, kindAmong? nodes r.target with
  | some source, some target =>
    match schema.checkRelationship r source target with
    | .ok _ => none
    | .error e => some e.message
  | _, _ => some (droppedMessage r)

/-- The nodes of a working set that a schema accepts. -/
def nodesOf (schema : Schema) (s : WorkingSet) : List Node :=
  s.nodes.entries.filter fun n => (schema.nodeWarning? n).isNone

/-- The relationships of a working set that a schema accepts between accepted nodes. -/
def relationshipsOf (schema : Schema) (s : WorkingSet) : List Relationship :=
  s.relationships.entries.filter fun r => (relationshipWarning? schema (nodesOf schema s) r).isNone

/-- A node is taken, or there is a warning about it. -/
theorem addNode_eq (schema : Schema) (p : Plan) (n : Node) :
    addNode schema p n =
      match schema.nodeWarning? n with
      | none => { p with nodes := p.nodes ++ [n] }
      | some m => { p with warnings := p.warnings ++ [m] } := by
  unfold addNode Schema.nodeWarning?
  cases schema.checkNode n with
  | ok _ => rfl
  | error e => rfl

/-- A relationship is taken, or there is a warning about it. -/
theorem addRelationship_eq (schema : Schema) (p : Plan) (r : Relationship) :
    addRelationship schema p r =
      match relationshipWarning? schema p.nodes r with
      | none => { p with relationships := p.relationships ++ [r] }
      | some m => { p with warnings := p.warnings ++ [m] } := by
  unfold addRelationship relationshipWarning?
  change (match kindAmong? p.nodes r.source, kindAmong? p.nodes r.target with
    | some source, some target => _
    | _, _ => _) = _
  -- An end that is not planned, a refusal of the schema, or neither.
  cases kindAmong? p.nodes r.source with
  | none => rfl
  | some source =>
    cases kindAmong? p.nodes r.target with
    | none => rfl
    | some target =>
      dsimp only
      cases schema.checkRelationship r source target with
      | ok _ => rfl
      | error e => rfl

/-- The first pass takes the nodes without a warning. -/
theorem foldl_addNode (schema : Schema) (l : List Node) (p : Plan) :
    l.foldl (addNode schema) p =
      { p with
        nodes := p.nodes ++ l.filter fun n => (schema.nodeWarning? n).isNone
        warnings := p.warnings ++ l.filterMap schema.nodeWarning? } := by
  induction l generalizing p with
  | nil => simp
  | cons n l ih =>
    rw [List.foldl_cons, ih, addNode_eq, List.filter_cons, List.filterMap_cons]
    cases schema.nodeWarning? n with
    | none => simp
    | some m => simp

/-- The second pass takes the relationships without a warning. It does not change the planned nodes, so
each relationship is judged by the same kinds. -/
theorem foldl_addRelationship (schema : Schema) (l : List Relationship) (p : Plan) :
    l.foldl (addRelationship schema) p =
      { p with
        relationships :=
          p.relationships ++ l.filter fun r => (relationshipWarning? schema p.nodes r).isNone
        warnings := p.warnings ++ l.filterMap (relationshipWarning? schema p.nodes) } := by
  induction l generalizing p with
  | nil => simp
  | cons r l ih =>
    rw [List.foldl_cons, ih, addRelationship_eq, List.filter_cons, List.filterMap_cons]
    -- Neither branch touches the planned nodes, so the next relationship meets the same ones.
    cases relationshipWarning? schema p.nodes r with
    | none => simp
    | some m => simp

/-- **The plan of a working set.** -/
theorem ofWorkingSet_eq (schema : Schema) (s : WorkingSet) :
    ofWorkingSet schema s =
      { nodes := nodesOf schema s
        relationships := relationshipsOf schema s
        warnings := s.warnings ++ s.nodes.entries.filterMap schema.nodeWarning?
          ++ s.relationships.entries.filterMap (relationshipWarning? schema (nodesOf schema s)) } := by
  unfold ofWorkingSet
  rw [foldl_addNode, foldl_addRelationship]
  simp [nodesOf, relationshipsOf]

/-- There is no warning exactly if the schema accepts the node. -/
theorem nodeWarning?_eq_none_iff {schema : Schema} {n : Node} :
    schema.nodeWarning? n = none ↔ schema.checkNode n = .ok () := by
  unfold Schema.nodeWarning?
  cases schema.checkNode n with
  | ok _ => simp
  | error e => simp

/-- The planned nodes are the accepted ones. -/
theorem mem_nodesOf {schema : Schema} {s : WorkingSet} {n : Node} :
    n ∈ nodesOf schema s ↔ n ∈ s.nodes.entries ∧ schema.checkNode n = .ok () := by
  unfold nodesOf
  rw [List.mem_filter, Option.isNone_iff_eq_none, nodeWarning?_eq_none_iff]

/-- A kind that is found is the kind of a node in the list. -/
theorem exists_of_kindAmong? {nodes : List Node} {id : String} {k : NodeKind}
    (h : kindAmong? nodes id = some k) : ∃ n ∈ nodes, n.id = id ∧ n.kind = k := by
  obtain ⟨n, hn, rfl⟩ := Option.map_eq_some_iff.1 h
  exact ⟨n, List.mem_of_find?_eq_some hn, by simpa using List.find?_some hn, rfl⟩

/-- A relationship without a warning connects nodes in the list, and the schema accepts it for the kinds
that these have. -/
theorem exists_of_relationshipWarning?_eq_none {schema : Schema} {nodes : List Node} {r : Relationship}
    (h : relationshipWarning? schema nodes r = none) :
    ∃ a ∈ nodes, ∃ b ∈ nodes, a.id = r.source ∧ b.id = r.target ∧
      schema.checkRelationship r a.kind b.kind = .ok () := by
  unfold relationshipWarning? at h
  split at h
  -- Both ends have kinds, so both are planned, and the schema was asked about them.
  · rename_i source target hs ht
    obtain ⟨a, ha, hai, rfl⟩ := exists_of_kindAmong? hs
    obtain ⟨b, hb, hbi, rfl⟩ := exists_of_kindAmong? ht
    refine ⟨a, ha, b, hb, hai, hbi, ?_⟩
    split at h
    · assumption
    · cases h
  · cases h

/-! ### Counts -/

/-- Each label adds one to the sum, whatever has been counted before. -/
theorem total_foldl_update (l : List String) (m : Keyed Nat) :
    (l.foldl (fun m l => m.update l 0 (· + 1)) m).total = m.total + l.length := by
  induction l generalizing m with
  | nil => rfl
  | cons a l ih =>
    have htotal := Keyed.total_insert m a ((m.get? a).getD 0 + 1)
    rw [List.foldl_cons, ih, List.length_cons]
    change (m.insert a ((m.get? a).getD 0 + 1)).total + _ = _
    omega

/-- Counting labels one by one counts them all. -/
theorem total_labelCounts (labels : List String) : (labelCounts labels).total = labels.length :=
  (total_foldl_update labels {}).trans (Nat.zero_add _)

end Plan

/-! ### Well-formed statements -/

namespace Statement

/-- The node that a statement merges. -/
def node? : Statement → Option Node
  | .mergeNode n => some n
  | .mergeRelationship _ => none

/-- The relationship that a statement merges. -/
def relationship? : Statement → Option Relationship
  | .mergeNode _ => none
  | .mergeRelationship r => some r

/-- **Statements that a store can apply one after the other.** -/
structure WellFormed (schema : Schema) (l : List Statement) : Prop where
  /-- No relationship comes before a node. -/
  nodesFirst : l.Pairwise fun a b => a.relationship?.isSome → b.relationship?.isSome
  distinctIds : ((l.filterMap node?).map (·.id)).Nodup
  distinctKeys : ((l.filterMap relationship?).map (·.key)).Nodup
  nodesAccepted : ∀ n, .mergeNode n ∈ l → schema.checkNode n = .ok ()
  /-- Both ends are merged by the same list, and the schema accepts the relationship for their kinds. -/
  relationshipsAccepted : ∀ r, .mergeRelationship r ∈ l →
    ∃ a b, .mergeNode a ∈ l ∧ .mergeNode b ∈ l ∧ a.id = r.source ∧ b.id = r.target ∧
      schema.checkRelationship r a.kind b.kind = .ok ()

end Statement

namespace Plan

variable (p : Plan)

/-- The nodes that statements merge are those of the plan. -/
theorem filterMap_node?_statements : p.statements.filterMap Statement.node? = p.nodes := by
  unfold statements
  rw [List.filterMap_append, List.filterMap_map, List.filterMap_map]
  change p.nodes.filterMap some ++ p.relationships.filterMap (fun _ => none) = p.nodes
  rw [List.filterMap_some, List.filterMap_none, List.append_nil]

theorem filterMap_relationship?_statements :
    p.statements.filterMap Statement.relationship? = p.relationships := by
  unfold statements
  rw [List.filterMap_append, List.filterMap_map, List.filterMap_map]
  change p.nodes.filterMap (fun _ => none) ++ p.relationships.filterMap some = p.relationships
  rw [List.filterMap_some, List.filterMap_none, List.nil_append]

theorem mergeNode_mem_statements {n : Node} : .mergeNode n ∈ p.statements ↔ n ∈ p.nodes := by
  unfold statements
  simp

theorem mergeRelationship_mem_statements {r : Relationship} :
    .mergeRelationship r ∈ p.statements ↔ r ∈ p.relationships := by
  unfold statements
  simp

/-- No relationship comes before a node. -/
theorem nodesFirst_statements :
    p.statements.Pairwise fun a b => a.relationship?.isSome → b.relationship?.isSome := by
  unfold statements
  rw [List.pairwise_append, List.pairwise_map, List.pairwise_map]
  refine ⟨List.pairwise_of_forall fun _ _ h => (nomatch h),
    List.pairwise_of_forall fun _ _ _ => rfl, ?_⟩
  intro a ha b hb _
  obtain ⟨r, -, rfl⟩ := List.mem_map.1 hb
  rfl

/-- **The statements of a plan are well formed**, whatever the working set. -/
theorem wellFormed_statements (schema : Schema) (s : WorkingSet) :
    Statement.WellFormed schema (ofWorkingSet schema s).statements where
  nodesFirst := nodesFirst_statements _
  distinctIds := by
    -- The planned nodes are part of a register, whose keys are distinct.
    rw [filterMap_node?_statements, ofWorkingSet_eq]
    exact s.nodes.distinct.sublist (List.filter_sublist.map _)
  distinctKeys := by
    rw [filterMap_relationship?_statements, ofWorkingSet_eq]
    exact s.relationships.distinct.sublist (List.filter_sublist.map _)
  nodesAccepted n hn := by
    rw [mergeNode_mem_statements, ofWorkingSet_eq] at hn
    exact (mem_nodesOf.1 hn).2
  relationshipsAccepted r hr := by
    rw [mergeRelationship_mem_statements, ofWorkingSet_eq] at hr
    -- A plan looks both ends up among its own nodes.
    obtain ⟨a, ha, b, hb, h⟩ := exists_of_relationshipWarning?_eq_none
      (Option.isNone_iff_eq_none.1 (List.mem_filter.1 hr).2)
    refine ⟨a, b, ?_, ?_, h⟩
    · rw [mergeNode_mem_statements, ofWorkingSet_eq]
      exact ha
    · rw [mergeNode_mem_statements, ofWorkingSet_eq]
      exact hb

end Plan

/-- **A report that counts its statements exactly**, in the form in which it is written out. -/
structure BuildReport.Exact (report : BuildReport) (l : List Statement) : Prop where
  createdNodes : ∀ listed, (report.toJson listed).field? "created_nodes"
    = some (Json.ofTexts ((l.filterMap Statement.node?).map (·.id)))
  nodesCreated : ∀ listed, (report.toJson listed).field? "nodes_created"
    = some (.int (l.filterMap Statement.node?).length)
  relationshipsCreated : ∀ listed, (report.toJson listed).field? "relationships_created"
    = some (.int (l.filterMap Statement.relationship?).length)
  statementCount : ∀ listed, (report.toJson listed).field? "statement_count" = some (.int l.length)
  /-- The numbers of nodes of each kind add up to the number of nodes. -/
  nodeTypes : ∃ m : Keyed Nat, m.total = (l.filterMap Statement.node?).length ∧
    ∀ listed, (report.toJson listed).field? "node_types" = some (BuildReport.countsJson m)
  /-- The numbers of relationships of each kind add up to the number of relationships. -/
  relationshipTypes : ∃ m : Keyed Nat, m.total = (l.filterMap Statement.relationship?).length ∧
    ∀ listed, (report.toJson listed).field? "relationship_types" = some (BuildReport.countsJson m)

/-- A report counts the statements of its plan. -/
theorem BuildReport.exact_statements (report : BuildReport) : report.Exact report.plan.statements where
  createdNodes listed := by
    rw [Plan.filterMap_node?_statements]
    rfl
  nodesCreated listed := by
    rw [Plan.filterMap_node?_statements]
    rfl
  relationshipsCreated listed := by
    rw [Plan.filterMap_relationship?_statements]
    rfl
  statementCount listed := rfl
  nodeTypes := by
    -- Each label was counted once for each of its nodes.
    refine ⟨report.plan.nodeCounts, ?_, fun listed => rfl⟩
    unfold Plan.nodeCounts
    rw [Plan.filterMap_node?_statements, Plan.total_labelCounts, List.length_map]
  relationshipTypes := by
    refine ⟨report.plan.relationshipCounts, ?_, fun listed => rfl⟩
    unfold Plan.relationshipCounts
    rw [Plan.filterMap_relationship?_statements, Plan.total_labelCounts, List.length_map]

/-- **The statements of a build are well formed and its report is exact.** -/
theorem wellFormed_build (settings : BuildSettings) (r : ParseResult) :
    Statement.WellFormed settings.schema (build settings r).plan.statements ∧
      (build settings r).Exact (build settings r).plan.statements :=
  ⟨Plan.wellFormed_statements settings.schema (workingSet settings.languages r),
    BuildReport.exact_statements _⟩

/-! ### Warnings -/

/-- Whether a file is not built. -/
def ParsedFile.isSkipped (f : ParsedFile) (languages : List Language) : Bool :=
  match f.built languages with
  | .error _ => true
  | .ok _ => false

/-- A file warns once if it is skipped, and never otherwise. -/
theorem ParsedFile.length_warnings_changes (f : ParsedFile) (languages : List Language) :
    ((f.changes languages).filterMap Change.warning?).length
      = if f.isSkipped languages then 1 else 0 := by
  unfold ParsedFile.changes ParsedFile.isSkipped
  cases f.built languages with
  | error skip => rfl
  | ok record =>
    -- What a record contributes is never a warning.
    have hnone : (f.site.recordChanges record).filterMap Change.warning? = [] := by
      rw [List.filterMap_eq_nil_iff]
      intro c hc
      have hw := FileSite.within_recordChanges (D := fun _ => True) f.known_site (fun _ _ => trivial) c hc
      cases c with
      | warning m => exact hw.elim
      | _ => rfl
    change ((f.site.recordChanges record).filterMap Change.warning?).length = _
    rw [hnone]
    rfl

/-- Resolving references adds no warnings. -/
theorem WorkingSet.warnings_resolvePending (s : WorkingSet) (languages : List Language) :
    (s.resolvePending languages).warnings = s.warnings := by
  refine WorkingSet.resolvePending_invariant (Q := fun t => t.warnings = s.warnings) rfl ?_
  intro t ht r _
  -- No answer to a reference is a warning.
  have hnone : (referenceChanges languages t r).filterMap Change.warning? = [] :=
    filterMap_referenceChanges _ (fun _ => rfl) (fun _ => rfl) (fun _ _ => rfl) languages r
  rw [warnings_applyAll, hnone, List.append_nil, ht]

/-- **A working set has one warning for each file that was skipped.** -/
theorem length_warnings_workingSet (languages : List Language) (r : ParseResult) :
    (workingSet languages r).warnings.length = r.files.countP (·.isSkipped languages) := by
  unfold workingSet
  rw [WorkingSet.warnings_resolvePending, foldl_addParsedFile, WorkingSet.warnings_applyAll]
  change ((r.files.flatMap (·.changes languages)).filterMap Change.warning?).length = _
  induction r.files with
  | nil => rfl
  | cons f files ih =>
    rw [List.flatMap_cons, List.filterMap_append, List.length_append, ih,
      ParsedFile.length_warnings_changes, List.countP_cons]
    exact Nat.add_comm _ _

/-- What warns and what does not are all there is. -/
theorem length_filterMap_add_filter {α β : Type} (f : α → Option β) (l : List α) :
    (l.filterMap f).length + (l.filter fun a => (f a).isNone).length = l.length := by
  rw [List.length_filterMap_eq_countP, ← List.countP_eq_length_filter,
    List.length_eq_countP_add_countP (p := fun a => (f a).isSome)]
  congr 1
  refine List.countP_congr fun a _ => ?_
  cases f a <;> simp

/-- **The number of warnings of a plan**: those of the working set and one for each entry that is not
planned. -/
theorem Plan.length_warnings (schema : Schema) (s : WorkingSet) :
    let p := ofWorkingSet schema s
    p.nodes.length ≤ s.nodes.size ∧ p.relationships.length ≤ s.relationships.size ∧
      p.warnings.length = s.warnings.length + (s.nodes.size - p.nodes.length)
        + (s.relationships.size - p.relationships.length) := by
  -- In both passes, the warnings and the planned entries add up to all entries.
  have hnodes := length_filterMap_add_filter schema.nodeWarning? s.nodes.entries
  have hrels := length_filterMap_add_filter (relationshipWarning? schema (nodesOf schema s))
    s.relationships.entries
  -- What is left is to add up.
  rw [ofWorkingSet_eq]
  simp only [List.length_append]
  unfold Register.size relationshipsOf
  change _ + (nodesOf schema s).length = _ at hnodes
  omega

/-- **A planned node has its kind in the plan and in the working set.** -/
theorem Plan.kind?_of_mem {schema : Schema} {s : WorkingSet} {n : Node}
    (h : n ∈ (ofWorkingSet schema s).nodes) :
    s.kind? n.id = some n.kind ∧ (ofWorkingSet schema s).kind? n.id = some n.kind := by
  rw [ofWorkingSet_eq] at h ⊢
  have hmem : ∀ {m : Node}, m ∈ nodesOf schema s → m ∈ s.nodes.entries := fun h => (mem_nodesOf.1 h).1
  constructor
  · unfold WorkingSet.kind? WorkingSet.node?
    rw [Register.get?_eq_some_iff.2 ⟨hmem h, rfl⟩]
    rfl
  · -- The node that is found has the same id, so it is the same node.
    cases hf : (nodesOf schema s).find? fun m => m.id == n.id with
    | none => simpa using List.find?_eq_none.1 hf n h
    | some m =>
      have hid : m.id = n.id := by simpa using List.find?_some hf
      obtain rfl := Register.eq_of_key_eq (hmem (List.mem_of_find?_eq_some hf)) (hmem h) hid
      change ((nodesOf schema s).find? _).map _ = _
      rw [hf]
      rfl

/-- **Nothing is lost silently.** Every relationship of the working set has both ends there, and there is
one warning for each file that is skipped, for each node that is not planned and for each relationship
that is not planned. A planned id always has a kind in the working set. -/
theorem warnings_account (settings : BuildSettings) (r : ParseResult) :
    let s := workingSet settings.languages r
    let p := plan settings r
    (∀ rel ∈ s.relationships.entries, rel.source ∈ s.nodes.keys ∧ rel.target ∈ s.nodes.keys) ∧
      p.nodes.length ≤ s.nodes.size ∧ p.relationships.length ≤ s.relationships.size ∧
      p.warnings.length = r.files.countP (·.isSkipped settings.languages)
        + (s.nodes.size - p.nodes.length) + (s.relationships.size - p.relationships.length) ∧
      ∀ id ∈ p.nodes.map (·.id), (s.kind? id).isSome ∧ s.kind? id = p.kind? id := by
  intro s p
  obtain ⟨hnodes, hrels, hwarnings⟩ := Plan.length_warnings settings.schema s
  refine ⟨fun rel hrel => ?_, hnodes, hrels, ?_, fun id hid => ?_⟩
  -- A whole build is closed, so no relationship of it ends at an id without a node.
  · have hclosed := closed_workingSet settings.languages r (.relationship rel) hrel
    exact ⟨hclosed _ List.mem_cons_self, hclosed _ (List.mem_cons_of_mem _ List.mem_cons_self)⟩
  · rw [← length_warnings_workingSet]
    exact hwarnings
  · obtain ⟨n, hn, rfl⟩ := List.mem_map.1 hid
    obtain ⟨hs, hp⟩ := Plan.kind?_of_mem hn
    exact ⟨Option.isSome_iff_exists.2 ⟨n.kind, hs⟩, hs.trans hp.symm⟩

end CodeAtlas
