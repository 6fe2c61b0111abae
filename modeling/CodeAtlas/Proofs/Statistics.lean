import CodeAtlas.Store.Request
import CodeAtlas.Proofs.Batch
import CodeAtlas.Proofs.Provenance

/-!
# The statistics of a build

A build counts what it plans, a store keeps it in its own form, and the statistics of a project are counted
again from the rows that a store gives back. The two counts agree (`statistics_of_buildInto`), although
nothing passes between them in the same form: labels are fields of stored nodes, some labels of edges are
stored under another name, and a stand-in is known by a field.

The way goes from the back to the front. The rows of the two queries are read off the stored entries
(`rows_nodeSelection`, `rows_edgeSelection`), the stored entries off the plan (`StoredGraph.entries_of_applyAll`),
and what a column of a row says is traced to the node or the relationship that was planned (`text_nodeRow`,
`flag_nodeRow`, `text_edgeRow`). For stand-ins this needs that no node has a field `stub` with another
value than true, which is an invariant of builds (`marked_workingSet`).
-/

namespace CodeAtlas

/-! ### Marks of stand-ins -/

namespace Node

/-- The property by which stand-ins are known. -/
def mark? (n : Node) : Option Property :=
  n.properties.get? "stub"

/-- **A node is marked as a stand-in or not at all.** -/
def Marked (n : Node) : Prop :=
  n.mark? = none ∨ n.mark? = some (.flag true)

/-- A stand-in is marked. -/
theorem marked_stub (kind : NodeKind) (name : String) : (stub kind name).Marked := by
  refine .inr ?_
  unfold mark? stub set
  rw [Keyed.get?_insert, if_pos rfl]

/-- Merging gives no other marks. -/
theorem Marked.mergeFrom {a b : Node} (ha : a.Marked) (hb : b.Marked) : (a.mergeFrom b).Marked := by
  unfold Marked mark? at ha hb ⊢
  unfold Node.mergeFrom
  split
  · -- A real declaration does not take the mark over.
    dsimp only
    rw [get?_fillProperties, Keyed.get?_erase, if_pos rfl, Option.or_none]
    exact hb
  · dsimp only
    rw [get?_fillProperties]
    -- The mark that was there stays, and without one the mark of the other node is taken.
    rcases ha with ha | ha
    · rw [ha, Option.none_or]
      exact hb
    · rw [ha]
      exact .inr rfl

end Node

/-- **Every node of a build is marked as a stand-in or not at all.** -/
theorem marked_workingSet (languages : List Language) (r : ParseResult) :
    ∀ n ∈ (workingSet languages r).nodes.entries, n.Marked := by
  refine forall_nodes_workingSet (fun a b ha hb => ha.mergeFrom hb) ?_ Node.marked_stub
  intro n hn
  obtain ⟨f, -, hmade⟩ := hn.made
  exact .inl hmade.get?_stub

/-! ### Fields of stored nodes -/

/-- A field is stored under its name. -/
theorem lookup_storedFields (l : List (String × Property)) (k : String) :
    (storedFields l).lookup k = (l.lookup k).map Property.stored := by
  -- Entry by entry: the one that is looked up is stored, and the others are passed over.
  induction l with
  | nil => rfl
  | cons e l ih =>
    unfold storedFields at ih ⊢
    by_cases hk : k = e.1
    · subst hk
      rw [List.map_cons, List.lookup_cons_self, List.lookup_cons_self]
      rfl
    · rw [List.map_cons, Keyed.lookup_cons_of_ne (e := (e.1, e.2.stored)) hk,
        Keyed.lookup_cons_of_ne hk, ih]

/-- The value of a field once all are written. -/
theorem get?_overwrite_empty (l : List (String × Property)) (k : String) :
    (overwrite ∅ (storedFields l)).get? k = (l.reverse.lookup k).map Property.stored := by
  have hreverse : (storedFields l).reverse = storedFields l.reverse := List.map_reverse.symm
  unfold overwrite
  rw [Keyed.get?_foldl_insert, hreverse, lookup_storedFields]
  exact Option.or_none

theorem flattened_append (a b : String) : flattened (a ++ b) = flattened a ++ flattened b := by
  unfold flattened
  rw [String.toList_append, List.map_append, String.ofList_append]

/-- Labels are stored as they are. -/
theorem flattened_label (k : NodeKind) : flattened k.label = k.label := by
  have hname : ∀ c ∈ Category.all, flattened c.name = c.name := by decide +kernel
  have hhead : flattened k.space.labelHead = k.space.labelHead := by
    cases k.space <;> decide +kernel
  unfold NodeKind.label
  rw [flattened_append, hhead, hname k.category (Category.mem_all k.category)]

namespace Node

/-- The core fields of a node with their values. -/
def coreValues (n : Node) : List (String × Property) :=
  [("name", .text n.name), ("file_path", .text n.path), ("node_type", .text n.kind.label)]
    ++ n.line.toList.map fun l => ("line_number", Property.ofNat l)

/-- **A stored field of a node** is one of its properties, or a core field if it is named like one. -/
theorem get?_stored (n : Node) (k : String) :
    n.stored.fields.get? k =
      ((if coreFields.contains k then none else n.properties.get? k).or
        (n.coreValues.reverse.lookup k)).map Property.stored := by
  -- Properties are written last, except those that are named like core fields.
  have hproperties : (n.properties.entries.filter fun e => !coreFields.contains e.1).reverse.lookup k
      = if coreFields.contains k then none else n.properties.get? k := by
    have hrestrict := Keyed.get?_restrict (q := fun k => !coreFields.contains k) n.properties k
    have hlookup := Keyed.lookup_reverse_entries
      (n.properties.restrict fun k => !coreFields.contains k) k
    rw [hrestrict] at hlookup
    refine hlookup.trans ?_
    cases coreFields.contains k <;> rfl
  have hfields : n.fields
      = n.coreValues ++ n.properties.entries.filter fun e => !coreFields.contains e.1 := rfl
  unfold stored
  rw [hfields, get?_overwrite_empty, List.reverse_append, List.lookup_append, hproperties]

/-- The label of a node is one of its stored fields. -/
theorem get?_stored_node_type (n : Node) :
    n.stored.fields.get? "node_type" = some (.text n.kind.label) := by
  have hcore : n.coreValues.reverse.lookup "node_type" = some (.text n.kind.label) := by
    unfold coreValues
    cases n.line with
    | none => rfl
    | some l => rfl
  rw [get?_stored, if_pos (by decide), Option.none_or, hcore]
  exact congrArg (fun s => some (Property.text s)) (flattened_label n.kind)

/-- The mark of a stand-in is one of its stored fields. -/
theorem get?_stored_stub (n : Node) : n.stored.fields.get? "stub" = n.mark?.map Property.stored := by
  have hcore : n.coreValues.reverse.lookup "stub" = none := by
    unfold coreValues
    cases n.line with
    | none => rfl
    | some l => rfl
  rw [get?_stored, if_neg (by decide), hcore, Option.or_none]
  rfl

end Node

/-! ### Rows of the statistics -/

namespace Request

/-- The query for the nodes of a graph. -/
def nodeSelection : Selection :=
  { shape := .node "n" none
    columns := [column "n" "node_type" "type", column "n" "language" "language",
      column "n" "stub" "stub"] }

/-- The query for the edges of a graph. -/
def edgeSelection : Selection :=
  { shape := .edge "a" "r" "b" none, columns := [⟨.label "r", "type"⟩] }

/-- The statistics are counted from two queries. -/
theorem inquiry_statistics :
    inquiry .statistics = .two nodeSelection edgeSelection fun nodes edges =>
      [statisticsOf nodes edges] := rfl

/-- The row of a stored node. -/
def nodeRow (n : StoredNode) : Row :=
  nodeSelection.row [("n", .node n)]

/-- The row of a stored edge. It says nothing of its ends. -/
def edgeRow (e : StoredEdge) : Row :=
  Keyed.ofList [("type", .str e.label)]

/-- **There is one row for each stored node**, if a query asks for all of them. -/
theorem rows_allNodes (g : StoredGraph) {q : Selection} (hshape : q.shape = .node "n" none)
    (hcondition : q.condition = none) (hnames : hidesName q.columns = false) :
    g.rows (.select q) = .ok (g.nodes.entries.map fun n => q.row [("n", .node n)]) := by
  -- Without a label and without a condition, every stored node is matched.
  have hmatched : g.matched q.shape = g.nodes.entries.map fun n => [("n", .node n)] := by
    rw [hshape]
    change (g.nodes.entries.filter fun _ => true).map _ = _
    rw [List.filter_true]
  unfold StoredGraph.rows
  dsimp only
  rw [if_neg (by rw [hnames]; decide), hmatched, hcondition]
  change Except.ok (((g.nodes.entries.map fun n => [("n", Matched.node n)]).filter fun _ => true).map _) = _
  rw [List.filter_true, List.map_map]
  rfl

/-- The first query gives a row for each stored node. -/
theorem rows_nodeSelection (g : StoredGraph) :
    g.rows (.select nodeSelection) = .ok (g.nodes.entries.map nodeRow) :=
  rows_allNodes g rfl rfl (by decide)

/-- **There is one row for each stored edge**, if the ends of all edges are there. -/
theorem rows_edgeSelection {g : StoredGraph}
    (h : ∀ e ∈ g.edges.entries, e.source ∈ g.nodes.keys ∧ e.target ∈ g.nodes.keys) :
    g.rows (.select edgeSelection) = .ok (g.edges.entries.map edgeRow) := by
  have hnames : hidesName edgeSelection.columns = false := by decide
  -- Each edge is matched once, and its row is the same whatever its ends are.
  have hmatched : (g.matched edgeSelection.shape).map edgeSelection.row
      = g.edges.entries.map edgeRow := by
    change ((g.edges.entries.filter fun _ => true).filterMap _).map _ = _
    rw [List.filter_true, List.map_filterMap, ← List.filterMap_eq_map]
    refine List.filterMap_congr fun e he => ?_
    obtain ⟨hs, ht⟩ := h e he
    obtain ⟨a, ha⟩ := Option.isSome_iff_exists.1 (Register.isSome_get?_iff.2 hs)
    obtain ⟨b, hb⟩ := Option.isSome_iff_exists.1 (Register.isSome_get?_iff.2 ht)
    rw [ha, hb]
    rfl
  unfold StoredGraph.rows
  dsimp only
  rw [if_neg (by rw [hnames]; decide)]
  change Except.ok (((g.matched edgeSelection.shape).filter fun _ => true).map _) = _
  rw [List.filter_true, hmatched]

/-- The column `type` of a node is its label. -/
theorem text_nodeRow (n : Node) : (nodeRow n.stored).text "type" = n.kind.label := by
  have hget : (nodeRow n.stored).get? "type" = some (fieldValue n.stored.fields "node_type") := by
    simp [nodeRow, Selection.row, nodeSelection, Keyed.ofList, column, Term.value, Matched.value]
  unfold Row.text
  rw [hget]
  unfold fieldValue
  rw [n.get?_stored_node_type]
  rfl

/-- The column `stub` of a node tells stand-ins from all others. -/
theorem flag_nodeRow {n : Node} (h : n.Marked) : (nodeRow n.stored).flag "stub" = n.isStub := by
  -- The column is the field of the mark.
  have hget : (nodeRow n.stored).get? "stub" = some (fieldValue n.stored.fields "stub") := by
    simp [nodeRow, Selection.row, nodeSelection, Keyed.ofList, column, Term.value, Matched.value]
  have hstub : n.isStub = (n.mark? == some (.flag true)) := rfl
  unfold Row.flag
  rw [hget, hstub]
  unfold fieldValue
  rw [n.get?_stored_stub]
  rcases h with h | h
  · rw [h]
    rfl
  · rw [h]
    rfl

/-- The label of an edge names the kind of its relationship. -/
theorem label_edgeRow (r : Relationship) :
    ((RelKind.ofLabel? ((edgeRow r.stored).text "type")).map RelKind.label).getD
      ((edgeRow r.stored).text "type") = r.kind.label := by
  have htext : (edgeRow r.stored).text "type" = r.kind.storeLabel := rfl
  rw [htext, RelKind.ofLabel?_storeLabel]
  rfl

end Request

/-! ### Counts -/

namespace Statement

/-- Whether a statement merges a node that satisfies a condition. -/
def mergesNode (p : Node → Bool) : Statement → Bool
  | .mergeNode n => p n
  | .mergeRelationship _ => false

end Statement

/-- Counting statements that merge nodes is counting planned nodes. -/
theorem Plan.countP_statements (p : Plan) (q : Node → Bool) :
    p.statements.countP (Statement.mergesNode q) = p.nodes.countP q := by
  unfold statements
  have hrels : (p.relationships.map Statement.mergeRelationship).countP (Statement.mergesNode q) = 0 := by
    rw [List.countP_map, List.countP_eq_zero]
    exact fun r _ => Bool.false_ne_true
  rw [List.countP_append, List.countP_map, hrels, Nat.add_zero]
  rfl

theorem NodeKind.label_injective {j k : NodeKind} (h : j.label = k.label) : j = k :=
  smallLabel_label_injective (congrArg smallLabel h)

/-- Counting the rows of a plan. -/
theorem length_filter_nodeRows {nodes : List Node} {p : Row → Bool} {q : Node → Bool}
    (h : ∀ n ∈ nodes, p (Request.nodeRow n.stored) = q n) :
    (((nodes.map Node.stored).map Request.nodeRow).filter p).length = nodes.countP q := by
  rw [← List.countP_eq_length_filter, List.map_map, List.countP_map]
  refine List.countP_congr fun n hn => ?_
  change p (Request.nodeRow n.stored) = true ↔ _
  rw [h n hn]

/-- **The counts that a store gives agree with a report.** -/
structure BuildReport.Confirmed (report : BuildReport) (counts : Json) : Prop where
  totalNodes : ∀ listed, counts.field? "total_nodes" = (report.toJson listed).field? "nodes_created"
  totalRelationships : ∀ listed,
    counts.field? "total_relationships" = (report.toJson listed).field? "relationships_created"
  nodeTypes : ∀ listed, counts.field? "node_types" = (report.toJson listed).field? "node_types"
  relationshipTypes : ∀ listed,
    counts.field? "relationship_types" = (report.toJson listed).field? "relationship_types"
  files : counts.field? "files" = some (.int
    (report.plan.statements.countP (Statement.mergesNode fun n => n.kind == .generic .file)))
  stubNodes : counts.field? "stub_nodes" = some (.int
    (report.plan.statements.countP (Statement.mergesNode Node.isStub)))

/-- The counts of the rows that a plan leaves in a store. -/
theorem confirmed_statisticsOf {report : BuildReport} (hmarked : ∀ n ∈ report.plan.nodes, n.Marked) :
    report.Confirmed (Request.statisticsOf
      ((report.plan.nodes.map Node.stored).map Request.nodeRow)
      ((report.plan.relationships.map Relationship.stored).map Request.edgeRow)) where
  totalNodes listed := by
    change some (Json.int _) = some (Json.int _)
    rw [List.length_map, List.length_map]
  totalRelationships listed := by
    change some (Json.int _) = some (Json.int _)
    rw [List.length_map, List.length_map]
  nodeTypes listed := by
    change some (Request.tallyJson (Request.tally _)) = some (Request.tallyJson (Request.tally _))
    -- The rows are tallied by a column that shows the label of the node.
    rw [List.map_map, List.map_map]
    refine congrArg (fun l => some (Request.tallyJson (Request.tally l))) ?_
    refine List.map_congr_left fun n _ => ?_
    rw [Function.comp_apply, Function.comp_apply]
    exact Request.text_nodeRow n
  relationshipTypes listed := by
    change some (Request.tallyJson (Request.tally _)) = some (Request.tallyJson (Request.tally _))
    rw [List.map_map, List.map_map]
    refine congrArg (fun l => some (Request.tallyJson (Request.tally l))) ?_
    refine List.map_congr_left fun r _ => ?_
    rw [Function.comp_apply, Function.comp_apply]
    exact Request.label_edgeRow r
  files := by
    -- A row is that of a file exactly if its node is one, since labels tell kinds apart.
    have hkind : ∀ n ∈ report.plan.nodes, ((Request.nodeRow n.stored).text "type"
        == (NodeKind.generic .file).label) = (n.kind == .generic .file) := by
      intro n _
      rw [Request.text_nodeRow, Bool.eq_iff_iff, beq_iff_eq, beq_iff_eq]
      exact ⟨NodeKind.label_injective, congrArg NodeKind.label⟩
    change some (Json.int _) = some (Json.int _)
    rw [Plan.countP_statements, length_filter_nodeRows hkind]
  stubNodes := by
    have hstub : ∀ n ∈ report.plan.nodes, (Request.nodeRow n.stored).flag "stub" = n.isStub :=
      fun n hn => Request.flag_nodeRow (hmarked n hn)
    change some (Json.int _) = some (Json.int _)
    rw [Plan.countP_statements, length_filter_nodeRows hstub]

/-- The nodes of a plan are marked as stand-ins or not at all. -/
theorem marked_plan (settings : BuildSettings) (r : ParseResult) :
    ∀ n ∈ (plan settings r).nodes, n.Marked := by
  intro n hn
  unfold plan at hn
  rw [Plan.ofWorkingSet_eq] at hn
  exact marked_workingSet settings.languages r n (Plan.mem_nodesOf.1 hn).1

/-- The ends of the edges that a plan leaves in a store are there. -/
theorem StoredGraph.ends_of_applyAll {schema : Schema} {p : Plan} {g : StoredGraph}
    (hp : Statement.WellFormed schema p.statements)
    (hnodes : g.nodes.entries = p.nodes.map Node.stored)
    (hedges : g.edges.entries = p.relationships.map Relationship.stored) :
    ∀ e ∈ g.edges.entries, e.source ∈ g.nodes.keys ∧ e.target ∈ g.nodes.keys := by
  have hplanned : ∀ n, .mergeNode n ∈ p.statements → n.id ∈ g.nodes.keys := by
    intro n hn
    refine Register.mem_keys_iff.2 ⟨n.stored, ?_, rfl⟩
    rw [hnodes]
    exact List.mem_map_of_mem ((Plan.mergeNode_mem_statements p).1 hn)
  intro e he
  rw [hedges] at he
  obtain ⟨r, hr, rfl⟩ := List.mem_map.1 he
  -- Both ends of a planned relationship are planned.
  obtain ⟨a, b, ha, hb, hsource, htarget, -⟩ :=
    hp.relationshipsAccepted r ((Plan.mergeRelationship_mem_statements p).2 hr)
  change r.source ∈ g.nodes.keys ∧ r.target ∈ g.nodes.keys
  rw [← hsource, ← htarget]
  exact ⟨hplanned a ha, hplanned b hb⟩

/-- **The statistics of a store** are counted from one row for each stored node and each stored edge. -/
theorem ask_statistics {d : Connection} (hidle : d.pending = none)
    (hends : ∀ e ∈ d.committed.edges.entries,
      e.source ∈ d.committed.nodes.keys ∧ e.target ∈ d.committed.nodes.keys) :
    (Request.ask Connection.session .statistics d).1.success = true ∧
      (Request.ask Connection.session .statistics d).1.data =
        [Request.statisticsOf (d.committed.nodes.entries.map Request.nodeRow)
          (d.committed.edges.entries.map Request.edgeRow)] := by
  -- Nothing is pending, so both queries read the committed graph.
  have hquery : ∀ q, Connection.session.query q d = (d.committed.rows q, d) := by
    intro q
    change (d.current.rows q, d) = _
    unfold Connection.current
    rw [hidle]
    rfl
  have hqueries : Connection.session.queryAll [.select Request.nodeSelection,
      .select Request.edgeSelection] d = (.ok [d.committed.nodes.entries.map Request.nodeRow,
        d.committed.edges.entries.map Request.edgeRow], d) := by
    simp only [Session.queryAll, hquery, Request.rows_nodeSelection,
      Request.rows_edgeSelection hends]
  unfold Request.ask
  rw [Request.inquiry_statistics]
  dsimp only [Inquiry.two]
  rw [hqueries]
  exact ⟨rfl, rfl⟩

/-- A connection to an empty store at which no transaction is open. -/
def Connection.IsEmpty (c : Connection) : Prop :=
  c.committed = ∅ ∧ c.pending = none

/-- **Build, store and statistics agree**: after a build into an empty store has succeeded, whatever befell it
on the way, the statistics of the store are the counts of the build. -/
theorem statistics_of_buildInto (settings : BuildSettings) (r : ParseResult) (c : Connection)
    (hc : c.IsEmpty) (h : (buildInto settings r Connection.session c).1.success = true) :
    let built := buildInto settings r Connection.session c
    let answer := (Request.ask Connection.session .statistics built.2).1
    answer.success = true ∧ ∃ counts, answer.data = [counts] ∧ built.1.Confirmed counts := by
  obtain ⟨hempty, hidle⟩ := hc
  obtain ⟨happlied, hpending⟩ := Connection.committed_buildInto settings r hidle h
  have hplan := Connection.plan_buildInto settings r c
  intro built answer
  -- What the store holds is what was planned.
  have hwell : Statement.WellFormed settings.schema (plan settings r).statements :=
    Plan.wellFormed_statements settings.schema (workingSet settings.languages r)
  rw [hempty] at happlied
  obtain ⟨hnodes, hedges⟩ := StoredGraph.entries_of_applyAll hwell happlied
  -- So the two queries give one row for each node and each relationship of the plan.
  obtain ⟨hsuccess, hdata⟩ :=
    ask_statistics hpending (StoredGraph.ends_of_applyAll hwell hnodes hedges)
  rw [hnodes, hedges, ← hplan] at hdata
  refine ⟨hsuccess, _, hdata, confirmed_statisticsOf ?_⟩
  rw [hplan]
  exact marked_plan settings r

/-- A project with a class that extends one outside of it. -/
def derivedClass : ParseResult :=
  let d : TypeDecl := { name := "D", kind := .plainClass, superclass := some "lib.Base", span := ⟨1, 2⟩ }
  { files := [.ofRecord "D.kt" (.kotlin none 0 { types := [d] })] }

/-- A build of Kotlin alone. -/
def kotlinOnly : BuildSettings :=
  ⟨Schema.registerKotlin (Schema.registerGeneric .empty), [.kotlin]⟩

/-- An empty store that is locked when the first statement is applied. -/
def lockedOnce : Connection :=
  { faults := [none, some (.database "database is locked")] }

/-- The first attempt fails, the second one succeeds, and the stand-in for the outer class is counted. -/
theorem statistics_of_buildInto_derivedClass :
    (lockedOnce.IsEmpty ∧
        (buildInto kotlinOnly derivedClass Connection.session lockedOnce).1.success = true) ∧
      let built := buildInto kotlinOnly derivedClass Connection.session lockedOnce
      let answer := (Request.ask Connection.session .statistics built.2).1
      answer.success = true ∧ ∃ counts, answer.data = [counts] ∧ built.1.Confirmed counts := by
  have hsuccess : (buildInto kotlinOnly derivedClass Connection.session lockedOnce).1.success = true := by
    decide +kernel
  have hempty : lockedOnce.IsEmpty := ⟨rfl, rfl⟩
  exact ⟨⟨hempty, hsuccess⟩,
    statistics_of_buildInto kotlinOnly derivedClass lockedOnce hempty hsuccess⟩

end CodeAtlas
