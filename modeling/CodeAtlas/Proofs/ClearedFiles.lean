import CodeAtlas.Proofs.Reindexing
import CodeAtlas.Proofs.Statistics

/-!
# Clearing a file and indexing again

Before a changed file is indexed again its nodes are deleted, with all their edges. A scope belongs to the
file that declared it first, so scopes that other files share go as well, and so do the edges from and to
those other files. Indexing the whole project again brings everything back (`cleared_then_reindexed`).

* What clearing leaves is what it should (`StoredGraph.clears_clearFile`): the nodes that are recorded for
  another file, and the edges that touch none of those that went. This holds of every graph.
* What is left of a plan is a part of it, and a part of a plan completes to the plan whichever part it is
  (`StoredGraph.mem_written_of_subset`): an entry that is there is written over itself, and one that is gone
  is created. All nodes are written before the first relationship, so no edge misses its ends.

Only the order of the entries may be another one afterwards, so the graphs are compared by what they hold.

Which nodes are recorded for a file is decided by texts as the store keeps them, that is without line breaks
and tabs. Two files whose paths differ in those alone are one file to it (`twin_is_cleared`).
-/

namespace CodeAtlas

namespace StoredGraph

/-! ### What clearing leaves -/

/-- **What is left of a graph once a file is cleared**: the nodes whose path is another one than the path of
the file as a store keeps it, and the edges that touch no other node. -/
structure Clears (path : String) (g h : StoredGraph) : Prop where
  node : ∀ n, n ∈ h.nodes.entries ↔
    n ∈ g.nodes.entries ∧ n.fields.get? "file_path" ≠ some (.text (flattened path))
  edge : ∀ e, e ∈ h.edges.entries ↔ e ∈ g.edges.entries ∧
    ∀ n ∈ g.nodes.entries, n.fields.get? "file_path" = some (.text (flattened path)) →
      e.source ≠ n.id ∧ e.target ≠ n.id

variable {g : StoredGraph} {path : String}

/-- A node is of a file if it is recorded for the path as the store keeps it. -/
theorem isOfFile_iff {n : StoredNode} :
    isOfFile path n = true ↔ n.fields.get? "file_path" = some (.text (flattened path)) :=
  beq_iff_eq

/-- An id is gone if its node is. -/
theorem any_get?_iff {p : StoredNode → Bool} {id : String} :
    (g.nodes.get? id).any p = true ↔ ∃ n ∈ g.nodes.entries, n.id = id ∧ p n = true := by
  rw [Option.any_eq_true]
  constructor
  · rintro ⟨n, hget, hn⟩
    obtain ⟨hmem, hid⟩ := Register.get?_eq_some_iff.1 hget
    exact ⟨n, hmem, hid, hn⟩
  · rintro ⟨n, hmem, hid, hn⟩
    exact ⟨n, Register.get?_eq_some_iff.2 ⟨hmem, hid⟩, hn⟩

/-- An end of an edge stays if it is the id of no node of the file. -/
theorem stays_iff {id : String} :
    (!(g.nodes.get? id).any (isOfFile path)) = true ↔ ∀ n ∈ g.nodes.entries,
      n.fields.get? "file_path" = some (.text (flattened path)) → id ≠ n.id := by
  rw [Bool.not_eq_true', ← Bool.not_eq_true, any_get?_iff]
  constructor
  · exact fun h n hn hfile hid => h ⟨n, hn, hid.symm, isOfFile_iff.2 hfile⟩
  · rintro h ⟨n, hn, hid, hfile⟩
    exact h n hn (isOfFile_iff.1 hfile) hid.symm

/-- **Clearing a file deletes its nodes and their edges, and nothing else.** -/
theorem clears_clearFile (g : StoredGraph) (path : String) : Clears path g (g.clearFile path) where
  node n := by
    change n ∈ g.nodes.entries.filter (fun n => !isOfFile path n) ↔ _
    rw [List.mem_filter, Bool.not_eq_true', ← Bool.not_eq_true, isOfFile_iff]
  edge e := by
    let gone := fun id => (g.nodes.get? id).any (isOfFile path)
    change e ∈ g.edges.entries.filter (fun e => !gone e.source && !gone e.target) ↔ _
    rw [List.mem_filter, Bool.and_eq_true, stays_iff, stays_iff]
    -- Both ends stay, or each node of the file is neither of them.
    exact and_congr_right fun _ =>
      ⟨fun ⟨hs, ht⟩ n hn hfile => ⟨hs n hn hfile, ht n hn hfile⟩,
        fun h => ⟨fun n hn hfile => (h n hn hfile).1, fun n hn hfile => (h n hn hfile).2⟩⟩

/-- A graph without nodes of a file stays as it is. -/
theorem clearFile_of_countOfFile_eq_zero (h : g.countOfFile path = 0) : g.clearFile path = g := by
  have hnone : ∀ n ∈ g.nodes.entries, ¬isOfFile path n = true :=
    List.filter_eq_nil_iff.1 (List.length_eq_zero_iff.1 h)
  have hnodes : (g.clearFile path).nodes = g.nodes := by
    refine Register.ext_entries (List.filter_eq_self.2 fun n hn => ?_)
    rw [Bool.not_eq_true', ← Bool.not_eq_true]
    exact hnone n hn
  -- Without a node that goes, every end of an edge stays.
  have hedges : (g.clearFile path).edges = g.edges := by
    have hstays : ∀ id, (!(g.nodes.get? id).any (isOfFile path)) = true := fun id =>
      stays_iff.2 fun n hn hfile => absurd (isOfFile_iff.2 hfile) (hnone n hn)
    refine Register.ext_entries (List.filter_eq_self.2 fun e _ => ?_)
    exact Bool.and_eq_true_iff.2 ⟨hstays e.source, hstays e.target⟩
  calc g.clearFile path = ⟨(g.clearFile path).nodes, (g.clearFile path).edges⟩ := rfl
    _ = g := by rw [hnodes, hedges]

end StoredGraph

namespace Connection

/-- **Clearing a file over a connection that nothing befalls** clears it in what is committed. -/
theorem clearFile_eq (path : String) (g : StoredGraph) :
    clearFile path { committed := g } = (.ok (g.countOfFile path), { committed := g.clearFile path }) := by
  have hcount : (current { committed := g }).countOfFile path = g.countOfFile path := rfl
  unfold clearFile
  dsimp only
  rw [hcount]
  split
  · rename_i hzero
    rw [StoredGraph.clearFile_of_countOfFile_eq_zero hzero, hzero]
  · rfl

end Connection

/-! ### What indexing brings back -/

namespace Node

/-- The path of a node is one of its stored fields. -/
theorem get?_stored_file_path (n : Node) :
    n.stored.fields.get? "file_path" = some (.text (flattened n.path)) := by
  have hcore : n.coreValues.reverse.lookup "file_path" = some (.text n.path) := by
    unfold coreValues
    cases n.line with
    | none => rfl
    | some l => rfl
  rw [get?_stored, if_pos (by decide), Option.none_or, hcore]
  rfl

end Node

namespace StoredGraph

variable {g : StoredGraph} {p : Plan}

/-- **A part of a plan completes to the plan** when the plan is written over it. -/
theorem mem_written_of_subset {schema : Schema} (hp : Statement.WellFormed schema p.statements)
    (hnodes : g.nodes.entries ⊆ p.nodes.map Node.stored)
    (hedges : g.edges.entries ⊆ p.relationships.map Relationship.stored) :
    (∀ n, n ∈ (g.written p).nodes.entries ↔ n ∈ p.nodes.map Node.stored) ∧
      ∀ e, e ∈ (g.written p).edges.entries ↔ e ∈ p.relationships.map Relationship.stored := by
  constructor
  · intro n
    -- What is there already is written over by itself, which changes nothing.
    refine Register.mem_upsertAll_of_subset (nodup_stored_ids hp) (fun a _ => ?_) hnodes
    unfold StoredNode.overwrittenBy
    rw [overwrite_self]
  · intro e
    refine Register.mem_upsertAll_of_subset (nodup_stored_edges hp) (fun a _ => ?_) hedges
    unfold StoredEdge.overwrittenBy
    rw [overwrite_self]

end StoredGraph

/-- **Clearing a file and indexing again restores the graph.** The batch of a build is applied to an empty
store, a file is cleared, and the batch is applied again. Nothing is refused, and the graph that is there in
the end has the nodes and the edges, with all their fields, that were there after the first time. In between
it has the nodes that are recorded for other files and the edges between them; of the planned nodes these are
the ones whose path is another one as the store keeps it. -/
theorem cleared_then_reindexed (settings : BuildSettings) (r : ParseResult) (path : String) :
    let p := plan settings r
    ∃ whole part restored : StoredGraph,
      Connection.executeBatch p.statements {} = (.ok p.statements.length, { committed := whole }) ∧
      Connection.clearFile path { committed := whole }
        = (.ok (whole.countOfFile path), { committed := part }) ∧
      Connection.executeBatch p.statements { committed := part }
        = (.ok p.statements.length, { committed := restored }) ∧
      StoredGraph.Clears path whole part ∧
      (∀ n ∈ p.nodes, n.stored ∈ part.nodes.entries ↔ flattened n.path ≠ flattened path) ∧
      (∀ n, n ∈ restored.nodes.entries ↔ n ∈ whole.nodes.entries) ∧
      ∀ e, e ∈ restored.edges.entries ↔ e ∈ whole.edges.entries := by
  intro p
  have hwell : Statement.WellFormed settings.schema p.statements :=
    Plan.wellFormed_statements settings.schema (workingSet settings.languages r)
  have happlied : ∀ g : StoredGraph, g.applyAll p.statements = .ok (g.written p) :=
    StoredGraph.applyAll_plan settings r
  let whole := (∅ : StoredGraph).written p
  let part := whole.clearFile path
  have hclears : StoredGraph.Clears path whole part := whole.clears_clearFile path
  -- Over the empty graph a plan writes exactly what it lists.
  obtain ⟨hnodes, hedges⟩ := StoredGraph.mem_written_of_subset (g := ∅) hwell (List.nil_subset _)
    (List.nil_subset _)
  -- What is left after clearing was there before, so it is planned.
  obtain ⟨hnodes', hedges'⟩ := StoredGraph.mem_written_of_subset (g := part) hwell
    (fun n hn => (hnodes n).1 ((hclears.node n).1 hn).1)
    (fun e he => (hedges e).1 ((hclears.edge e).1 he).1)
  refine ⟨whole, part, part.written p, ?first, ?clear, ?second, hclears, ?planned, ?nodes, ?edges⟩
  case first => exact Connection.executeBatch_of_applyAll (happlied ∅)
  case clear => exact Connection.clearFile_eq path whole
  case second => exact Connection.executeBatch_of_applyAll (happlied part)
  case planned =>
    intro n hn
    have hwhole : n.stored ∈ whole.nodes.entries := (hnodes n.stored).2 (List.mem_map_of_mem hn)
    rw [hclears.node, n.get?_stored_file_path]
    simp [hwhole]
  case nodes => exact fun n => (hnodes' n).trans (hnodes n).symm
  case edges => exact fun e => (hedges' e).trans (hedges e).symm

/-- Two files whose paths differ in a tab. -/
def twins : ParseResult :=
  { files := [.ofRecord "a\tb.kt" (.kotlin none 0 {}), .ofRecord "a b.kt" (.kotlin none 0 {})] }

/-- **Clearing a file takes its twin along**: both nodes are deleted, and the second one has another path. -/
theorem twin_is_cleared :
    let p := plan kotlinOnly twins
    p.nodes.map (·.path) = ["a\tb.kt", "a b.kt"] ∧
    ∃ whole left : StoredGraph,
      Connection.executeBatch p.statements {} = (.ok p.statements.length, { committed := whole }) ∧
      whole.nodes.entries = p.nodes.map Node.stored ∧
      Connection.clearFile "a\tb.kt" { committed := whole } = (.ok 2, { committed := left }) ∧
      left.nodes.entries = [] := by
  intro p
  let whole := (∅ : StoredGraph).written p
  have hwell : Statement.WellFormed kotlinOnly.schema p.statements :=
    Plan.wellFormed_statements kotlinOnly.schema (workingSet kotlinOnly.languages twins)
  have happlied : (∅ : StoredGraph).applyAll p.statements = .ok whole :=
    StoredGraph.applyAll_plan kotlinOnly twins ∅
  have hnodes : whole.nodes.entries = p.nodes.map Node.stored :=
    (StoredGraph.entries_of_applyAll hwell happlied).1
  have hpaths : p.nodes.map (·.path) = ["a\tb.kt", "a b.kt"] := by decide +kernel
  -- As the store keeps them, both paths are the same text.
  have hsame : ∀ a ∈ whole.nodes.entries, StoredGraph.isOfFile "a\tb.kt" a = true := by
    intro a ha
    rw [hnodes] at ha
    obtain ⟨n, hn, rfl⟩ := List.mem_map.1 ha
    have hpath : n.path ∈ ["a\tb.kt", "a b.kt"] := hpaths ▸ List.mem_map_of_mem hn
    have hflat : ∀ s ∈ ["a\tb.kt", "a b.kt"], flattened s = flattened "a\tb.kt" := by decide
    rw [StoredGraph.isOfFile_iff, n.get?_stored_file_path, hflat n.path hpath]
  -- So all nodes count as nodes of the one file.
  have hcount : whole.countOfFile "a\tb.kt" = 2 := by
    calc whole.countOfFile "a\tb.kt" = whole.nodes.entries.length :=
          congrArg List.length (List.filter_eq_self.2 hsame)
      _ = (p.nodes.map (·.path)).length := by rw [hnodes, List.length_map, List.length_map]
      _ = 2 := by rw [hpaths]; rfl
  have hleft : (whole.clearFile "a\tb.kt").nodes.entries = [] :=
    List.filter_eq_nil_iff.2 fun a ha => by rw [hsame a ha]; decide
  refine ⟨hpaths, whole, whole.clearFile "a\tb.kt", ?batch, hnodes, ?clear, hleft⟩
  case batch => exact Connection.executeBatch_of_applyAll happlied
  case clear => rw [Connection.clearFile_eq, hcount]

end CodeAtlas
