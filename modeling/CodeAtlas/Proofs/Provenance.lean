import CodeAtlas.Proofs.Repetition
import CodeAtlas.Proofs.ContainmentOrder

/-!
# Where nodes and relationships come from

A build folds nodes in at two occasions only. While the files are walked, each file brings its own node and
the nodes of its record (`ParseResult.Brings`); while the references are resolved, a type that is not found
gets a stand-in. Everything else is merging. So a property of nodes that merging keeps is a property of all
nodes of a build as soon as these two sorts of nodes have it (`forall_nodes_workingSet`). It then holds at
every point of the resolution as well, which is where answers are read off the nodes
(`forall_nodes_walk`, `forall_nodes_answers`).

Relationships are simpler, since they are never merged: each is a link of a record or an answer to a
reference (`forall_relationships_workingSet`).
-/

namespace CodeAtlas

/-! ### Nodes -/

/-- **The nodes that the files of a project bring**: their own and those of their records. -/
def ParseResult.Brings (r : ParseResult) (languages : List Language) (n : Node) : Prop :=
  ∃ f ∈ r.files, ∃ record, f.built languages = .ok record ∧ (n = f.node ∨ n ∈ f.site.recordNodes record)

/-- What a file brings is made for it. -/
theorem ParseResult.Brings.made {r : ParseResult} {languages : List Language} {n : Node}
    (h : r.Brings languages n) : ∃ f ∈ r.files, n.Made f.path := by
  obtain ⟨f, hf, record, -, rfl | hn⟩ := h
  · exact ⟨f, hf, f.made_node⟩
  · exact ⟨f, hf, f.site.made_recordNodes record n hn⟩

namespace WorkingSet

variable {languages : List Language} {r : ParseResult} {P : Node → Prop}

/-- **When all files have been walked**, the nodes are merged from those that the files bring. -/
theorem forall_nodes_walk (hm : ∀ a b, P a → P b → P (a.mergeFrom b))
    (hbrings : ∀ n, r.Brings languages n → P n) :
    ∀ n ∈ (({} : WorkingSet).applyAll (r.files.flatMap (·.changes languages))).nodes.entries, P n := by
  refine forall_nodes_applyAll hm (fun n hn => nomatch hn) fun n hn => hbrings n ?_
  obtain ⟨f, hf, hn⟩ := List.mem_flatMap.1 hn
  exact ⟨f, hf, ParsedFile.mem_recordNodes_of_mem_changes hn⟩

/-- **An answer to a reference** folds in stand-ins only. -/
theorem forall_nodes_answers (hm : ∀ a b, P a → P b → P (a.mergeFrom b))
    (hstub : ∀ k name, P (Node.stub k name)) {t : WorkingSet} (ht : ∀ n ∈ t.nodes.entries, P n)
    (ref : Reference) : ∀ n ∈ (t.applyAll (referenceChanges languages t ref)).nodes.entries, P n := by
  refine forall_nodes_applyAll hm ht fun n hn => ?_
  obtain ⟨k, name, rfl⟩ := exists_stub_of_mem languages hn
  exact hstub k name

end WorkingSet

/-- **What the nodes of files and stand-ins have, and merging keeps, all nodes of a build have.** -/
theorem forall_nodes_workingSet {languages : List Language} {r : ParseResult} {P : Node → Prop}
    (hm : ∀ a b, P a → P b → P (a.mergeFrom b)) (hbrings : ∀ n, r.Brings languages n → P n)
    (hstub : ∀ k name, P (Node.stub k name)) : ∀ n ∈ (workingSet languages r).nodes.entries, P n := by
  unfold workingSet
  rw [foldl_addParsedFile]
  exact WorkingSet.resolvePending_invariant (Q := fun t => ∀ n ∈ t.nodes.entries, P n)
    (WorkingSet.forall_nodes_walk hm hbrings)
    fun t ht ref _ => WorkingSet.forall_nodes_answers hm hstub ht ref

/-! ### Relationships -/

/-- **What the links of records and the answers to references have, all relationships of a build have.** -/
theorem forall_relationships_workingSet {languages : List Language} {r : ParseResult}
    {P : Relationship → Prop}
    (hlinks : ∀ f ∈ r.files, ∀ record, f.built languages = .ok record →
      ∀ rel ∈ f.site.recordLinks record, P rel)
    (hanswers : ∀ t ref rel, Change.relationship rel ∈ WorkingSet.referenceChanges languages t ref →
      P rel) :
    ∀ rel ∈ (workingSet languages r).relationships.entries, P rel := by
  unfold workingSet
  rw [foldl_addParsedFile]
  -- The condition is the invariant of the resolution; the walk over the files establishes it.
  refine WorkingSet.resolvePending_invariant (Q := fun t => ∀ rel ∈ t.relationships.entries, P rel) ?_ ?_
  · refine WorkingSet.forall_relationships_applyAll (fun rel hrel => nomatch hrel) fun rel hrel => ?_
    obtain ⟨f, hf, hrel⟩ := List.mem_flatMap.1 hrel
    obtain ⟨record, hb, hlink⟩ := ParsedFile.mem_recordLinks_of_mem_changes hrel
    exact hlinks f hf record hb rel hlink
  · intro t ht ref _
    exact WorkingSet.forall_relationships_applyAll ht fun rel hrel => hanswers t ref rel hrel

end CodeAtlas
