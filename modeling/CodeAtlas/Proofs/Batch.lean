import CodeAtlas.Store.Connection
import CodeAtlas.Graph.Build
import CodeAtlas.Proofs.Plan
import CodeAtlas.Proofs.Labels

/-!
# What a batch leaves in a store

A build hands the statements of its plan to a store as one batch, and it may try twice. Between the batch and
the graph that is kept there are faults, transactions and roll-backs. This module clears them away.

* A batch is applied as a whole or not at all (`executeBatch_cases`): either what is committed is the graph
  with all statements applied, or it is what was committed before. So a second attempt starts from where the
  first one did, and a build that succeeds has applied its plan once (`committed_buildInto`).
* The statements of a plan, applied to an empty graph, leave one stored node for each node and one stored edge
  for each relationship, in the order of the plan (`entries_of_applyAll`). Merging never meets anything that
  is there: ids and keys of a plan are distinct, and the kinds of relationships keep their labels apart in the
  store (`storeLabel_injective`).
-/

namespace CodeAtlas

/-! ### Statements and the graph -/

/-- A field of a node is a core field or one of its properties. -/
theorem Node.mem_fields {n : Node} {e : String × Property} (h : e ∈ n.fields) :
    e.1 ∈ ["name", "file_path", "node_type", "line_number"] ∨ e.1 ∈ n.properties.keys := by
  unfold fields at h
  rcases List.mem_append.1 h with h | h
  · left
    rcases List.mem_append.1 h with h | h
    · simp only [List.mem_cons, List.not_mem_nil, or_false] at h
      rcases h with rfl | rfl | rfl <;> simp
    · obtain ⟨l, -, rfl⟩ := List.mem_map.1 h
      simp
  · exact .inr (List.mem_map_of_mem (List.mem_filter.1 h).1)

/-- A node as the store keeps it. -/
def Node.stored (n : Node) : StoredNode :=
  { id := n.id, fields := overwrite ∅ (storedFields n.fields) }

/-- A relationship as the store keeps it. -/
def Relationship.stored (r : Relationship) : StoredEdge :=
  { source := r.source
    target := r.target
    label := r.kind.storeLabel
    fields := overwrite ∅ (storedFields r.properties.entries) }

namespace StoredGraph

variable {g h : StoredGraph}

/-- The effect of statements one after the other, up to the first that fails. -/
def applyAll (g : StoredGraph) : List Statement → Except StoreError StoredGraph
  | [] => .ok g
  | s :: rest =>
    match g.apply s with
    | .error e => .error e
    | .ok h => h.applyAll rest

/-- A batch is applied if its first statement is, and the rest to the graph that this leaves. -/
theorem applyAll_cons_eq_ok {s : Statement} {rest : List Statement} :
    g.applyAll (s :: rest) = .ok h ↔ ∃ k, g.apply s = .ok k ∧ k.applyAll rest = .ok h := by
  rw [applyAll]
  cases g.apply s with
  | error e => simp
  | ok k => simp

/-- Two batches one after the other are one batch. -/
theorem applyAll_append_eq_ok {l m : List Statement} :
    g.applyAll (l ++ m) = .ok h ↔ ∃ k, g.applyAll l = .ok k ∧ k.applyAll m = .ok h := by
  induction l generalizing g with
  | nil => simp [applyAll]
  | cons s l ih =>
    -- The graph after the first statement is the one that both readings start from.
    rw [List.cons_append, applyAll_cons_eq_ok]
    simp only [applyAll_cons_eq_ok, ih]
    constructor
    · rintro ⟨i, hi, k, hk, hm⟩
      exact ⟨k, ⟨i, hi, hk⟩, hm⟩
    · rintro ⟨k, ⟨i, hi, hk⟩, hm⟩
      exact ⟨i, hi, k, hk, hm⟩

/-- Fields that pass the check are stored as they would be without it. -/
theorem eq_of_checkedFields {fields l : List (String × Property)} (hl : checkedFields fields = .ok l) :
    l = storedFields fields := by
  unfold checkedFields at hl
  split at hl
  · cases hl
  · exact (Except.ok.inj hl).symm

/-- A node that is not there yet goes to the end. -/
theorem apply_mergeNode {n : Node} (hn : n.id ∉ g.nodes.keys) (ha : g.apply (.mergeNode n) = .ok h) :
    h.nodes.entries = g.nodes.entries ++ [n.stored] ∧ h.edges = g.edges := by
  unfold apply at ha
  dsimp only at ha
  cases hf : checkedFields n.fields with
  | error e =>
    rw [hf] at ha
    cases ha
  | ok l =>
    rw [hf] at ha
    obtain rfl := eq_of_checkedFields hf
    obtain rfl := Except.ok.inj ha
    -- An id that is not there makes the merge an insertion at the end.
    refine ⟨?_, rfl⟩
    unfold mergeNode
    dsimp only
    exact Register.entries_upsert_of_notMem hn

/-- A relationship whose ends are there and whose key is not goes to the end. -/
theorem apply_mergeRelationship {r : Relationship} (hs : r.source ∈ g.nodes.keys)
    (ht : r.target ∈ g.nodes.keys) (hr : r.stored.key ∉ g.edges.keys)
    (ha : g.apply (.mergeRelationship r) = .ok h) :
    h.edges.entries = g.edges.entries ++ [r.stored] ∧ h.nodes = g.nodes := by
  -- An edge is only written if both of its ends are there.
  have hends : (g.hasNode r.source && g.hasNode r.target) = true := by
    unfold hasNode Register.contains
    rw [decide_eq_true hs, decide_eq_true ht]
    rfl
  unfold apply at ha
  dsimp only at ha
  cases hf : checkedFields r.properties.entries with
  | error e =>
    rw [hf] at ha
    cases ha
  | ok l =>
    rw [hf] at ha
    obtain rfl := eq_of_checkedFields hf
    replace ha := Except.ok.inj ha
    unfold mergeEdge at ha
    rw [if_pos hends] at ha
    subst ha
    refine ⟨?_, rfl⟩
    dsimp only
    exact Register.entries_upsert_of_notMem hr

/-- **Nodes with new ids are appended.** -/
theorem applyAll_mergeNodes {nodes : List Node} (hd : (g.nodes.keys ++ nodes.map (·.id)).Nodup)
    (ha : g.applyAll (nodes.map .mergeNode) = .ok h) :
    h.nodes.entries = g.nodes.entries ++ nodes.map Node.stored ∧ h.edges = g.edges := by
  -- By induction on the nodes. The hypothesis on distinct ids speaks of the ids in the graph and of those to
  -- come together, and that is what carries over to the graph with one node more.
  induction nodes generalizing g with
  | nil =>
    obtain rfl := Except.ok.inj ha
    exact ⟨(List.append_nil _).symm, rfl⟩
  | cons n nodes ih =>
    rw [List.map_cons] at ha hd
    obtain ⟨k, hk, ha⟩ := applyAll_cons_eq_ok.1 ha
    -- The first node is new; with it in place the others still are.
    have hn : n.id ∉ g.nodes.keys := fun hn =>
      (List.nodup_append.1 hd).2.2 n.id hn n.id List.mem_cons_self rfl
    obtain ⟨hnodes, hedges⟩ := apply_mergeNode hn hk
    have hkeys : k.nodes.keys = g.nodes.keys ++ [n.id] := by
      unfold Register.keys
      rw [hnodes, List.map_append]
      rfl
    have hd' : (k.nodes.keys ++ nodes.map (·.id)).Nodup := by
      rw [hkeys, List.append_assoc]
      exact hd
    obtain ⟨hnodes', hedges'⟩ := ih hd' ha
    exact ⟨by rw [hnodes', hnodes, List.map_cons, List.append_assoc, List.singleton_append],
      hedges'.trans hedges⟩

/-- **Relationships with new keys between nodes that are there are appended.** -/
theorem applyAll_mergeRelationships {rels : List Relationship}
    (hends : ∀ r ∈ rels, r.source ∈ g.nodes.keys ∧ r.target ∈ g.nodes.keys)
    (hd : (g.edges.keys ++ rels.map (·.stored.key)).Nodup)
    (ha : g.applyAll (rels.map .mergeRelationship) = .ok h) :
    h.edges.entries = g.edges.entries ++ rels.map Relationship.stored ∧ h.nodes = g.nodes := by
  -- As for nodes, but each step also has to keep the ends of the other relationships in the graph.
  induction rels generalizing g with
  | nil =>
    obtain rfl := Except.ok.inj ha
    exact ⟨(List.append_nil _).symm, rfl⟩
  | cons r rels ih =>
    rw [List.map_cons] at ha hd
    obtain ⟨k, hk, ha⟩ := applyAll_cons_eq_ok.1 ha
    have hr : r.stored.key ∉ g.edges.keys := fun hr =>
      (List.nodup_append.1 hd).2.2 _ hr _ List.mem_cons_self rfl
    obtain ⟨hs, ht⟩ := hends r List.mem_cons_self
    obtain ⟨hedges, hnodes⟩ := apply_mergeRelationship hs ht hr hk
    have hkeys : k.edges.keys = g.edges.keys ++ [r.stored.key] := by
      unfold Register.keys
      rw [hedges, List.map_append]
      rfl
    have hd' : (k.edges.keys ++ rels.map (·.stored.key)).Nodup := by
      rw [hkeys, List.append_assoc]
      exact hd
    -- Relationships leave the nodes alone, so the ends that were there still are.
    have hends' : ∀ q ∈ rels, q.source ∈ k.nodes.keys ∧ q.target ∈ k.nodes.keys := by
      rw [hnodes]
      exact fun q hq => hends q (List.mem_cons_of_mem r hq)
    obtain ⟨hedges', hnodes'⟩ := ih hends' hd' ha
    exact ⟨by rw [hedges', hedges, List.map_cons, List.append_assoc, List.singleton_append],
      hnodes'.trans hnodes⟩

/-- The keys of relationships stay distinct in the store. -/
theorem nodup_stored_keys {rels : List Relationship} (hd : (rels.map (·.key)).Nodup) :
    (rels.map (·.stored.key)).Nodup := by
  have hmap : rels.map (·.stored.key)
      = (rels.map (·.key)).map fun k => (k.1, k.2.2, k.2.1.storeLabel) := by
    rw [List.map_map]
    rfl
  rw [hmap]
  -- Keys of the store are made of labels, so it takes that labels tell the kinds apart.
  refine hd.map ?_
  rintro ⟨a, j, b⟩ ⟨c, k, d⟩ he
  simp only [Prod.mk.injEq] at he
  obtain ⟨rfl, rfl, hlabel⟩ := he
  rw [RelKind.storeLabel_injective hlabel]

/-- **A plan leaves one entry in an empty store for each node and each relationship**, in their order. -/
theorem entries_of_applyAll {schema : Schema} {p : Plan}
    (hp : Statement.WellFormed schema p.statements)
    (ha : (∅ : StoredGraph).applyAll p.statements = .ok g) :
    g.nodes.entries = p.nodes.map Node.stored ∧
      g.edges.entries = p.relationships.map Relationship.stored := by
  have hids := hp.distinctIds
  have hkeys := hp.distinctKeys
  rw [Plan.filterMap_node?_statements] at hids
  rw [Plan.filterMap_relationship?_statements] at hkeys
  -- The graph between the nodes and the relationships.
  obtain ⟨k, hk, ha⟩ := applyAll_append_eq_ok.1 ha
  obtain ⟨hnodes, hedges⟩ := applyAll_mergeNodes (g := ∅) hids hk
  -- All nodes are there when the first relationship comes.
  have hplanned : ∀ n ∈ p.nodes, n.id ∈ k.nodes.keys := by
    intro n hn
    refine Register.mem_keys_iff.2 ⟨n.stored, ?_, rfl⟩
    rw [hnodes]
    exact List.mem_append_right _ (List.mem_map_of_mem hn)
  -- A relationship of a plan is accepted, so both of its ends are among the nodes.
  have hends : ∀ r ∈ p.relationships, r.source ∈ k.nodes.keys ∧ r.target ∈ k.nodes.keys := by
    intro r hr
    obtain ⟨a, b, ham, hbm, has, hbt, -⟩ :=
      hp.relationshipsAccepted r ((Plan.mergeRelationship_mem_statements p).2 hr)
    rw [Plan.mergeNode_mem_statements] at ham hbm
    exact ⟨has ▸ hplanned a ham, hbt ▸ hplanned b hbm⟩
  have hnew : (k.edges.keys ++ p.relationships.map (·.stored.key)).Nodup := by
    rw [hedges]
    exact nodup_stored_keys hkeys
  obtain ⟨hedges', hnodes'⟩ := applyAll_mergeRelationships hends hnew ha
  rw [hedges', hnodes', hnodes, hedges]
  exact ⟨rfl, rfl⟩

end StoredGraph

/-! ### Commands and transactions -/

namespace Connection

variable {c d : Connection}

/-- A command that succeeds has its effect on the same graphs. -/
theorem command_eq_ok {effect : Connection → Except StoreError Connection}
    (h : command effect c = (.ok (), d)) :
    ∃ b, b.committed = c.committed ∧ b.pending = c.pending ∧ effect b = .ok d := by
  unfold command nextFault at h
  -- With no fault due, or one that lets the command pass, the effect has been run.
  cases hf : c.faults with
  | nil =>
    rw [hf] at h
    dsimp only at h
    refine ⟨c, rfl, rfl, ?_⟩
    cases he : effect c with
    | error e =>
      rw [he] at h
      cases h
    | ok b =>
      rw [he] at h
      rw [(Prod.mk.inj h).2]
  | cons f rest =>
    rw [hf] at h
    cases f with
    | some e => cases h
    | none =>
      dsimp only at h
      refine ⟨{ c with faults := rest }, rfl, rfl, ?_⟩
      cases he : effect { c with faults := rest } with
      | error e =>
        rw [he] at h
        cases h
      | ok b =>
        rw [he] at h
        rw [(Prod.mk.inj h).2]

/-- A command that fails changes nothing. -/
theorem command_eq_error {effect : Connection → Except StoreError Connection} {e : StoreError}
    (h : command effect c = (.error e, d)) : d.committed = c.committed ∧ d.pending = c.pending := by
  unfold command nextFault at h
  -- A fault that strikes leaves all but the faults as they are, and so does an effect that fails.
  cases hf : c.faults with
  | nil =>
    rw [hf] at h
    dsimp only at h
    split at h
    · cases h
    · rw [← (Prod.mk.inj h).2]
      exact ⟨rfl, rfl⟩
  | cons f rest =>
    rw [hf] at h
    cases f with
    | some e =>
      rw [← (Prod.mk.inj h).2]
      exact ⟨rfl, rfl⟩
    | none =>
      dsimp only at h
      split at h
      · cases h
      · rw [← (Prod.mk.inj h).2]
        exact ⟨rfl, rfl⟩

/-- A statement that is applied changes the open graph and not the committed one. -/
theorem apply_eq_ok {s : Statement} (h : c.apply s = (.ok (), d)) :
    d.committed = c.committed ∧ c.current.apply s = .ok d.current := by
  obtain ⟨b, hcommitted, hpending, hb⟩ := command_eq_ok h
  have hcurrent : b.current = c.current := by
    unfold current
    rw [hcommitted, hpending]
  -- The command ran its effect, which is to apply the statement to the open graph.
  rw [hcurrent] at hb
  cases ha : c.current.apply s with
  | error e =>
    rw [ha] at hb
    cases hb
  | ok g =>
    rw [ha] at hb
    obtain rfl := Except.ok.inj hb
    exact ⟨hcommitted, rfl⟩

/-- Statements that are applied do not touch what is committed. -/
theorem committed_applyAll (batch : List Statement) (c : Connection) :
    (applyAll batch c).2.committed = c.committed := by
  induction batch generalizing c with
  | nil => rfl
  | cons s batch ih =>
    rw [applyAll]
    cases h : c.apply s with
    | mk result b =>
      cases result with
      | ok u => exact (ih b).trans (apply_eq_ok h).1
      | error e => exact (command_eq_error h).1

/-- Statements that are all applied are applied to the graph as the connection sees it. -/
theorem applyAll_eq_ok {batch : List Statement} (h : applyAll batch c = (.ok (), d)) :
    c.current.applyAll batch = .ok d.current := by
  -- Each statement sees the graph that those before it have left open.
  induction batch generalizing c with
  | nil =>
    obtain rfl := (Prod.mk.inj h).2
    rfl
  | cons s batch ih =>
    rw [applyAll] at h
    cases hs : c.apply s with
    | mk result b =>
      rw [hs] at h
      cases result with
      | ok u => exact StoredGraph.applyAll_cons_eq_ok.2 ⟨b.current, (apply_eq_ok hs).2, ih h⟩
      | error e => cases h

/-- **Work as one transaction**: committed as a whole, or not at all. -/
theorem transaction_cases {work : Connection → Except StoreError Unit × Connection}
    (hwork : ∀ c, (work c).2.committed = c.committed) (hc : c.pending = none) :
    (∃ b₁ b₂ d, transaction work c = (.ok (), d) ∧ b₁.current = c.committed ∧
        work b₁ = (.ok (), b₂) ∧ d.committed = b₂.current ∧ d.pending = none) ∨
      ∃ e d, transaction work c = (.error e, d) ∧ d.committed = c.committed ∧ d.pending = none := by
  unfold transaction
  -- The failures come in the order of the commands; each of them leaves the committed graph as it was.
  cases hs : c.start with
  | mk result b₁ =>
    cases result with
    | error e =>
      obtain ⟨hcommitted, hpending⟩ := command_eq_error hs
      exact .inr ⟨e, b₁, rfl, hcommitted, hpending.trans hc⟩
    | ok u =>
      obtain ⟨b, hcommitted, -, hb⟩ := command_eq_ok hs
      obtain rfl := Except.ok.inj hb
      dsimp only
      generalize hb₁ : ({ b with pending := some b.committed } : Connection) = b₁
      have hstart : b₁.committed = c.committed := by
        rw [← hb₁]
        exact hcommitted
      have hcurrent : b₁.current = c.committed := by
        rw [← hb₁]
        exact hcommitted
      -- Whatever the work does, it does to the open graph.
      have hkept := hwork b₁
      cases hw : work b₁ with
      | mk result b₂ =>
        rw [hw] at hkept
        cases result with
        | error e => exact .inr ⟨e, b₂.rollback, rfl, hkept.trans hstart, rfl⟩
        | ok u =>
          dsimp only
          cases hm : b₂.commit with
          | mk result b₃ =>
            cases result with
            | error e =>
              exact .inr ⟨e, b₃.rollback, rfl,
                (command_eq_error hm).1.trans (hkept.trans hstart), rfl⟩
            | ok u =>
              obtain ⟨b', hcommitted', hpending', hb'⟩ := command_eq_ok hm
              obtain rfl := Except.ok.inj hb'
              refine .inl ⟨b₁, b₂, _, rfl, hcurrent, hw, ?_, rfl⟩
              unfold current
              rw [hcommitted', hpending']

/-- **A batch is applied as a whole or not at all.** -/
theorem executeBatch_cases (batch : List Statement) (hc : c.pending = none) :
    (∃ d, executeBatch batch c = (.ok batch.length, d) ∧
        c.committed.applyAll batch = .ok d.committed ∧ d.pending = none) ∨
      ∃ e d, executeBatch batch c = (.error e, d) ∧ d.committed = c.committed ∧ d.pending = none := by
  unfold executeBatch
  -- An empty batch opens no transaction.
  cases batch with
  | nil => exact .inl ⟨c, rfl, rfl, hc⟩
  | cons s batch =>
    rw [if_neg (by simp)]
    rcases transaction_cases (committed_applyAll (s :: batch)) hc with
      ⟨b₁, b₂, d, ht, hcurrent, hw, hcommitted, hpending⟩ | ⟨e, d, ht, hcommitted, hpending⟩
    · rw [ht]
      refine .inl ⟨d, rfl, ?_, hpending⟩
      rw [hcommitted, ← hcurrent]
      exact applyAll_eq_ok hw
    · rw [ht]
      exact .inr ⟨e, d, rfl, hcommitted, hpending⟩

/-- **Two attempts that end well have applied the batch once.** -/
theorem executeTwice_eq_ok {batch : List Statement} {n : Nat} (hc : c.pending = none)
    (h : executeTwice session batch c = (.ok n, d)) :
    c.committed.applyAll batch = .ok d.committed ∧ d.pending = none := by
  have hexecute : session.execute = executeBatch := rfl
  unfold executeTwice at h
  rw [hexecute] at h
  rcases executeBatch_cases batch hc with
    ⟨b, hb, happlied, hpending⟩ | ⟨e, b, hb, hcommitted, hpending⟩
  · rw [hb] at h
    obtain rfl := (Prod.mk.inj h).2
    exact ⟨happlied, hpending⟩
  · rw [hb] at h
    -- The second attempt starts from the graph that the first one found.
    rcases executeBatch_cases batch hpending with
      ⟨b', hb', happlied, hpending'⟩ | ⟨e', b', hb', -, -⟩
    -- Only an error that may be retried leads to the second attempt.
    · have hd : b' = d := by
        cases e with
        | invalidData detail => cases h
        | _ =>
          dsimp only at h
          rw [hb'] at h
          exact (Prod.mk.inj h).2
      rw [← hcommitted, ← hd]
      exact ⟨happlied, hpending'⟩
    · cases e with
      | invalidData detail => cases h
      | _ =>
        dsimp only at h
        rw [hb'] at h
        cases h

/-- **A build that succeeds has applied its plan once**, whatever befell it on the way. -/
theorem committed_buildInto (settings : BuildSettings) (r : ParseResult) (hc : c.pending = none)
    (h : (buildInto settings r session c).1.success = true) :
    c.committed.applyAll (plan settings r).statements
        = .ok (buildInto settings r session c).2.committed ∧
      (buildInto settings r session c).2.pending = none := by
  unfold buildInto at h ⊢
  dsimp only at h ⊢
  -- A build succeeds only if its statements were executed, and those of a session are.
  cases he : executeTwice session (plan settings r).statements c with
  | mk result d =>
    rw [he] at h
    cases result with
    | error e => cases h
    | ok n => exact executeTwice_eq_ok hc he

/-- The report of a build holds its plan, whatever happens in the store. -/
theorem plan_buildInto (settings : BuildSettings) (r : ParseResult) (c : Connection) :
    (buildInto settings r session c).1.plan = plan settings r := by
  unfold buildInto
  dsimp only
  cases executeTwice session (plan settings r).statements c with
  | mk result d =>
    cases result with
    | ok n => rfl
    | error e => rfl

end Connection

end CodeAtlas
