import CodeAtlas.Graph.WorkingSet
import CodeAtlas.Proofs.Register
import CodeAtlas.Proofs.Keyed

/-!
# Changes of a working set

A build touches its working set in few ways: it folds a node in, enters a declaration, a file, a scope,
an inheritance, relates two nodes, puts a reference aside, or warns. A `Change` is one of these, and every
step of a build is a list of changes applied one after the other. So what a step does can be said once, as
a list, and an invariant has to be checked against eight changes and not against every step.

* `WorkingSet.apply`, `WorkingSet.applyAll` — what changes do;
* `WorkingSet.Holds` — what a working set holds, said in terms of changes: a set comes to hold what is
  applied to it and nothing else, except that a node may have been merged with others;
* `forall_holds_applyAll` — so a property that merging keeps is an invariant as soon as each single change
  has it;
* `mem_keys_applyAll` — node ids are never lost, and only the ids of folded nodes are gained;
* `Closed` — every id that a set mentions is the id of one of its nodes. Since ids are never lost, a list
  of changes keeps a set closed as soon as it is `Grounded`: each id that it mentions is there or is
  brought by the list itself, in whatever order (`Closed.applyAll`).
-/

namespace CodeAtlas

/-- **One change of a working set.** -/
inductive Change where
  | node (n : Node)
  | declaration (d : Declaration)
  | file (path id : String)
  | scope (path name : String)
  | relationship (r : Relationship)
  | reference (r : Reference)
  | inheritance (child parent : String)
  | warning (message : String)

/-- The ids of the nodes that a reference starts from. -/
def Reference.ids : Reference → List String
  | .supertype source _ _ => [source]
  | .extension source _ => [source]
  | .overriding member owner _ => [member, owner]
  | .annotated source _ => [source]
  | .call caller _ _ _ => [caller]
  | .importing .. => []

namespace Change

/-- The ids that a change mentions. -/
def ids : Change → List String
  | .node n => [n.id]
  | .declaration d => d.id :: d.origin.owner.toList
  | .file _ id => [id]
  | .scope _ _ => []
  | .relationship r => [r.source, r.target]
  | .reference r => r.ids
  | .inheritance child parent => [child, parent]
  | .warning _ => []

/-- The id of the node that a change folds in. -/
def nodeId? : Change → Option String
  | .node n => some n.id
  | _ => none

/-- The message of a change that warns. -/
def warning? : Change → Option String
  | .warning message => some message
  | _ => none

/-- A node folded in and entered as a declaration. -/
def declare (n : Node) (origin : Origin) : List Change :=
  [.node n, .declaration
    { id := n.id, simpleName := simpleName n.name, qualifiedName := n.qualifiedName, origin }]

end Change

/-- The ids of the nodes that a list of changes folds in. -/
def nodeIds (l : List Change) : List String :=
  l.filterMap Change.nodeId?

/-- An id is folded in if a node with it is. -/
theorem mem_nodeIds {l : List Change} {id : String} :
    id ∈ nodeIds l ↔ ∃ n, Change.node n ∈ l ∧ n.id = id := by
  unfold nodeIds
  rw [List.mem_filterMap]
  constructor
  · rintro ⟨c, hc, h⟩
    cases c with
    | node n => exact ⟨n, hc, Option.some.inj h⟩
    | _ => cases h
  · rintro ⟨n, hn, rfl⟩
    exact ⟨.node n, hn, rfl⟩

theorem nodeIds_append (l m : List Change) : nodeIds (l ++ m) = nodeIds l ++ nodeIds m :=
  List.filterMap_append

namespace WorkingSet

/-- The set after a change. -/
def apply (s : WorkingSet) : Change → WorkingSet
  | .node n => s.addNode n
  | .declaration d => { s with declarations := s.declarations.insertNew d }
  | .file path id => { s with files := s.files.insert path id }
  | .scope path name => s.setScope path name
  | .relationship r => s.relate r
  | .reference r => s.defer r
  | .inheritance child parent => s.addSupertype child parent
  | .warning message => s.warn message

/-- The set after a list of changes. -/
def applyAll (s : WorkingSet) (l : List Change) : WorkingSet :=
  l.foldl apply s

@[simp]
theorem applyAll_nil (s : WorkingSet) : s.applyAll [] = s := rfl

@[simp]
theorem applyAll_cons (s : WorkingSet) (c : Change) (l : List Change) :
    s.applyAll (c :: l) = (s.apply c).applyAll l := rfl

@[simp]
theorem applyAll_append (s : WorkingSet) (l m : List Change) :
    s.applyAll (l ++ m) = (s.applyAll l).applyAll m :=
  List.foldl_append

/-- Steps that are lists of changes, one for each item of a list. -/
theorem foldl_eq_applyAll {β : Type} {step : WorkingSet → β → WorkingSet} {changes : β → List Change}
    (h : ∀ s b, step s b = s.applyAll (changes b)) (l : List β) (s : WorkingSet) :
    l.foldl step s = s.applyAll (l.flatMap changes) := by
  -- On both sides the steps are taken one by one.
  induction l generalizing s with
  | nil => rfl
  | cons b l ih => rw [List.foldl_cons, List.flatMap_cons, applyAll_append, ih, h]

/-- References put aside one by one. -/
theorem deferAll_eq (s : WorkingSet) (l : List Reference) :
    s.deferAll l = s.applyAll (l.map .reference) := by
  induction l generalizing s with
  | nil =>
    change { s with pending := s.pending ++ [] } = s
    rw [List.append_nil]
  | cons r l ih =>
    rw [List.map_cons, applyAll_cons, ← ih]
    change { s with pending := s.pending ++ r :: l } = { s with pending := s.pending ++ [r] ++ l }
    rw [List.append_assoc, List.singleton_append]

/-- The warnings after a list of changes. -/
theorem warnings_applyAll (s : WorkingSet) (l : List Change) :
    (s.applyAll l).warnings = s.warnings ++ l.filterMap Change.warning? := by
  -- Only a change that warns adds to the warnings.
  induction l generalizing s with
  | nil => exact (List.append_nil _).symm
  | cons c l ih =>
    rw [applyAll_cons, ih, List.filterMap_cons]
    cases c with
    | warning message => exact List.append_assoc _ _ _
    | _ => rfl

/-! ### What a working set holds -/

/-- **What a working set holds**, said in terms of changes. -/
def Holds (s : WorkingSet) : Change → Prop
  | .node n => n ∈ s.nodes.entries
  | .declaration d => d ∈ s.declarations.entries
  | .file path id => s.files.get? path = some id
  | .scope path name => s.scopes.get? path = some name
  | .relationship r => r ∈ s.relationships.entries
  | .reference r => r ∈ s.pending
  | .inheritance child parent => (child, parent) ∈ s.supertypes.entries
  | .warning message => message ∈ s.warnings

/-- The empty set holds nothing. -/
theorem not_holds_empty (c : Change) : ¬ ({} : WorkingSet).Holds c := by
  cases c with
  | file path id => exact fun h => by simpa using (Keyed.get?_empty path).symm.trans h
  | scope path name => exact fun h => by simpa using (Keyed.get?_empty path).symm.trans h
  | _ => exact List.not_mem_nil

/-- What a set holds after a change was there before, or is that change, or is a node that was there with
the new one merged into it. -/
theorem holds_apply {s : WorkingSet} {c d : Change} (h : (s.apply c).Holds d) :
    s.Holds d ∨ d = c ∨
      ∃ a b, s.Holds (.node a) ∧ c = .node b ∧ a.id = b.id ∧ d = .node (a.mergeFrom b) := by
  -- Only a change of the same table can bring `d`; all others leave that table as it is.
  cases d with
  | node n =>
    cases c with
    | node b =>
      rcases Register.mem_upsert (h := id_mergeFrom) h with h | h | ⟨a, ha, hid, h⟩
      · exact .inl h
      · exact .inr (.inl (congrArg _ h))
      · exact .inr (.inr ⟨a, b, ha, rfl, hid, congrArg _ h⟩)
    | _ => exact .inl h
  | declaration d =>
    cases c with
    | declaration e => exact (Register.mem_insertNew h).imp id fun he => .inl (congrArg _ he)
    | _ => exact .inl h
  | file path id =>
    cases c with
    | file q i =>
      replace h : (s.files.insert q i).get? path = some id := h
      rw [Keyed.get?_insert] at h
      split at h
      · -- The new entry of the path hides the old one.
        rename_i hp
        exact .inr (.inl (by rw [hp, Option.some.inj h]))
      · exact .inl h
    | _ => exact .inl h
  -- Scopes are entered as files are.
  | scope path name =>
    cases c with
    | scope q i =>
      replace h : (s.scopes.insert q i).get? path = some name := h
      rw [Keyed.get?_insert] at h
      split at h
      · rename_i hp
        exact .inr (.inl (by rw [hp, Option.some.inj h]))
      · exact .inl h
    | _ => exact .inl h
  | relationship r =>
    cases c with
    | relationship e => exact (Register.mem_insertNew h).imp id fun he => .inl (congrArg _ he)
    | _ => exact .inl h
  | reference r =>
    cases c with
    | reference e =>
      exact (List.mem_append.1 h).imp id fun he => .inl (congrArg _ (List.mem_singleton.1 he))
    | _ => exact .inl h
  | inheritance child parent =>
    cases c with
    | inheritance a b =>
      refine (Register.mem_insertNew h).imp id fun he => .inl ?_
      obtain ⟨rfl, rfl⟩ := Prod.mk.inj he
      rfl
    | _ => exact .inl h
  | warning m =>
    cases c with
    | warning e =>
      exact (List.mem_append.1 h).imp id fun he => .inl (congrArg _ (List.mem_singleton.1 he))
    | _ => exact .inl h

/-- A property of what is held that merging keeps. -/
def Mergeable (Q : Change → Prop) : Prop :=
  ∀ a b : Node, a.id = b.id → Q (.node a) → Q (.node b) → Q (.node (a.mergeFrom b))

/-- **What holds of all that a set holds and of all changes** holds of all that it holds after the
changes. -/
theorem forall_holds_applyAll {Q : Change → Prop} (hm : Mergeable Q) {s : WorkingSet} {l : List Change}
    (hs : ∀ c, s.Holds c → Q c) (hl : ∀ c ∈ l, Q c) : ∀ c, (s.applyAll l).Holds c → Q c := by
  induction l generalizing s with
  | nil => exact hs
  | cons c l ih =>
    -- The invariant is carried over the first change; the rest is the induction hypothesis.
    refine ih (fun d hd => ?_) fun d hd => hl d (List.mem_cons_of_mem c hd)
    have hc : Q c := hl c List.mem_cons_self
    rcases holds_apply hd with hd | rfl | ⟨a, b, ha, rfl, hid, rfl⟩
    · exact hs d hd
    · exact hc
    · exact hm a b hid (hs _ ha) hc

/-- What holds of the nodes that are there and of those that are folded in holds of all, if merging keeps
it. -/
theorem forall_nodes_applyAll {P : Node → Prop} (hm : ∀ a b, P a → P b → P (a.mergeFrom b)) {s : WorkingSet}
    {l : List Change} (hs : ∀ n ∈ s.nodes.entries, P n) (hl : ∀ n, Change.node n ∈ l → P n) :
    ∀ n ∈ (s.applyAll l).nodes.entries, P n := by
  intro n hn
  -- Of the changes, only the nodes are spoken of; of all others the condition holds for free.
  refine forall_holds_applyAll (Q := fun c => ∀ m, c = .node m → P m) ?_ ?_ ?_ (.node n) hn n rfl
  · intro a b _ ha hb m hnode
    rw [← Change.node.inj hnode]
    exact hm a b (ha a rfl) (hb b rfl)
  · rintro c hc m rfl
    exact hs m hc
  · rintro c hc m rfl
    exact hl m hc

/-! ### Ids of nodes -/

/-- One change adds the id of the node that it folds in, and takes none away. -/
theorem mem_keys_apply {s : WorkingSet} {c : Change} {id : String} :
    id ∈ (s.apply c).nodes.keys ↔ id ∈ s.nodes.keys ∨ c.nodeId? = some id := by
  cases c with
  | node n =>
    change id ∈ (s.nodes.upsert Node.mergeFrom id_mergeFrom n).keys ↔ _
    rw [Register.mem_keys_upsert]
    exact or_congr Iff.rfl ⟨fun h => congrArg some h.symm, fun h => (Option.some.inj h).symm⟩
  | _ => exact ⟨.inl, fun h => h.elim (fun h => h) fun h => nomatch h⟩

/-- **Node ids are never lost**, and only the ids of folded nodes are gained. -/
theorem mem_keys_applyAll {s : WorkingSet} {l : List Change} {id : String} :
    id ∈ (s.applyAll l).nodes.keys ↔ id ∈ s.nodes.keys ∨ id ∈ nodeIds l := by
  induction l generalizing s with
  | nil => simp [nodeIds]
  | cons c l ih =>
    rw [applyAll_cons, ih, mem_keys_apply]
    unfold nodeIds
    rw [List.filterMap_cons]
    cases h : c.nodeId? with
    | none => simp
    | some i => simp [or_assoc, eq_comm]

/-- Only nodes have kinds. -/
theorem mem_keys_of_kind? {s : WorkingSet} {id : String} {k : NodeKind} (h : s.kind? id = some k) :
    id ∈ s.nodes.keys := by
  unfold kind? node? at h
  obtain ⟨n, hn, -⟩ := Option.map_eq_some_iff.1 h
  exact Register.isSome_get?_iff.1 (by rw [hn]; rfl)

/-! ### Closed working sets -/

/-- **Every id that the set mentions is the id of one of its nodes.** -/
def Closed (s : WorkingSet) : Prop :=
  ∀ c, s.Holds c → ∀ id ∈ c.ids, id ∈ s.nodes.keys

theorem Closed.empty : Closed {} :=
  fun c h => absurd h (not_holds_empty c)

/-- **Changes that mention only ids that are there or that they bring along**, in whatever order. -/
def Grounded (s : WorkingSet) (l : List Change) : Prop :=
  ∀ c ∈ l, ∀ id ∈ c.ids, id ∈ s.nodes.keys ∨ id ∈ nodeIds l

theorem Grounded.nil (s : WorkingSet) : s.Grounded [] :=
  fun _ hc => nomatch hc

/-- Further changes may also mention what the earlier ones bring along. -/
theorem Grounded.append {s : WorkingSet} {l m : List Change} (hl : s.Grounded l)
    (hm : ∀ c ∈ m, ∀ id ∈ c.ids, id ∈ s.nodes.keys ∨ id ∈ nodeIds l) : s.Grounded (l ++ m) := by
  intro c hc id hid
  have h : id ∈ s.nodes.keys ∨ id ∈ nodeIds l := by
    rcases List.mem_append.1 hc with hc | hc
    · exact hl c hc id hid
    · exact hm c hc id hid
  rw [nodeIds_append]
  exact h.imp_right (List.mem_append_left _)

/-- Grounded changes keep a set closed. -/
theorem Closed.applyAll {s : WorkingSet} {l : List Change} (hs : Closed s) (hl : s.Grounded l) :
    Closed (s.applyAll l) := by
  -- The ids are those of the final set, so the order of the changes does not matter.
  refine forall_holds_applyAll (Q := fun c => ∀ id ∈ c.ids, id ∈ (s.applyAll l).nodes.keys) ?_ ?_ ?_
  · intro a b hid ha _ id hid'
    obtain rfl := List.mem_singleton.1 hid'
    rw [id_mergeFrom a b hid]
    exact ha a.id List.mem_cons_self
  · exact fun c hc id hid => mem_keys_applyAll.2 (.inl (hs c hc id hid))
  · exact fun c hc id hid => mem_keys_applyAll.2 (hl c hc id hid)

/-- The files of a closed set have nodes. -/
theorem Closed.file {s : WorkingSet} (hs : Closed s) {path id : String}
    (h : s.files.get? path = some id) : id ∈ s.nodes.keys :=
  hs (.file path id) h id (List.mem_singleton.2 rfl)

/-- Leaving references out keeps a set closed. -/
theorem Closed.withPending {s : WorkingSet} (hs : Closed s) : Closed { s with pending := [] } := by
  intro c hc
  cases c with
  | reference r => exact absurd hc List.not_mem_nil
  | _ => exact hs _ hc

end WorkingSet

end CodeAtlas
