import CodeAtlas.Proofs.Change

/-!
# The tables of a working set

A list of changes mixes changes of eight sorts, and each sort goes to a table of its own. Here the sorts are
taken apart (`Change.node?`, `Change.relationship?` and so on), and `WorkingSet.applyAll_eq` says what
becomes of the tables: each is built from the changes of its sort alone, in their order.
-/

namespace CodeAtlas

namespace Change

/-- The node that a change folds in. -/
def node? : Change → Option Node
  | .node n => some n
  | _ => none

/-- The relationship that a change adds. -/
def relationship? : Change → Option Relationship
  | .relationship r => some r
  | _ => none

/-- The declaration that a change enters. -/
def declaration? : Change → Option Declaration
  | .declaration d => some d
  | _ => none

/-- The path and the id of the file that a change enters. -/
def file? : Change → Option (String × String)
  | .file path id => some (path, id)
  | _ => none

/-- The path and the name of the scope that a change enters. -/
def scope? : Change → Option (String × String)
  | .scope path name => some (path, name)
  | _ => none

/-- The reference that a change puts aside. -/
def reference? : Change → Option Reference
  | .reference r => some r
  | _ => none

/-- The child and the parent of the inheritance that a change enters. -/
def inheritance? : Change → Option (String × String)
  | .inheritance child parent => some (child, parent)
  | _ => none

/-- The nodes among changes. -/
theorem mem_filterMap_node? {l : List Change} {n : Node} :
    n ∈ l.filterMap node? ↔ Change.node n ∈ l := by
  rw [List.mem_filterMap]
  constructor
  · rintro ⟨c, hc, h⟩
    cases c with
    | node m => exact Option.some.inj h ▸ hc
    | _ => cases h
  · exact fun h => ⟨_, h, rfl⟩

/-- The relationships among changes. -/
theorem mem_filterMap_relationship? {l : List Change} {r : Relationship} :
    r ∈ l.filterMap relationship? ↔ Change.relationship r ∈ l := by
  rw [List.mem_filterMap]
  constructor
  · rintro ⟨c, hc, h⟩
    cases c with
    | relationship m => exact Option.some.inj h ▸ hc
    | _ => cases h
  · exact fun h => ⟨_, h, rfl⟩

/-- References are put aside, and nothing else is done with them. -/
theorem filterMap_references {α : Type} (pick : Change → Option α)
    (h : ∀ r, pick (.reference r) = none) (refs : List Reference) :
    (refs.map Change.reference).filterMap pick = [] := by
  rw [List.filterMap_map, List.filterMap_eq_nil_iff]
  exact fun r _ => h r

end Change

/-- The register with nodes folded in. -/
def Register.foldNodes (r : Register Node Node.id) (l : List Node) : Register Node Node.id :=
  l.foldl (fun r a => r.upsert Node.mergeFrom WorkingSet.id_mergeFrom a) r

namespace WorkingSet

/-- **The tables of a working set** are each built from the changes of one sort. -/
theorem applyAll_eq (s : WorkingSet) (l : List Change) :
    s.applyAll l =
      { nodes := s.nodes.foldNodes (l.filterMap Change.node?)
        relationships := (l.filterMap Change.relationship?).foldl Register.insertNew s.relationships
        declarations := (l.filterMap Change.declaration?).foldl Register.insertNew s.declarations
        pending := s.pending ++ l.filterMap Change.reference?
        files := (l.filterMap Change.file?).foldl (fun m e => m.insert e.1 e.2) s.files
        scopes := (l.filterMap Change.scope?).foldl (fun m e => m.insert e.1 e.2) s.scopes
        supertypes := (l.filterMap Change.inheritance?).foldl Register.insertNew s.supertypes
        warnings := s.warnings ++ l.filterMap Change.warning? } := by
  -- By induction on the changes, from any set on.
  induction l generalizing s with
  | nil =>
    simp only [List.filterMap_nil, List.append_nil]
    rfl
  | cons c l ih =>
    rw [applyAll_cons, ih]
    -- References and warnings go to the end of a list; all other changes are folded in front.
    cases c with
    | reference r =>
      simp only [apply, defer, List.append_assoc]
      rfl
    | warning m =>
      simp only [apply, warn, List.append_assoc]
      rfl
    | _ => rfl

end WorkingSet

end CodeAtlas
