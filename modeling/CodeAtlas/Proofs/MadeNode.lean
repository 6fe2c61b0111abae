import CodeAtlas.Store.Contents
import CodeAtlas.Proofs.RecordParts

/-!
# Nodes that are made for a file

The node of a file and the nodes of its declarations differ in kind, name and properties, but they are all
made in one way: a node with the path of the file, on which properties are set one by one (`Node.Made`).
What does not depend on the properties that are set can be said of all of them at once: they keep the path of
the file (`Made.path_eq`), and none of them is marked as a stand-in (`Made.get?_stub`).

That the nodes of a file are made so is checked property by property, once for each sort of declaration, and
then put together for all nodes of a record (`FileSite.made_recordNodes`).
-/

namespace CodeAtlas

namespace Node

/-- Whether a declaration may set a property: its name is one that a store accepts, and not the one that is
kept for stand-ins. -/
def isDeclaredField (key : String) : Bool :=
  isFieldName key && key != "stub"

/-- The test says what it should. -/
theorem isDeclaredField_iff {key : String} :
    isDeclaredField key = true ↔ isFieldName key = true ∧ key ≠ "stub" := by
  unfold isDeclaredField
  rw [Bool.and_eq_true, bne_iff_ne]

/-- **A node that is made for a file**: it has the path of the file, and its properties are set one by
one. -/
inductive Made (path : String) : Node → Prop where
  | withId (id : String) (kind : NodeKind) (qualified name : String) (line : Option Nat) :
    Made path (withId id kind qualified name (Path.normalize path) line)
  | set {n : Node} {key : String} (v : Property) : isDeclaredField key = true → Made path n →
    Made path (n.set key v)

namespace Made

variable {path : String} {n : Node}

/-- A property that is set only if it has a value keeps a node made. -/
theorem setIfPresent {key : String} (v : Property) (hk : isDeclaredField key = true) (h : n.Made path) :
    (n.setIfPresent key v).Made path := by
  unfold Node.setIfPresent
  split
  · exact h
  · exact .set v hk h

theorem setText? {key : String} (v : Option String) (hk : isDeclaredField key = true) (h : n.Made path) :
    (n.setText? key v).Made path := by
  cases v with
  | none => exact h
  | some s => exact h.setIfPresent _ hk

/-- Setting properties leaves the path alone. -/
theorem path_eq (h : n.Made path) : n.path = Path.normalize path := by
  induction h with
  | withId id kind qualified name line => rfl
  | set v _ _ ih => exact ih

/-- A node that is made for a file is not marked as a stand-in. -/
theorem get?_stub (h : n.Made path) : n.properties.get? "stub" = none := by
  induction h with
  | withId id kind qualified name line => rfl
  | set v hk _ ih =>
    have hkey := (isDeclaredField_iff.1 hk).2
    unfold Node.set
    rw [Keyed.get?_insert, if_neg (Ne.symm hkey)]
    exact ih

end Made

end Node

/-- The node of a type is made so. -/
theorem TypeDecl.made_node (d : TypeDecl) (kind : NodeKind) (qualified path : String) :
    (d.node kind qualified path).Made path := by
  unfold TypeDecl.node
  -- From the last property to the first one.
  refine .set _ (by decide) (.set _ (by decide) ?_)
  refine .setText? _ (by decide) (.setText? _ (by decide) ?_)
  refine .setIfPresent _ (by decide) (.setIfPresent _ (by decide) (.setText? _ (by decide) ?_))
  refine .setIfPresent _ (by decide) (.setIfPresent _ (by decide) ?_)
  refine .setIfPresent _ (by decide) (.setIfPresent _ (by decide) ?_)
  exact .withId _ _ _ _ _

/-- The node of a callable is made so. -/
theorem CallableDecl.made_node (d : CallableDecl) (kind : NodeKind) (qualified path : String) :
    (d.node kind qualified path).Made path := by
  unfold CallableDecl.node
  refine .set _ (by decide) (.set _ (by decide) (.set _ (by decide) (.set _ (by decide) ?_)))
  refine .setIfPresent _ (by decide) (.setIfPresent _ (by decide) ?_)
  refine .setText? _ (by decide) (.setText? _ (by decide) ?_)
  refine .setText? _ (by decide) (.setText? _ (by decide) (.setIfPresent _ (by decide) ?_))
  refine .set _ (by decide) (.set _ (by decide) (.set _ (by decide) ?_))
  exact .withId _ _ _ _ _

/-- The node of a field is made so. -/
theorem FieldDecl.made_node (d : FieldDecl) (kind : NodeKind) (qualified path : String) :
    (d.node kind qualified path).Made path := by
  unfold FieldDecl.node
  refine .setIfPresent _ (by decide) (.setIfPresent _ (by decide) ?_)
  refine .setText? _ (by decide) (.setText? _ (by decide) (.setText? _ (by decide) ?_))
  exact .withId _ _ _ _ _

/-- The node of an import is made so. -/
theorem ImportDecl.made_node (d : ImportDecl) (kind : NodeKind) (path : String) :
    (d.node kind path).Made path := by
  -- The three properties that every import has come before the one that it may lack.
  have hmade : ∀ qualified name (a b c : Property) line, Node.Made path
      ((((Node.declared kind qualified name path line).set "qualified_name" a).set "statement" b).set
        "path" c) := fun _ _ _ _ _ _ =>
    .set _ (by decide) (.set _ (by decide) (.set _ (by decide) (.withId _ _ _ _ _)))
  unfold ImportDecl.node
  cases d.localName with
  | none => exact .set _ (by decide) (.set _ (by decide) (hmade _ _ _ _ _ _))
  | some a => exact .set _ (by decide) (.set _ (by decide) (.set _ (by decide) (hmade _ _ _ _ _ _)))

/-- The node of a file is made so. -/
theorem ParsedFile.made_node (f : ParsedFile) : f.node.Made f.path := by
  unfold ParsedFile.node
  refine .set _ (by decide) (.set _ (by decide) (.set _ (by decide) (.set _ (by decide) ?_)))
  exact .withId _ _ _ _ _

namespace FileSite

/-- The node of a scope is made so. -/
theorem made_scopeNode? {f : FileSite} {scope : Option RecordScope} {e : String × Node}
    (h : f.scopeNode? scope = some e) : e.2.Made f.path := by
  cases scope with
  | none => cases h
  | some scope =>
    unfold scopeNode? at h
    dsimp only at h
    split at h
    · cases h
    · obtain rfl := Option.some.inj h
      exact .setText? _ (by decide) (.withId _ _ _ _ _)

/-- The path does not change inside a scope. -/
theorem path_enter (f : FileSite) (scope : Option RecordScope) : (f.enter scope).path = f.path := by
  unfold enter
  cases f.scopeNode? scope with
  | none => rfl
  | some e => rfl

theorem path_inside (f : FileSite) (r : SourceRecord) : (f.inside r).path = f.path := by
  unfold inside
  rw [withTypes_eq]
  exact f.path_enter r.scope?

/-- **The nodes of a record are made for its file.** -/
theorem made_recordNodes (f : FileSite) (r : SourceRecord) : ∀ n ∈ f.recordNodes r, n.Made f.path := by
  intro n hn
  unfold recordNodes at hn
  simp only [List.mem_append, List.mem_map] at hn
  have hpath := f.path_inside r
  -- The scope, the imports, the types, the callables and the fields.
  rcases hn with (((⟨e, he, rfl⟩ | ⟨d, -, rfl⟩) | ⟨d, -, rfl⟩) | ⟨d, -, rfl⟩) | ⟨d, -, rfl⟩
  · exact made_scopeNode? (Option.mem_toList.1 he)
  · exact hpath ▸ d.made_node _ _
  · exact hpath ▸ d.made_node _ _ _
  · exact hpath ▸ d.made_node _ _ _
  · exact hpath ▸ d.made_node _ _ _

end FileSite

end CodeAtlas
