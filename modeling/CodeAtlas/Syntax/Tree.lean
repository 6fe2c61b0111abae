import CodeAtlas.Record.Basic

/-!
# Syntax trees

The tree that a parser makes of a source, with what a walk can ask of a node: its kind, whether it is named (a
keyword or a bracket is not), the field of its parent in which it stands, its source text, where it starts,
and the rows over which it extends. Rows are counted from zero and lines from one.

A parser promises of its trees that no node ends before it starts and that every node extends around its
children. A `SyntaxTree` is a tree with this promise, and `SyntaxTree.ofNode` makes one of any node.
-/

namespace CodeAtlas

/-- **What a node says of itself.** -/
structure NodeInfo where
  kind : String
  isNamed : Bool := true
  /-- The field of the parent in which the node stands. -/
  field : Option String := none
  text : List Char := []
  /-- The number of bytes before the node. -/
  offset : Nat := 0
  firstRow : Nat
  lastRow : Nat
  deriving Repr

namespace NodeInfo

/-- The line on which a node starts. -/
def line (i : NodeInfo) : Nat := i.firstRow + 1

/-- The lines of a node. -/
def span (i : NodeInfo) : Span := Span.new (i.firstRow + 1) (i.lastRow + 1)

/-- **The rows of a node lie among those of another.** -/
structure Within (inner outer : NodeInfo) : Prop where
  firstRow_le : outer.firstRow ≤ inner.firstRow
  lastRow_le : inner.lastRow ≤ outer.lastRow

/-- A node that extends around another one too. -/
def extend (i j : NodeInfo) : NodeInfo :=
  { i with firstRow := min i.firstRow j.firstRow, lastRow := max i.lastRow j.lastRow }

theorem Within.trans {i j k : NodeInfo} (hij : i.Within j) (hjk : j.Within k) : i.Within k where
  firstRow_le := Nat.le_trans hjk.firstRow_le hij.firstRow_le
  lastRow_le := Nat.le_trans hij.lastRow_le hjk.lastRow_le

theorem within_extend_left (i j : NodeInfo) : i.Within (i.extend j) where
  firstRow_le := Nat.min_le_left _ _
  lastRow_le := Nat.le_max_left _ _

theorem within_extend_right (i j : NodeInfo) : j.Within (i.extend j) where
  firstRow_le := Nat.min_le_right _ _
  lastRow_le := Nat.le_max_right _ _

end NodeInfo

/-- **A node of a syntax tree.** -/
inductive SyntaxNode where
  | mk (info : NodeInfo) (children : List SyntaxNode)

namespace SyntaxNode

/-! ### Questions to a node -/

/-- What the node says of itself. -/
def info : SyntaxNode → NodeInfo
  | ⟨info, _⟩ => info

/-- The children of a node, in the order of the source. -/
def children : SyntaxNode → List SyntaxNode
  | ⟨_, children⟩ => children

/-- The kind of a node. -/
def kind (n : SyntaxNode) : String := n.info.kind

/-- The source text of a node. -/
def text (n : SyntaxNode) : List Char := n.info.text

/-- The source text of a node as it stands. -/
def string (n : SyntaxNode) : String := String.ofList n.text

/-- The source text of a node on one line, with single spaces. -/
def squashed (n : SyntaxNode) : String := String.ofList (Text.squash n.text)

/-- Whether a node has one of the given kinds. -/
def isAny (n : SyntaxNode) (kinds : List String) : Bool := kinds.contains n.kind

/-- The children that are named. -/
def namedChildren (n : SyntaxNode) : List SyntaxNode :=
  n.children.filter fun c => c.info.isNamed

/-- The children in a field. -/
def childrenIn (n : SyntaxNode) (field : String) : List SyntaxNode :=
  n.children.filter fun c => c.info.field == some field

/-- The first child in a field. -/
def childIn? (n : SyntaxNode) (field : String) : Option SyntaxNode :=
  n.children.find? fun c => c.info.field == some field

/-- A child that is found under a field is a child. -/
theorem mem_children_of_childIn? {n c : SyntaxNode} {field : String} (h : n.childIn? field = some c) :
    c ∈ n.children :=
  List.mem_of_find?_eq_some h

/-! ### Nodes seen in another way -/

/-- The node in a field. -/
def inField (field : String) (n : SyntaxNode) : SyntaxNode :=
  ⟨{ n.info with field := some field }, n.children⟩

/-- The node with another kind. -/
def withKind (kind : String) (n : SyntaxNode) : SyntaxNode :=
  ⟨{ n.info with kind }, n.children⟩

/-! ### Nodes that extend around their children -/

mutual

/-- **What a parser promises of a node**: neither the node nor anything below it ends before it starts, and
every node extends around its children. -/
def Nested : SyntaxNode → Prop
  | ⟨info, children⟩ => info.firstRow ≤ info.lastRow ∧ NestedIn info children

/-- The promise for the children of a node. -/
def NestedIn (outer : NodeInfo) : List SyntaxNode → Prop
  | [] => True
  | c :: rest => (c.info.Within outer ∧ c.Nested) ∧ NestedIn outer rest

end

/-- Nodes are nested in a place if each of them lies there and is nested itself. -/
theorem nestedIn_iff {outer : NodeInfo} {l : List SyntaxNode} :
    NestedIn outer l ↔ ∀ c ∈ l, c.info.Within outer ∧ c.Nested := by
  induction l with
  | nil => simp [NestedIn]
  | cons c rest ih => rw [NestedIn, ih, List.forall_mem_cons]

/-- A child lies in its parent, and the promise holds of it. -/
theorem Nested.of_mem {n c : SyntaxNode} (h : n.Nested) (hc : c ∈ n.children) :
    c.info.Within n.info ∧ c.Nested := by
  obtain ⟨info, children⟩ := n
  rw [Nested, nestedIn_iff] at h
  exact h.2 c hc

mutual

/-- The node with every node below it extended around its children. -/
def extended : SyntaxNode → SyntaxNode
  | ⟨info, children⟩ =>
    let children := extendedAll children
    let own := { info with lastRow := max info.firstRow info.lastRow }
    ⟨children.foldr (fun c i => i.extend c.info) own, children⟩

/-- The nodes extended around their children. -/
def extendedAll : List SyntaxNode → List SyntaxNode
  | [] => []
  | c :: rest => c.extended :: extendedAll rest

end

/-- A place that is extended over some nodes loses nothing. -/
theorem within_foldr_extend (own : NodeInfo) (l : List SyntaxNode) :
    own.Within (l.foldr (fun c i => i.extend c.info) own) := by
  induction l with
  | nil => exact ⟨Nat.le_refl _, Nat.le_refl _⟩
  | cons c rest ih => exact ih.trans (NodeInfo.within_extend_left _ _)

theorem within_foldr_extend_of_mem {own : NodeInfo} {l : List SyntaxNode} {c : SyntaxNode} (hc : c ∈ l) :
    c.info.Within (l.foldr (fun c i => i.extend c.info) own) := by
  induction l with
  | nil => cases hc
  | cons d rest ih =>
    rcases List.mem_cons.mp hc with rfl | hc
    · exact NodeInfo.within_extend_right _ _
    · exact (ih hc).trans (NodeInfo.within_extend_left _ _)

mutual

/-- A tree is nested once its places are extended. -/
theorem nested_extended : (n : SyntaxNode) → n.extended.Nested
  | ⟨info, children⟩ => by
    rw [extended, Nested, nestedIn_iff]
    have hown := within_foldr_extend { info with lastRow := max info.firstRow info.lastRow }
      (extendedAll children)
    refine ⟨?_, ?_⟩
    · have hordered := Nat.le_trans (Nat.le_max_left info.firstRow info.lastRow) hown.lastRow_le
      exact Nat.le_trans hown.firstRow_le hordered
    · intro c hc
      exact ⟨within_foldr_extend_of_mem hc, nested_extendedAll children c hc⟩

theorem nested_extendedAll : (l : List SyntaxNode) → ∀ c ∈ extendedAll l, c.Nested
  | [] => fun _ hc => by cases hc
  | d :: rest => by
    rw [extendedAll, List.forall_mem_cons]
    exact ⟨nested_extended d, nested_extendedAll rest⟩

end

end SyntaxNode

/-- **A syntax tree** as a parser delivers it. -/
structure SyntaxTree where
  root : SyntaxNode
  nested : root.Nested

/-- The tree of a node, with every node extended around its children. -/
def SyntaxTree.ofNode (n : SyntaxNode) : SyntaxTree where
  root := n.extended
  nested := n.nested_extended

end CodeAtlas
