import CodeAtlas.Proofs.Search
import CodeAtlas.Store.Request

/-!
# The inheritance below a root

A request for the inheritance below a root shows the rows that a query fetched as a breadth-first view. Each
row leads from a parent down to a child. Rows make up any graph on the names of types: there may be cycles
and diamonds, and the same row may come twice.

`BelowRoot` says what the view is. A row is shown if its parent is the root or can be reached from it, and
then as often as it was fetched; its depth is one more than the distance of its parent; and no row comes
before one of a smaller depth. That the answer has this form (`ask_inheritance`) is what `Reach.exists_walk`
says of the search. What the request does before it searches does not matter: it names relationships by their
public labels, which leaves parents and children alone, and it sorts the rows, which leaves their paths alone.
-/

namespace CodeAtlas

namespace Request

/-- **The way down from one type to another** along `n` rows. -/
def Descends (rows : List Row) (n : Nat) (top bottom : String) : Prop :=
  Reach.Path (Row.text · "child") (rows.map fun r => (r.text "parent", r)) n top bottom

/-- **The rows below a root, with their depths**, as a breadth-first view of the rows that were fetched. -/
structure BelowRoot (root : String) (fetched : List Row) (view : List (Row × Nat)) : Prop where
  /-- Every fetched row is shown once, or its parent is out of reach. -/
  shown_once : ∃ left, (view.map (·.1) ++ left).Perm fetched ∧
    ∀ r ∈ left, ∀ n, ¬ Descends fetched n root (r.text "parent")
  /-- The depth of a row is one more than the length of the shortest way to its parent. -/
  depth_eq : ∀ v ∈ view, ∃ n, v.2 = n + 1 ∧ Descends fetched n root (v.1.text "parent") ∧
    ∀ m, Descends fetched m root (v.1.text "parent") → n ≤ m
  ordered : view.Pairwise fun v w => v.2 ≤ w.2

/-! ### Rows before the search -/

/-- The public label of a relationship changes no other column. -/
theorem text_publicLabel (r : Row) {column : String} (h : column ≠ "relationship") :
    (publicLabel r).text column = r.text column := by
  unfold publicLabel
  split
  · next k _ =>
    unfold Row.text
    rw [Keyed.get?_insert, if_neg h]
  · rfl

/-- The parents of rows are not what public labels change. -/
theorem parent_ne_relationship : "parent" ≠ "relationship" := by
  decide

theorem child_ne_relationship : "child" ≠ "relationship" := by
  decide

/-- A way down does not depend on the order of the rows. -/
theorem Descends.of_perm {rows rows' : List Row} (h : rows.Perm rows') {n : Nat} {top bottom : String}
    (d : Descends rows n top bottom) : Descends rows' n top bottom := by
  refine Reach.Path.mono ?_ d
  intro e he
  exact (h.map _).subset he

/-- The order of the rows does not matter for the view of them. -/
theorem BelowRoot.of_perm {root : String} {rows rows' : List Row} {view : List (Row × Nat)}
    (hperm : rows.Perm rows') (h : BelowRoot root rows view) : BelowRoot root rows' view where
  shown_once := by
    -- What was out of reach still is.
    obtain ⟨left, hleft, hout⟩ := h.shown_once
    refine ⟨left, hleft.trans hperm, ?_⟩
    intro r hr n hn
    exact hout r hr n (hn.of_perm hperm.symm)
  depth_eq := by
    intro v hv
    obtain ⟨n, hn, hdown, hleast⟩ := h.depth_eq v hv
    exact ⟨n, hn, hdown.of_perm hperm, fun m hm => hleast m (hm.of_perm hperm.symm)⟩
  ordered := h.ordered

/-! ### The search -/

/-- **The search through rows gives their breadth-first view.** -/
theorem belowRoot_visits (root : String) (rows : List Row) :
    BelowRoot root rows
      (Reach.visits (Row.text · "child") (rows.map fun r => (r.text "parent", r)) [(root, 0)]) := by
  obtain ⟨walked, left, hvisits, hwalk⟩ :=
    Reach.exists_walk (Row.text · "child") (rows.map fun r => (r.text "parent", r)) [(root, 0)]
      (Reach.layered_singleton _)
  -- An edge starts at the parent of the row that it carries.
  have hparent : ∀ e ∈ walked.map (·.1) ++ left, e.1 = e.2.text "parent" := by
    intro e he
    obtain ⟨r, -, rfl⟩ := List.mem_map.mp (hwalk.perm.subset he)
    rfl
  rw [hvisits]
  -- The walk of the search, said of the rows that its edges carry.
  refine ⟨⟨left.map (·.2), ?_, ?_⟩, ?_, ?_⟩
  · have hrows := hwalk.perm.map Prod.snd
    rw [List.map_append, List.map_map, List.map_map] at hrows
    rw [List.map_map]
    refine hrows.trans (List.Perm.of_eq ?_)
    exact List.map_id rows
  · intro r hr n hn
    obtain ⟨e, he, rfl⟩ := List.mem_map.mp hr
    refine hwalk.left_unmet e he n (Reach.met_singleton.mpr ?_)
    rw [hparent e (List.mem_append_right _ he)]
    exact hn
  · intro v hv
    obtain ⟨w, hw, rfl⟩ := List.mem_map.mp hv
    obtain ⟨n, hn, hfirst⟩ := hwalk.depth_eq w hw
    obtain ⟨hpath, hleast⟩ := Reach.metFirst_singleton.mp hfirst
    rw [hparent w.1 (List.mem_append_left _ (List.mem_map_of_mem hw))] at hpath hleast
    exact ⟨n, hn, hpath, hleast⟩
  · rw [List.pairwise_map]
    exact hwalk.ordered

/-- A row of the view as it is answered: by its public label and with its depth. -/
def shownBelow (v : Row × Nat) : Json :=
  Row.toJson ((publicLabel v.1).insert "depth" (.int v.2))

/-- Labels can be put on before the search or after it. -/
theorem below_map_publicLabel (root : String) (rows : List Row) :
    below root (rows.map publicLabel)
      = (Reach.visits (Row.text · "child") (rows.map fun r => (r.text "parent", r)) [(root, 0)]).map
          fun v => (publicLabel v.1).insert "depth" (.int v.2) := by
  -- With their public labels the rows make up the same graph.
  have hedges : (rows.map publicLabel).map (fun r => (r.text "parent", r))
      = (rows.map fun r => (r.text "parent", r)).map fun e => (e.1, publicLabel e.2) := by
    rw [List.map_map, List.map_map]
    refine List.map_congr_left ?_
    intro r _
    simp only [Function.comp_apply, text_publicLabel r parent_ne_relationship]
  have hchild : (fun r => (publicLabel r).text "child") = fun r : Row => r.text "child" := by
    funext r
    exact text_publicLabel r child_ne_relationship
  unfold below
  dsimp only
  rw [hedges, Reach.visits_map, hchild, List.map_map]
  rfl

/-- **The rows that a request shapes are the breadth-first view of the rows that it was given.** -/
theorem exists_view (space : Namespace) (root : String) (rows : List Row) :
    ∃ view, BelowRoot root rows view ∧
      (inheritance space (some root)).inquiry.shape [rows] = view.map shownBelow := by
  let key : Row → String × String := fun r => (r.text "parent", r.text "child")
  let sorted := Row.sortedBy Row.pairLe key rows
  have hkey : ∀ r, key (publicLabel r) = key r := by
    intro r
    simp only [key, text_publicLabel r parent_ne_relationship, text_publicLabel r child_ne_relationship]
  -- Labels and order can be exchanged, since labels are not sorted by.
  have hsorted : Row.sortedBy Row.pairLe key (rows.map publicLabel) = sorted.map publicLabel := by
    refine (List.map_mergeSort ?_).symm
    intro r _ r' _
    rw [hkey, hkey]
  have hperm : sorted.Perm rows := List.mergeSort_perm rows _
  refine ⟨_, (belowRoot_visits root sorted).of_perm hperm, ?_⟩
  change (below root (Row.sortedBy Row.pairLe key (rows.map publicLabel))).map Row.toJson = _
  rw [hsorted, below_map_publicLabel, List.map_map]
  rfl

/-- A request that is not refused shapes the rows of its queries. -/
theorem ask_eq {σ : Type} {session : Session σ} {request : Request} {s s' : σ} {rows : List (List Row)}
    (hrefusal : request.inquiry.refusal = none)
    (hrows : session.queryAll request.inquiry.queries s = (.ok rows, s')) :
    ask session request s
      = ({ data := request.inquiry.shape rows
           queryText := Text.joined ";\n" (request.inquiry.queries.map GraphQuery.text) }, s') := by
  unfold ask
  dsimp only
  rw [hrefusal, hrows]

/-- **A request for the inheritance below a root answers with the breadth-first view** of the rows that the
session returns, whatever graph these make up. -/
theorem ask_inheritance {σ : Type} (session : Session σ) (space : Namespace) (root : String)
    (rows : List Row) (s s' : σ)
    (h : session.queryAll (inheritance space (some root)).inquiry.queries s = (.ok [rows], s')) :
    ∃ view, BelowRoot root rows view ∧
      (ask session (inheritance space (some root)) s).1.success = true ∧
      (ask session (inheritance space (some root)) s).1.data = view.map shownBelow := by
  obtain ⟨view, hview, hshape⟩ := exists_view space root rows
  refine ⟨view, hview, ?_⟩
  rw [ask_eq rfl h]
  exact ⟨rfl, hshape⟩

/-- A row that leads from a parent to a child. -/
def link (parent child : String) : Row :=
  Keyed.ofList [("child", .str child), ("parent", .str parent), ("relationship", .str "JAVA_EXTENDS")]

/-- A diamond with the row of one side fetched twice, a way back to the top, and a row elsewhere. -/
def diamond : List Row :=
  [link "A" "B", link "A" "C", link "B" "D", link "C" "D", link "C" "D", link "D" "A", link "X" "Y"]

/-- A session that answers every query with the rows of the diamond. -/
def diamondSession : Session Unit where
  execute := fun _ s => (.ok 0, s)
  query := fun _ s => (.ok diamond, s)

/-- The diamond is answered with a view of its rows. -/
theorem ask_inheritance_diamond :
    ∃ view, BelowRoot "A" diamond view ∧
      (ask diamondSession (inheritance .java (some "A")) ()).1.success = true ∧
      (ask diamondSession (inheritance .java (some "A")) ()).1.data = view.map shownBelow :=
  ask_inheritance diamondSession .java "A" diamond () () rfl

example : (below "A" diamond).map (fun r => (r.text "parent", r.text "child", r.text "depth"))
    = [("A", "B", "1"), ("A", "C", "1"), ("B", "D", "2"), ("C", "D", "2"), ("C", "D", "2"),
      ("D", "A", "3")] := by
  decide +kernel

end Request

end CodeAtlas
