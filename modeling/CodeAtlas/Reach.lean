/-!
# Search along edges

Breadth-first search in a graph that is given by its list of edges. A place is visited when it leaves the
queue; its edges then leave the graph and what they lead to joins the queue. A place that comes up again
has no edges left, so it is visited a second time to no effect and no set of visited places is needed.
Each step takes one place off the queue and moves edges from the graph to the queue, so the number of
edges and queued places together goes down by one.

* `Reach.nearest?` — the first answer that a visit gives;
* `Reach.visits` — the edges in the order in which they are walked, with their depth;
* `Reach.reachable` — the places that one edge or more lead to.
-/

namespace CodeAtlas.Reach

variable {α β : Type} [DecidableEq α]

/-- The edges that start at a place. -/
def outgoing (a : α) (edges : List (α × β)) : List (α × β) :=
  edges.filter fun e => e.1 = a

/-- The edges that start elsewhere. -/
def others (a : α) (edges : List (α × β)) : List (α × β) :=
  edges.filter fun e => e.1 ≠ a

/-- Each edge starts at the place or elsewhere. -/
theorem length_outgoing_add_others (a : α) (edges : List (α × β)) :
    (outgoing a edges).length + (others a edges).length = edges.length := by
  induction edges with
  | nil => rfl
  | cons e edges ih =>
    by_cases h : e.1 = a <;> simp [outgoing, others, h] at ih ⊢ <;> omega

/-- **The first answer of a visit**, in the order of the distance from the queue. -/
def nearest? (visit : α → Option β) (edges : List (α × α)) (queue : List α) : Option β :=
  match queue with
  | [] => none
  | a :: rest =>
    match visit a with
    | some b => some b
    | none => nearest? visit (others a edges) (rest ++ (outgoing a edges).map (·.2))
termination_by edges.length + queue.length
decreasing_by
  have := length_outgoing_add_others a edges
  simp only [List.length_append, List.length_map, List.length_cons]
  omega

/-- **The edges that a search walks**, in order, each with the depth of its end. The target of an edge is
given by `target`, and a queued place comes with its depth. -/
def visits (target : β → α) (edges : List (α × β)) (queue : List (α × Nat)) : List (β × Nat) :=
  match queue with
  | [] => []
  | (a, depth) :: rest =>
    let out := (outgoing a edges).map (·.2)
    out.map (fun b => (b, depth + 1))
      ++ visits target (others a edges) (rest ++ out.map fun b => (target b, depth + 1))
termination_by edges.length + queue.length
decreasing_by
  have := length_outgoing_add_others a edges
  simp only [List.length_append, List.length_map, List.length_cons]
  omega

/-- **The places that one edge or more lead to** from a place. -/
def reachable (edges : List (α × α)) (a : α) : List α :=
  (visits id edges [(a, 0)]).map (·.1)

end CodeAtlas.Reach
