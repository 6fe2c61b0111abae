import CodeAtlas.Keyed
import CodeAtlas.Reach

/-!
# Cycles along edges

Two names belong to the same cycle if each can be reached from the other by one edge or more; a name that
an edge leads back to forms a cycle of its own. The cycles of a graph partition the names that lie on
some cycle.

A cycle is listed by its names in ascending order, and the cycles stand in the order of their first
names, so the answer depends on the set of edges only.
-/

namespace CodeAtlas.Cycle

/-- The names that occur in edges, ascending. -/
def names (edges : List (String × String)) : List String :=
  sortedNames (edges.flatMap fun e => [e.1, e.2])

/-- The edges walked the other way. -/
def reversed (edges : List (String × String)) : List (String × String) :=
  edges.map fun e => (e.2, e.1)

/-- The names that lie on a common cycle with a name, ascending: those that it leads to and that lead to
it. -/
def around (edges : List (String × String)) (a : String) : List String :=
  let ahead := Reach.reachable edges a
  let behind := Reach.reachable (reversed edges) a
  (sortedNames ahead).filter behind.contains

/-- The cycle of which a name is the first. -/
def headedBy? (edges : List (String × String)) (a : String) : Option (List String) :=
  match around edges a with
  | [] => none
  | b :: rest => if b = a then some (b :: rest) else none

/-- **All cycles**, each by its names. -/
def all (edges : List (String × String)) : List (List String) :=
  (names edges).filterMap (headedBy? edges)

end CodeAtlas.Cycle
