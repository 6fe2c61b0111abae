import CodeAtlas.Reach
import Mathlib.Logic.Relation

/-!
# Breadth-first search finds shortest paths

What the search along edges has to do with paths. A queue of places, each with its depth, stands for all the
paths that start at one of them: a place is *met* at the depth of the start plus the length of the path
(`Met`). The depth at which a search comes to a place first is the least of these (`MetFirst`).

The search keeps no set of visited places; it takes the edges of a visited place out of the graph. So the
invariant is not about a set that grows but about two graphs with their queues, before and after a step, and
the step lemma says that they meet the same places at the same least depths, the visited place apart
(`Layered.metFirst_step`). One direction is plain. In the other one a path of the old graph may run through edges
that are gone. Then the path is cut behind the last of them: what is left uses only edges that remain, and it
starts at a place that has just joined the queue. Because the queue is `Layered`, the visited place has the
least depth of all, and the cut never makes the path longer.

From the step lemma follow, by induction over the search:

* `exists_walk` — `visits` walks each edge whose start is met exactly once, at a depth that is one more than
  the least depth of its start, and in the order of these depths;
* `nearest?_eq_some`, `nearest?_eq_none` — `nearest?` answers for a place that is nearest among those that
  have an answer, and gives no answer only if no place that is met has one; `distance_of_nearest?` and
  `eq_none_of_nearest?_eq_none` say so for a search from one place;
* `mem_reachable_iff` — `reachable` lists the places that one edge or more lead to.
-/

namespace CodeAtlas.Reach

variable {α β : Type}

/-! ### Paths -/

/-- **A path of `n` edges** from one place to another. -/
inductive Path (target : β → α) (edges : List (α × β)) : Nat → α → α → Prop
  | nil (a : α) : Path target edges 0 a a
  | cons {n : Nat} {a c : α} {b : β} :
    (a, b) ∈ edges → Path target edges n (target b) c → Path target edges (n + 1) a c

/-- **The length of the shortest path** from one place to another. -/
def Distance (target : β → α) (edges : List (α × β)) (a : α) (n : Nat) (c : α) : Prop :=
  Path target edges n a c ∧ ∀ m, Path target edges m a c → n ≤ m

namespace Path

variable {target : β → α} {edges : List (α × β)}

/-- More edges lose no path. -/
theorem mono {edges' : List (α × β)} (h : ∀ e ∈ edges, e ∈ edges') {n : Nat} {a c : α}
    (p : Path target edges n a c) : Path target edges' n a c := by
  induction p with
  | nil a => exact .nil a
  | cons he _ ih => exact .cons (h _ he) ih

/-- A path may go on along an edge. -/
theorem concat {n : Nat} {a c : α} {b : β} (p : Path target edges n a c) (he : (c, b) ∈ edges) :
    Path target edges (n + 1) a (target b) := by
  induction p with
  | nil a => exact .cons he (.nil _)
  | cons hfirst _ ih => exact .cons hfirst (ih he)

/-- A path with an edge at least has a last one. -/
theorem exists_concat {n : Nat} {a c : α} (p : Path target edges (n + 1) a c) :
    ∃ d b, Path target edges n a d ∧ (d, b) ∈ edges ∧ target b = c := by
  -- By induction on the length: the last edge of the rest is the last one of the path.
  induction n generalizing a with
  | zero =>
    cases p with
    | cons he rest =>
      cases rest
      exact ⟨a, _, .nil a, he, rfl⟩
  | succ n ih =>
    cases p with
    | cons he rest =>
      obtain ⟨d, b, hd, hb, hc⟩ := ih rest
      exact ⟨d, b, .cons he hd, hb, hc⟩

/-- Paths with an edge at least are the transitive closure of the edges. -/
theorem exists_succ_iff {edges : List (α × α)} {a c : α} :
    (∃ n, Path id edges (n + 1) a c) ↔ Relation.TransGen (fun x y => (x, y) ∈ edges) a c := by
  -- One direction takes edges off the front, the other one adds them at the end.
  constructor
  · rintro ⟨n, p⟩
    induction n generalizing a with
    | zero =>
      cases p with
      | cons he rest =>
        cases rest
        exact .single he
    | succ n ih =>
      cases p with
      | cons he rest => exact .head he (ih rest)
  · intro h
    induction h with
    | single he => exact ⟨0, .cons he (.nil _)⟩
    | tail _ he ih =>
      obtain ⟨n, p⟩ := ih
      exact ⟨n + 1, p.concat he⟩

end Path

/-! ### Queues -/

/-- **A place is met at a depth**: that of a queued place and the length of a path from there. -/
def Met (target : β → α) (edges : List (α × β)) (queue : List (α × Nat)) (n : Nat) (c : α) : Prop :=
  ∃ q ∈ queue, ∃ k, Path target edges k q.1 c ∧ q.2 + k = n

/-- **The least depth at which a place is met.** -/
def MetFirst (target : β → α) (edges : List (α × β)) (queue : List (α × Nat)) (n : Nat) (c : α) : Prop :=
  Met target edges queue n c ∧ ∀ m, Met target edges queue m c → n ≤ m

/-- The depths of a queue do not go down, and they differ by one at most. -/
def Layered (queue : List (α × Nat)) : Prop :=
  queue.Pairwise fun p q => p.2 ≤ q.2 ∧ q.2 ≤ p.2 + 1

section Queue

variable {target : β → α} {edges : List (α × β)} {a c : α} {depth n : Nat} {rest : List (α × Nat)}

/-- The first place of a queue has the least depth. -/
theorem Layered.le_of_mem (h : Layered ((a, depth) :: rest)) {q : α × Nat} (hq : q ∈ (a, depth) :: rest) :
    depth ≤ q.2 := by
  rcases List.mem_cons.mp hq with rfl | hq
  · exact Nat.le_refl _
  · exact ((List.pairwise_cons.mp h).1 q hq).1

/-- No place is met at a depth below that of the first place. -/
theorem Layered.le_of_met (h : Layered ((a, depth) :: rest))
    (hc : Met target edges ((a, depth) :: rest) n c) : depth ≤ n := by
  obtain ⟨q, hq, k, _, rfl⟩ := hc
  exact Nat.le_trans (h.le_of_mem hq) (Nat.le_add_right _ _)

/-- The first place is met first at the depth that it was queued with. -/
theorem Layered.metFirst_head (h : Layered ((a, depth) :: rest)) :
    MetFirst target edges ((a, depth) :: rest) depth a :=
  ⟨⟨(a, depth), List.mem_cons_self, 0, .nil a, rfl⟩, fun _ hm => h.le_of_met hm⟩

/-! A search that starts at one place meets what paths from there lead to. -/

theorem layered_singleton (q : α × Nat) : Layered [q] :=
  List.pairwise_singleton _ q

/-- From one place, what paths lead to is met. -/
theorem met_singleton :
    Met target edges [(a, 0)] n c ↔ Path target edges n a c := by
  constructor
  · rintro ⟨q, hq, k, p, rfl⟩
    rw [List.mem_singleton] at hq
    subst hq
    rw [Nat.zero_add]
    exact p
  · intro p
    exact ⟨(a, 0), List.mem_singleton_self _, n, p, Nat.zero_add n⟩

/-- The least depth is then the distance. -/
theorem metFirst_singleton :
    MetFirst target edges [(a, 0)] n c ↔ Distance target edges a n c := by
  unfold MetFirst Distance
  simp only [met_singleton]

end Queue

/-! ### A step -/

variable [DecidableEq α]

theorem mem_outgoing {a : α} {edges : List (α × β)} {e : α × β} :
    e ∈ outgoing a edges ↔ e ∈ edges ∧ e.1 = a := by
  rw [outgoing, List.mem_filter, decide_eq_true_iff]

theorem mem_others {a : α} {edges : List (α × β)} {e : α × β} :
    e ∈ others a edges ↔ e ∈ edges ∧ e.1 ≠ a := by
  rw [others, List.mem_filter, decide_eq_true_iff]

/-- Together they are all edges. -/
theorem outgoing_append_others_perm (a : α) (edges : List (α × β)) :
    (outgoing a edges ++ others a edges).Perm edges := by
  have hothers : others a edges = edges.filter fun e => !decide (e.1 = a) := by
    refine List.filter_congr ?_
    intro e _
    exact decide_not
  rw [outgoing, hothers]
  exact List.filter_append_perm _ edges

/-- **A path cut behind the last of its edges that start at `a`.** Either there is no such edge, or what
follows the last of them is a path along the others. -/
theorem Path.cut {target : β → α} {edges : List (α × β)} {n : Nat} {s a c : α}
    (p : Path target edges n s c) (hc : c ≠ a) :
    (s ≠ a ∧ Path target (others a edges) n s c) ∨
      ∃ b k, (a, b) ∈ edges ∧ Path target (others a edges) k (target b) c ∧ k + 1 ≤ n := by
  -- By induction on the path: the rest has been cut already, and one edge comes in front.
  induction p with
  | nil s => exact .inl ⟨hc, .nil s⟩
  | @cons n s c b he _ ih =>
    rcases ih hc with ⟨_, rest⟩ | ⟨b', k, hb', rest, hk⟩
    · -- Nothing later starts at `a`, so the first edge decides.
      by_cases hs : s = a
      · subst hs
        exact .inr ⟨b, n, he, rest, Nat.le_refl _⟩
      · exact .inl ⟨hs, .cons (mem_others.mpr ⟨he, hs⟩) rest⟩
    · exact .inr ⟨b', k, hb', rest, Nat.le_succ_of_le hk⟩

/-- The queue after a visit: what the edges of the visited place lead to joins it. -/
def advanced (target : β → α) (edges : List (α × β)) (a : α) (depth : Nat) (rest : List (α × Nat)) :
    List (α × Nat) :=
  rest ++ (outgoing a edges).map fun e => (target e.2, depth + 1)

section Step

variable {target : β → α} {edges : List (α × β)} {a c : α} {depth n : Nat} {rest : List (α × Nat)}

/-- What is in the queue after a visit. -/
theorem mem_advanced {q : α × Nat} :
    q ∈ advanced target edges a depth rest ↔
      q ∈ rest ∨ ∃ b, (a, b) ∈ edges ∧ (target b, depth + 1) = q := by
  rw [advanced, List.mem_append, List.mem_map]
  refine or_congr_right ⟨?_, ?_⟩
  · rintro ⟨⟨a', b⟩, he, rfl⟩
    obtain ⟨hmem, rfl⟩ := mem_outgoing.mp he
    exact ⟨b, hmem, rfl⟩
  · rintro ⟨b, hmem, rfl⟩
    exact ⟨(a, b), mem_outgoing.mpr ⟨hmem, rfl⟩, rfl⟩

/-- A visit keeps the queue in layers. -/
theorem Layered.advanced (h : Layered ((a, depth) :: rest)) :
    Layered (advanced target edges a depth rest) := by
  obtain ⟨hhead, hrest⟩ := List.pairwise_cons.mp h
  refine List.pairwise_append.mpr ⟨hrest, ?_, ?_⟩
  · rw [List.pairwise_map]
    exact List.pairwise_of_forall fun _ _ => ⟨Nat.le_refl _, Nat.le_succ _⟩
  · intro p hp q hq
    obtain ⟨e, _, rfl⟩ := List.mem_map.mp hq
    have hbounds := hhead p hp
    dsimp only at hbounds ⊢
    omega

/-- After a visit nothing is met that was not met before. -/
theorem met_of_met_advanced
    (hc : Met target (others a edges) (advanced target edges a depth rest) n c) :
    Met target edges ((a, depth) :: rest) n c := by
  obtain ⟨q, hq, k, p, rfl⟩ := hc
  have p' : Path target edges k q.1 c := p.mono fun e he => (mem_others.mp he).1
  rcases mem_advanced.mp hq with hq | ⟨b, hb, rfl⟩
  · exact ⟨q, List.mem_cons_of_mem _ hq, k, p', rfl⟩
  · refine ⟨(a, depth), List.mem_cons_self, k + 1, .cons hb p', ?_⟩
    dsimp only
    omega

/-- What was met still is, and not later, the visited place apart. -/
theorem Layered.met_advanced (h : Layered ((a, depth) :: rest)) (hca : c ≠ a)
    (hc : Met target edges ((a, depth) :: rest) n c) :
    ∃ m ≤ n, Met target (others a edges) (Reach.advanced target edges a depth rest) m c := by
  obtain ⟨q, hq, k, p, rfl⟩ := hc
  -- A path either avoids the visited place, or it can be cut where it leaves that place for the last time.
  rcases p.cut hca with ⟨hqa, p'⟩ | ⟨b, k', hb, p', hk⟩
  · -- The path uses no edge of the visited place, so it does not start there.
    have hrest : q ∈ rest := by
      rcases List.mem_cons.mp hq with rfl | hq
      · exact absurd rfl hqa
      · exact hq
    exact ⟨q.2 + k, Nat.le_refl _, q, mem_advanced.mpr (.inl hrest), k, p', rfl⟩
  · refine ⟨depth + 1 + k', ?_, (target b, depth + 1), mem_advanced.mpr (.inr ⟨b, hb, rfl⟩), k', p', rfl⟩
    have hdepth := h.le_of_mem hq
    omega

/-- **A step of the search** changes the least depth of no place but the one that is visited. -/
theorem Layered.metFirst_step (h : Layered ((a, depth) :: rest)) (hca : c ≠ a) :
    MetFirst target (others a edges) (Reach.advanced target edges a depth rest) n c ↔
      MetFirst target edges ((a, depth) :: rest) n c := by
  constructor
  · rintro ⟨hmet, hleast⟩
    refine ⟨met_of_met_advanced hmet, ?_⟩
    intro m hm
    -- What was met before is met no later now, and nothing new is met.
    obtain ⟨m', hle, hm'⟩ := h.met_advanced hca hm
    exact Nat.le_trans (hleast m' hm') hle
  · rintro ⟨hmet, hleast⟩
    obtain ⟨m, hle, hm⟩ := h.met_advanced hca hmet
    have heq : m = n := Nat.le_antisymm hle (hleast m (met_of_met_advanced hm))
    subst heq
    exact ⟨hm, fun m' hm' => hleast m' (met_of_met_advanced hm')⟩

end Step

/-! ### The edges that are walked -/

/-- **What a search walks**: `walked` are the edges with the depths of their ends, `left` are the others. -/
structure Walk (target : β → α) (edges : List (α × β)) (queue : List (α × Nat))
    (walked : List ((α × β) × Nat)) (left : List (α × β)) : Prop where
  /-- Each edge is walked once or left. -/
  perm : (walked.map (·.1) ++ left).Perm edges
  depth_eq : ∀ w ∈ walked, ∃ n, w.2 = n + 1 ∧ MetFirst target edges queue n w.1.1
  left_unmet : ∀ e ∈ left, ∀ n, ¬ Met target edges queue n e.1
  ordered : walked.Pairwise fun v w => v.2 ≤ w.2

/-- The edges of the first place are walked, then those of the search that goes on without it. -/
theorem Walk.step {target : β → α} {edges : List (α × β)} {a : α} {depth : Nat} {rest : List (α × Nat)}
    (h : Layered ((a, depth) :: rest)) {walked : List ((α × β) × Nat)} {left : List (α × β)}
    (hwalk : Walk target (others a edges) (advanced target edges a depth rest) walked left) :
    Walk target edges ((a, depth) :: rest)
      ((outgoing a edges).map (fun e => (e, depth + 1)) ++ walked) left where
  perm := by
    have hmap : (((outgoing a edges).map fun e => (e, depth + 1)) ++ walked).map (·.1) ++ left
        = outgoing a edges ++ (walked.map (·.1) ++ left) := by
      rw [List.map_append, List.map_map, List.append_assoc]
      congr 1
      exact List.map_id _
    rw [hmap]
    exact (hwalk.perm.append_left _).trans (outgoing_append_others_perm a edges)
  depth_eq := by
    intro w hw
    rcases List.mem_append.mp hw with hw | hw
    · obtain ⟨e, he, rfl⟩ := List.mem_map.mp hw
      refine ⟨depth, rfl, ?_⟩
      rw [(mem_outgoing.mp he).2]
      exact h.metFirst_head
    · -- An edge that the rest of the search walks does not start at the visited place.
      obtain ⟨n, hn, hfirst⟩ := hwalk.depth_eq w hw
      have hmem : w.1 ∈ others a edges :=
        hwalk.perm.subset (List.mem_append_left _ (List.mem_map_of_mem hw))
      exact ⟨n, hn, (h.metFirst_step (mem_others.mp hmem).2).mp hfirst⟩
  left_unmet := by
    intro e he n hmet
    have hmem : e ∈ others a edges := hwalk.perm.subset (List.mem_append_right _ he)
    obtain ⟨m, _, hm⟩ := h.met_advanced (mem_others.mp hmem).2 hmet
    exact hwalk.left_unmet e he m hm
  ordered := by
    refine List.pairwise_append.mpr ⟨?_, hwalk.ordered, ?_⟩
    · rw [List.pairwise_map]
      exact List.pairwise_of_forall fun _ _ => Nat.le_refl _
    -- The edges of the visited place are walked one level below it, and no later one ends above that.
    · intro v hv w hw
      obtain ⟨e, _, rfl⟩ := List.mem_map.mp hv
      obtain ⟨n, hn, hfirst⟩ := hwalk.depth_eq w hw
      have hdepth : depth ≤ n := h.le_of_met (met_of_met_advanced hfirst.1)
      dsimp only
      omega

/-- **Breadth-first search walks each edge whose start is met exactly once**, in the order of the depth,
which is one more than the least depth of the start. -/
theorem exists_walk (target : β → α) (edges : List (α × β)) (queue : List (α × Nat)) (h : Layered queue) :
    ∃ walked left, visits target edges queue = walked.map (fun w => (w.1.2, w.2)) ∧
      Walk target edges queue walked left := by
  -- Along the search: a visit walks the edges of its place, and the rest of the search walks the others.
  fun_induction visits target edges queue with
  | case1 edges =>
    refine ⟨[], edges, rfl, ⟨.refl _, ?_, ?_, .nil⟩⟩
    · intro w hw
      cases hw
    · rintro e _ n ⟨q, hq, _⟩
      cases hq
  | case2 edges a depth rest out ih =>
    have hqueue : rest ++ out.map (fun b => (target b, depth + 1)) = advanced target edges a depth rest := by
      rw [advanced, List.map_map]
      rfl
    rw [hqueue] at ih ⊢
    obtain ⟨walked, left, hvisits, hwalk⟩ := ih h.advanced
    refine ⟨(outgoing a edges).map (fun e => (e, depth + 1)) ++ walked, left, ?_, hwalk.step h⟩
    rw [hvisits, List.map_append, List.map_map, List.map_map]
    rfl

/-- A search along edges that carry something else walks the same edges in the same order. -/
theorem visits_map {γ : Type} (carry : β → γ) (target : γ → α) (edges : List (α × β))
    (queue : List (α × Nat)) :
    visits target (edges.map fun e => (e.1, carry e.2)) queue
      = (visits (fun b => target (carry b)) edges queue).map fun v => (carry v.1, v.2) := by
  fun_induction visits (fun b => target (carry b)) edges queue with
  | case1 edges => rw [visits, List.map_nil]
  | case2 edges a depth rest out ih =>
    -- What an edge carries plays no part in where it starts.
    have hout : outgoing a (edges.map fun e => (e.1, carry e.2))
        = (outgoing a edges).map fun e => (e.1, carry e.2) := by
      rw [outgoing, outgoing, List.filter_map]
      rfl
    have hothers : others a (edges.map fun e => (e.1, carry e.2))
        = (others a edges).map fun e => (e.1, carry e.2) := by
      rw [others, others, List.filter_map]
      rfl
    rw [visits, hout, hothers, List.map_append, ← ih]
    simp only [out, List.map_map, Function.comp_def]

/-- **The places that a search reaches** are those that one edge or more lead to. -/
theorem mem_reachable_iff {edges : List (α × α)} {a c : α} :
    c ∈ reachable edges a ↔ Relation.TransGen (fun x y => (x, y) ∈ edges) a c := by
  -- The places are the ends of the edges that are walked from the start.
  obtain ⟨walked, left, hvisits, hwalk⟩ := exists_walk id edges [(a, 0)] (layered_singleton _)
  have hreachable : reachable edges a = walked.map fun w => w.1.2 := by
    rw [reachable, hvisits, List.map_map]
    rfl
  rw [hreachable, ← Path.exists_succ_iff]
  constructor
  · intro hc
    obtain ⟨w, hw, rfl⟩ := List.mem_map.mp hc
    obtain ⟨n, _, hfirst⟩ := hwalk.depth_eq w hw
    have hedge : w.1 ∈ edges := hwalk.perm.subset (List.mem_append_left _ (List.mem_map_of_mem hw))
    exact ⟨n, (met_singleton.mp hfirst.1).concat (b := w.1.2) hedge⟩
  · rintro ⟨n, p⟩
    -- The last edge of a path is walked, since an edge that is left starts at a place that is not met.
    obtain ⟨d, b, hd, hedge, rfl⟩ := p.exists_concat
    rcases List.mem_append.mp (hwalk.perm.symm.subset hedge) with hw | hleft
    · obtain ⟨w, hw, heq⟩ := List.mem_map.mp hw
      exact List.mem_map.mpr ⟨w, hw, congrArg Prod.snd heq⟩
    · exact absurd (met_singleton.mpr hd) (hwalk.left_unmet _ hleft n)

/-! ### The nearest answer -/

section Nearest

variable {visit : α → Option β} {edges : List (α × α)} {queue : List (α × Nat)} {b : β}

/-- The places of the queue after a visit. -/
theorem map_advanced (edges : List (α × α)) (a : α) (depth : Nat) (rest : List (α × Nat)) :
    (advanced id edges a depth rest).map (·.1) = rest.map (·.1) ++ (outgoing a edges).map (·.2) := by
  rw [advanced, List.map_append, List.map_map]
  rfl

/-- **The answer of a search is a nearest one**: it is given by a place that is met first at some depth, and
no place that is met at a smaller depth has an answer. -/
theorem nearest?_eq_some (h : Layered queue) (hb : nearest? visit edges (queue.map (·.1)) = some b) :
    ∃ n c, MetFirst id edges queue n c ∧ visit c = some b ∧
      ∀ m < n, ∀ d, Met id edges queue m d → visit d = none := by
  generalize hplaces : queue.map (·.1) = places at hb
  fun_induction nearest? visit edges places generalizing queue with
  | case1 => cases hb
  | case2 edges a places b' hvisit =>
    obtain ⟨⟨a', depth⟩, rest, rfl, rfl, _⟩ := List.map_eq_cons_iff.mp hplaces
    refine ⟨depth, a', h.metFirst_head, hvisit.trans hb, ?_⟩
    intro m hm d hd
    exact absurd (h.le_of_met hd) (Nat.not_le_of_lt hm)
  | case3 edges a places hvisit ih =>
    obtain ⟨⟨a', depth⟩, rest, rfl, rfl, rfl⟩ := List.map_eq_cons_iff.mp hplaces
    obtain ⟨n, c, hfirst, hc, hless⟩ := ih h.advanced (map_advanced _ _ _ _) hb
    -- The visited place has no answer, so the place that answers is another one.
    have hca : c ≠ a' := by
      rintro rfl
      rw [hvisit] at hc
      cases hc
    refine ⟨n, c, (h.metFirst_step hca).mp hfirst, hc, ?_⟩
    intro m hm d hd
    by_cases hda : d = a'
    · rw [hda]
      exact hvisit
    · obtain ⟨m', hle, hd'⟩ := h.met_advanced hda hd
      exact hless m' (Nat.lt_of_le_of_lt hle hm) d hd'

/-- **A search without an answer** has met no place that has one. -/
theorem nearest?_eq_none (h : Layered queue) (hnone : nearest? visit edges (queue.map (·.1)) = none) {n : Nat}
    {c : α} (hc : Met id edges queue n c) : visit c = none := by
  generalize hplaces : queue.map (·.1) = places at hnone
  fun_induction nearest? visit edges places generalizing queue n with
  | case1 =>
    obtain rfl : queue = [] := List.map_eq_nil_iff.mp hplaces
    obtain ⟨q, hq, _⟩ := hc
    cases hq
  | case2 edges a places b hvisit => cases hnone
  | case3 edges a places hvisit ih =>
    obtain ⟨⟨a', depth⟩, rest, rfl, rfl, rfl⟩ := List.map_eq_cons_iff.mp hplaces
    -- The visited place has no answer, and any other one is still met.
    by_cases hca : c = a'
    · rw [hca]
      exact hvisit
    · obtain ⟨m, _, hm⟩ := h.met_advanced hca hc
      exact ih h.advanced hm (map_advanced _ _ _ _) hnone

/-- **A search from one place** answers for a place at the least distance among those that have an
answer. -/
theorem distance_of_nearest? {a : α} (h : nearest? visit edges [a] = some b) :
    ∃ n c, Distance id edges a n c ∧ visit c = some b ∧
      ∀ m < n, ∀ d, Path id edges m a d → visit d = none := by
  have hqueue : [a] = [(a, 0)].map (·.1) := rfl
  rw [hqueue] at h
  obtain ⟨n, c, hfirst, hc, hless⟩ := nearest?_eq_some (layered_singleton _) h
  refine ⟨n, c, metFirst_singleton.mp hfirst, hc, ?_⟩
  intro m hm d hd
  exact hless m hm d (met_singleton.mpr hd)

/-- A search from one place without an answer has met no place that has one. -/
theorem eq_none_of_nearest?_eq_none {a c : α} {n : Nat} (h : nearest? visit edges [a] = none)
    (hc : Path id edges n a c) : visit c = none := by
  have hqueue : [a] = [(a, 0)].map (·.1) := rfl
  rw [hqueue] at h
  exact nearest?_eq_none (layered_singleton _) h (met_singleton.mpr hc)

end Nearest

end CodeAtlas.Reach
