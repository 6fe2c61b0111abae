import CodeAtlas.Cycle
import CodeAtlas.Proofs.Keyed
import CodeAtlas.Proofs.Search
import Mathlib.Data.List.Lattice
import Mathlib.Data.List.Nodup
import Mathlib.Data.List.Pairwise

/-!
# The cycles of a graph are its cyclic components

Two names are in the same component if each leads to the other; a component is cyclic if its names lead to
themselves, which leaves out single names without an edge to themselves. `Components` says what it means to
list the cyclic components: every name on a cycle is listed, exactly once, together with all names of its
component and no others, and all lists are ascending.

Nothing more can be asked, because there is only one such list (`Components.unique`). It depends on the
relation "leads to" alone, and therefore on the set of edges: neither their order nor their number matters.

The list that is computed has these properties (`components_all`). The names around a name are found by two
searches, and they are the same for all names of a component (`around_eq_of_mem`). So the name that comes
first among them stands for the component, and of all names only that one heads a cycle (`mem_all`).
-/

namespace CodeAtlas.Cycle

variable {edges : List (String × String)} {a b : String}

/-- One edge or more lead from one name to another. -/
def Leads (edges : List (String × String)) : String → String → Prop :=
  Relation.TransGen fun a b => (a, b) ∈ edges

/-- **The cyclic components of a graph**, in their canonical order. -/
structure Components (edges : List (String × String)) (cycles : List (List String)) : Prop where
  /-- The names that are listed are those on a cycle. -/
  mem_iff : ∀ a, (∃ l ∈ cycles, a ∈ l) ↔ Leads edges a a
  /-- Two names are listed together if they are the same or each leads to the other. -/
  together_iff : ∀ a b, (∃ l ∈ cycles, a ∈ l ∧ b ∈ l) ↔
    (a = b ∧ Leads edges a a) ∨ (Leads edges a b ∧ Leads edges b a)
  /-- No name occurs twice, be it in one list or in two. -/
  nodup : cycles.flatten.Nodup
  ne_nil : ∀ l ∈ cycles, l ≠ []
  ascending : ∀ l ∈ cycles, l.Pairwise (· < ·)
  ordered : cycles.Pairwise (· < ·)

/-! ### There is only one such list -/

/-- Strictly ascending lists with the same members are equal. -/
theorem eq_of_ascending {α : Type} {r : α → α → Prop} [Std.Asymm r] {l m : List α} (hl : l.Pairwise r)
    (hm : m.Pairwise r) (h : ∀ x, x ∈ l ↔ x ∈ m) : l = m := by
  have hperm : l.Perm m := (List.perm_ext_iff_of_nodup hl.nodup hm.nodup).mpr h
  refine hperm.eq_of_pairwise ?_ hl hm
  intro x y _ _ hxy hyx
  exact absurd hyx (Std.Asymm.asymm x y hxy)

namespace Components

variable {cycles cycles' : List (List String)} {l l' : List String}

/-- Two lists with a common name are the same list. -/
theorem eq_of_mem (h : Components edges cycles) (hl : l ∈ cycles) (hl' : l' ∈ cycles) (ha : a ∈ l)
    (ha' : a ∈ l') : l = l' := by
  by_contra hne
  have hdisjoint : cycles.Pairwise List.Disjoint := (List.nodup_flatten.mp h.nodup).2
  have hsymm : Std.Symm (@List.Disjoint String) := ⟨fun _ _ => List.Disjoint.symm⟩
  exact hdisjoint.forall hl hl' hne ha ha'

/-- A list is the component of each of its names. -/
theorem mem_iff_of_mem (h : Components edges cycles) (hl : l ∈ cycles) (ha : a ∈ l) :
    b ∈ l ↔ Leads edges a b ∧ Leads edges b a := by
  constructor
  · intro hb
    rcases (h.together_iff a b).mp ⟨l, hl, ha, hb⟩ with ⟨rfl, haa⟩ | hab
    · exact ⟨haa, haa⟩
    · exact hab
  · intro hab
    obtain ⟨l', hl', ha', hb'⟩ := (h.together_iff a b).mpr (.inr hab)
    rw [h.eq_of_mem hl hl' ha ha']
    exact hb'

/-- A list of one enumeration occurs in any other one. -/
theorem mem_of_mem (h : Components edges cycles) (h' : Components edges cycles') (hl : l ∈ cycles) :
    l ∈ cycles' := by
  obtain ⟨a, ha⟩ := List.exists_mem_of_ne_nil l (h.ne_nil l hl)
  obtain ⟨l', hl', ha'⟩ := (h'.mem_iff a).mpr ((h.mem_iff a).mp ⟨l, hl, ha⟩)
  have heq : l = l' := by
    refine eq_of_ascending (h.ascending l hl) (h'.ascending l' hl') ?_
    intro b
    rw [h.mem_iff_of_mem hl ha, h'.mem_iff_of_mem hl' ha']
  rw [heq]
  exact hl'

/-- **The list of the cyclic components is determined** by the relation that the edges generate. -/
theorem unique (h : Components edges cycles) (h' : Components edges cycles') : cycles = cycles' :=
  eq_of_ascending h.ordered h'.ordered fun _ => ⟨h.mem_of_mem h', h'.mem_of_mem h⟩

end Components

/-! ### The list that is computed -/

/-- Against the edges one is led the other way. -/
theorem leads_reversed : Leads (reversed edges) a b ↔ Leads edges b a := by
  have hswap : (fun x y => (x, y) ∈ reversed edges) = Function.swap fun x y => (x, y) ∈ edges := by
    funext x y
    simp [reversed, Function.swap]
  rw [Leads, Leads, hswap]
  exact Relation.transGen_swap

/-- **The names around a name** are those of its component. -/
theorem mem_around : b ∈ around edges a ↔ Leads edges a b ∧ Leads edges b a := by
  rw [around, List.mem_filter, List.contains_iff_mem, mem_sortedNames, Reach.mem_reachable_iff,
    Reach.mem_reachable_iff]
  exact and_congr_right fun _ => leads_reversed

/-- The names around a name are listed in their order. -/
theorem ascending_around (edges : List (String × String)) (a : String) :
    (around edges a).Pairwise (· < ·) :=
  (ascending_sortedNames _).sublist List.filter_sublist

/-- All names of a component have the same names around them. -/
theorem around_eq_of_mem (h : b ∈ around edges a) : around edges b = around edges a := by
  obtain ⟨hab, hba⟩ := mem_around.mp h
  refine eq_of_ascending (ascending_around edges b) (ascending_around edges a) ?_
  intro c
  rw [mem_around, mem_around]
  constructor
  · rintro ⟨hbc, hcb⟩
    exact ⟨hab.trans hbc, hcb.trans hba⟩
  · rintro ⟨hac, hca⟩
    exact ⟨hba.trans hac, hca.trans hab⟩

/-- A name heads the component of which it is the first name, if it is on a cycle. -/
theorem headedBy?_eq_some {l : List String} :
    headedBy? edges a = some l ↔ around edges a = l ∧ l.head? = some a := by
  unfold headedBy?
  -- No names around it, or a first one that is the name or another.
  split
  · next hnil =>
    rw [hnil]
    constructor
    · intro h
      cases h
    · rintro ⟨rfl, h⟩
      cases h
  · next b rest hcons =>
    rw [hcons]
    split
    · next hb =>
      subst hb
      constructor
      · intro h
        cases h
        exact ⟨rfl, rfl⟩
      · rintro ⟨rfl, _⟩
        rfl
    · next hb =>
      constructor
      · intro h
        cases h
      · rintro ⟨rfl, h⟩
        exact absurd (Option.some.inj h) hb

/-- A name that leads somewhere is at an edge. -/
theorem mem_names_of_leads (h : Leads edges a b) : a ∈ names edges := by
  -- The first edge of the path names it.
  obtain ⟨c, hac, -⟩ := Relation.TransGen.head'_iff.mp h
  rw [names, mem_sortedNames, List.mem_flatMap]
  exact ⟨(a, c), hac, List.mem_cons_self⟩

/-- **The cycles are the components of the names that lead to themselves.** -/
theorem mem_all {l : List String} : l ∈ all edges ↔ ∃ a, Leads edges a a ∧ around edges a = l := by
  rw [all, List.mem_filterMap]
  constructor
  -- A name that heads a list is in it, so it is on a cycle.
  · rintro ⟨a, -, hl⟩
    obtain ⟨haround, hhead⟩ := headedBy?_eq_some.mp hl
    have ha : a ∈ around edges a := by
      rw [haround]
      exact List.mem_of_mem_head? hhead
    exact ⟨a, (mem_around.mp ha).1, haround⟩
  · rintro ⟨a, haa, rfl⟩
    -- The component has a first name, and it is the component of that name too.
    have ha : a ∈ around edges a := mem_around.mpr ⟨haa, haa⟩
    have hne : around edges a ≠ [] := List.ne_nil_of_mem ha
    have hhead : (around edges a).head? = some ((around edges a).head hne) := List.head?_eq_some_head hne
    have hb : (around edges a).head hne ∈ around edges a := List.head_mem hne
    refine ⟨(around edges a).head hne, mem_names_of_leads (mem_around.mp hb).2, ?_⟩
    exact headedBy?_eq_some.mpr ⟨around_eq_of_mem hb, hhead⟩

/-- The cycles stand in the order of their first names. -/
theorem ordered_all (edges : List (String × String)) : (all edges).Pairwise (· < ·) := by
  refine (ascending_sortedNames _).filterMap _ ?_
  intro a b hab l hl m hm
  obtain ⟨l', rfl⟩ := List.head?_eq_some_iff.mp (headedBy?_eq_some.mp hl).2
  obtain ⟨m', rfl⟩ := List.head?_eq_some_iff.mp (headedBy?_eq_some.mp hm).2
  exact List.cons_lt_cons_iff.mpr (.inl hab)

/-- **The cycles of a graph are its cyclic components.** -/
theorem components_all (edges : List (String × String)) : Components edges (all edges) where
  -- A name is listed if it leads to itself, since then it is one of the names around it.
  mem_iff := by
    intro a
    constructor
    · rintro ⟨l, hl, ha⟩
      obtain ⟨b, -, rfl⟩ := mem_all.mp hl
      obtain ⟨hba, hab⟩ := mem_around.mp ha
      exact hab.trans hba
    · intro haa
      exact ⟨around edges a, mem_all.mpr ⟨a, haa, rfl⟩, mem_around.mpr ⟨haa, haa⟩⟩
  together_iff := by
    intro a b
    constructor
    · rintro ⟨l, hl, ha, hb⟩
      obtain ⟨c, -, rfl⟩ := mem_all.mp hl
      obtain ⟨hca, hac⟩ := mem_around.mp ha
      obtain ⟨hcb, hbc⟩ := mem_around.mp hb
      exact .inr ⟨hac.trans hcb, hbc.trans hca⟩
    · intro h
      have hab : Leads edges a b ∧ Leads edges b a := by
        -- A name on a cycle leads to itself, so both cases say that the names lead to each other.
        rcases h with ⟨rfl, haa⟩ | hab
        · exact ⟨haa, haa⟩
        · exact hab
      have haa : Leads edges a a := hab.1.trans hab.2
      exact ⟨around edges a, mem_all.mpr ⟨a, haa, rfl⟩, mem_around.mpr ⟨haa, haa⟩, mem_around.mpr hab⟩
  nodup := by
    refine List.nodup_flatten.mpr ⟨?_, (ordered_all edges).imp_of_mem ?_⟩
    · intro l hl
      obtain ⟨a, -, rfl⟩ := mem_all.mp hl
      exact (ascending_around edges a).nodup
    · -- Two cycles with a common name would be the names around it, and so the same cycle.
      intro l m hl hm hlm a hal ham
      obtain ⟨b, -, rfl⟩ := mem_all.mp hl
      obtain ⟨c, -, rfl⟩ := mem_all.mp hm
      rw [← around_eq_of_mem hal, ← around_eq_of_mem ham] at hlm
      exact List.lt_irrefl _ hlm
  ne_nil := by
    intro l hl
    obtain ⟨a, haa, rfl⟩ := mem_all.mp hl
    exact List.ne_nil_of_mem (mem_around.mpr ⟨haa, haa⟩)
  ascending := by
    intro l hl
    obtain ⟨a, -, rfl⟩ := mem_all.mp hl
    exact ascending_around edges a
  ordered := ordered_all edges

/-- Components depend on the set of edges only. -/
theorem Components.congr {edges' : List (String × String)} (h : ∀ e, e ∈ edges' ↔ e ∈ edges)
    {cycles : List (List String)} (hc : Components edges' cycles) : Components edges cycles := by
  have hleads : Leads edges' = Leads edges := by
    unfold Leads
    simp only [h]
  obtain ⟨hmem, htogether, hnodup, hne, hascending, hordered⟩ := hc
  rw [hleads] at hmem htogether
  exact ⟨hmem, htogether, hnodup, hne, hascending, hordered⟩

/-- **The cycles of a graph are exactly its cyclic components, in canonical order**, and they do not change
when edges are put in another order or repeated. -/
theorem all_exact (edges : List (String × String)) :
    Components edges (all edges) ∧
      ∀ edges', (∀ e, e ∈ edges' ↔ e ∈ edges) → all edges' = all edges := by
  refine ⟨components_all edges, ?_⟩
  intro edges' h
  exact ((components_all edges').congr h).unique (components_all edges)

/-- Two cycles that touch in one name, once with each edge given twice and in another order. -/
theorem all_exact_touchingCycles :
    all [("c", "b"), ("b", "c"), ("b", "a"), ("a", "b"), ("a", "b"), ("c", "b"), ("b", "a"), ("b", "c")]
      = all [("a", "b"), ("b", "a"), ("b", "c"), ("c", "b")] :=
  (all_exact [("a", "b"), ("b", "a"), ("b", "c"), ("c", "b")]).2 _ fun e => by
    simp only [List.mem_cons, List.not_mem_nil, or_false]
    tauto

example : all [("R", "R"), ("X", "Y"), ("Y", "X"), ("Y", "Z")] = [["R"], ["X", "Y"]] := by
  decide +kernel

end CodeAtlas.Cycle
