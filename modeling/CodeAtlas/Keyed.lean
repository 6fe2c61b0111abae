/-!
# Maps from names, in the order of the names

Properties, rows and counts are all maps from names whose entries are shown in the order of the names.
A `Keyed α` carries that order as an invariant: its entries are strictly ascending by key. So a map has
one representation, two maps with the same entries are equal, and nothing has to be sorted when a map is
written out.

The view of a map is `get?`; `get?_insert`, `get?_erase` and `get?_insertNew` say what the operations do
to it.
-/

namespace CodeAtlas

/-- **A map from names**, whose entries are strictly ascending by name. -/
structure Keyed (α : Type) where
  /-- The entries, in the order of their names. -/
  entries : List (String × α)
  /-- Each name is less than all later ones. -/
  ascending : entries.Pairwise (fun a b => a.1 < b.1)

namespace Keyed

variable {α : Type}

/-- The map without entries. -/
def empty : Keyed α := ⟨[], .nil⟩

instance : Inhabited (Keyed α) := ⟨empty⟩

instance : EmptyCollection (Keyed α) := ⟨empty⟩

instance [DecidableEq α] : DecidableEq (Keyed α) := fun a b =>
  if h : a.entries = b.entries then
    .isTrue (by cases a; cases b; simp_all)
  else .isFalse (by rintro rfl; exact h rfl)

/-- The value of a name. -/
def get? (m : Keyed α) (k : String) : Option α :=
  m.entries.lookup k

/-- The names of a map, ascending. -/
def keys (m : Keyed α) : List String :=
  m.entries.map (·.1)

/-- The values of a map, in the order of their names. -/
def values (m : Keyed α) : List α :=
  m.entries.map (·.2)

/-- The number of entries. -/
def size (m : Keyed α) : Nat :=
  m.entries.length

/-! ### Insertion -/

/-- The entries with `k` set to `v`, in the place that the order gives it. -/
def insertEntry (k : String) (v : α) : List (String × α) → List (String × α)
  | [] => [(k, v)]
  | (j, w) :: rest =>
    if k < j then (k, v) :: (j, w) :: rest
    else if k = j then (k, v) :: rest
    else (j, w) :: insertEntry k v rest

private theorem lt_of_not_lt_of_ne {a b : String} (h : ¬ a < b) (h' : a ≠ b) : b < a := by
  refine Classical.byContradiction fun hb => h' ?_
  exact String.le_antisymm (String.not_lt.1 hb) (String.not_lt.1 h)

/-- An entry of the new list is the inserted one, or one of the old list. -/
theorem mem_insertEntry {k : String} {v : α} {l : List (String × α)} {e : String × α}
    (h : e ∈ insertEntry k v l) : e = (k, v) ∨ e ∈ l := by
  induction l with
  | nil => simpa [insertEntry] using h
  | cons a rest ih =>
    obtain ⟨j, w⟩ := a
    simp only [insertEntry] at h
    -- An entry goes in front of the first larger name, over an equal one, or further down.
    split at h
    · simpa using h
    · split at h
      · rcases List.mem_cons.1 h with h | h
        · exact .inl h
        · exact .inr (List.mem_cons_of_mem _ h)
      · rcases List.mem_cons.1 h with h | h
        · exact .inr (h ▸ List.mem_cons_self)
        · rcases ih h with h | h
          · exact .inl h
          · exact .inr (List.mem_cons_of_mem _ h)

/-- The names stay in ascending order. -/
theorem ascending_insertEntry (k : String) (v : α) {l : List (String × α)}
    (h : l.Pairwise (fun a b => a.1 < b.1)) :
    (insertEntry k v l).Pairwise (fun a b => a.1 < b.1) := by
  induction l with
  | nil => simp [insertEntry]
  | cons a rest ih =>
    obtain ⟨j, w⟩ := a
    rw [List.pairwise_cons] at h
    simp only [insertEntry]
    -- The three places where an entry may go; only in the last one is the rest of the list looked at.
    split
    · rename_i hlt
      rw [List.pairwise_cons]
      refine ⟨fun e he => ?_, List.pairwise_cons.2 h⟩
      rcases List.mem_cons.1 he with rfl | he
      · exact hlt
      · exact String.lt_trans hlt (h.1 e he)
    · split
      · rename_i heq
        subst heq
        exact List.pairwise_cons.2 ⟨fun e he => h.1 e he, h.2⟩
      · rename_i hlt hne
        rw [List.pairwise_cons]
        refine ⟨fun e he => ?_, ih h.2⟩
        rcases mem_insertEntry he with rfl | he
        · exact lt_of_not_lt_of_ne hlt hne
        · exact h.1 e he

/-- The map with `k` set to `v`. -/
def insert (m : Keyed α) (k : String) (v : α) : Keyed α :=
  ⟨insertEntry k v m.entries, ascending_insertEntry k v m.ascending⟩

/-- The map with `k` set to `v`, unless `k` has a value already. -/
def insertNew (m : Keyed α) (k : String) (v : α) : Keyed α :=
  if (m.get? k).isSome then m else m.insert k v

/-- The map without `k`. -/
def erase (m : Keyed α) (k : String) : Keyed α :=
  ⟨m.entries.filter (·.1 != k), m.ascending.sublist List.filter_sublist⟩

/-- The map of a list of entries, of which the last with a name counts. -/
def ofList (l : List (String × α)) : Keyed α :=
  l.foldl (fun m e => m.insert e.1 e.2) empty

/-- The map with the value of `k` changed by `f`; `d` stands for a missing value. -/
def update (m : Keyed α) (k : String) (d : α) (f : α → α) : Keyed α :=
  m.insert k (f ((m.get? k).getD d))

/-! ### What the operations do to the view -/

private theorem lookup_cons_ite (j i : String) (w : α) (l : List (String × α)) :
    ((i, w) :: l).lookup j = if j = i then some w else l.lookup j := by
  rw [List.lookup_cons]
  by_cases h : j = i
  · simp [h]
  · have : (j == i) = false := by simpa using h
    simp [h, this]

private theorem lookup_insertEntry (k : String) (v : α) (l : List (String × α)) (j : String) :
    (insertEntry k v l).lookup j = if j = k then some v else l.lookup j := by
  induction l with
  | nil => simp [insertEntry, lookup_cons_ite]
  | cons a rest ih =>
    obtain ⟨i, w⟩ := a
    simp only [insertEntry]
    split
    · simp only [lookup_cons_ite]
    · split
      · rename_i heq
        subst heq
        simp only [lookup_cons_ite]
        split <;> rfl
      -- The entry went further down, so the first one is still found first.
      · rename_i hne
        simp only [lookup_cons_ite, ih]
        by_cases hj : j = i
        · subst hj
          have : j ≠ k := fun h => hne h.symm
          simp [this]
        · simp [hj]

@[simp]
theorem get?_empty (j : String) : (empty : Keyed α).get? j = none := rfl

/-- An entry is found under its name, and the others as before. -/
@[simp]
theorem get?_insert (m : Keyed α) (k : String) (v : α) (j : String) :
    (m.insert k v).get? j = if j = k then some v else m.get? j :=
  lookup_insertEntry k v m.entries j

/-- An entry whose name is there already is not replaced. -/
@[simp]
theorem get?_insertNew (m : Keyed α) (k : String) (v : α) (j : String) :
    (m.insertNew k v).get? j = if j = k then some ((m.get? k).getD v) else m.get? j := by
  unfold insertNew
  split
  · rename_i h
    obtain ⟨w, hw⟩ := Option.isSome_iff_exists.1 h
    by_cases hj : j = k <;> simp [hj, hw]
  · rename_i h
    have : m.get? k = none := by simpa using h
    simp [this]

/-- What is erased is not found. -/
@[simp]
theorem get?_erase (m : Keyed α) (k : String) (j : String) :
    (m.erase k).get? j = if j = k then none else m.get? j := by
  simp only [get?, erase]
  induction m.entries with
  | nil => simp
  | cons a rest ih =>
    obtain ⟨i, w⟩ := a
    -- Either the first entry is the one that goes, or it stays in front of what is left of the others.
    by_cases hi : i = k
    · rw [List.filter_cons_of_neg (by simp [hi]), ih, lookup_cons_ite]
      by_cases hj : j = k
      · simp [hj]
      · simp [hj, hi]
    · rw [List.filter_cons_of_pos (by simpa using hi), lookup_cons_ite, lookup_cons_ite, ih]
      by_cases hj : j = i
      · subst hj
        simp [hi]
      · simp [hj]

end Keyed

/-- The distinct texts of a list, ascending. -/
def sortedNames (l : List String) : List String :=
  (Keyed.ofList (l.map fun s => (s, ()))).keys

end CodeAtlas
