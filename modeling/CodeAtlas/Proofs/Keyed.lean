import CodeAtlas.Keyed

/-!
# Parts and sums of maps

Readings of a `Keyed` map that its point-wise view does not give directly:

* `ext_get?` — two maps with the same values are equal, so a map that is built up from a list does not
  change when the list is entered again (`foldl_insert_twice`), and where no name is repeated the order of
  the list does not matter (`ofList_of_perm`);
* `restrict` — the part of a map whose names satisfy a condition. It evolves on its own
  (`restrict_insert`), and so does the sorted list of a set of names (`filter_sortedNames`);
* `total` — the sum of the values of a map of counts. Changing one value changes it by the difference
  (`total_insert`).
-/

namespace CodeAtlas.Keyed

variable {α : Type}

/-- Two maps with the same entries are equal. -/
theorem ext_entries {m n : Keyed α} (h : m.entries = n.entries) : m = n := by
  obtain ⟨l, hl⟩ := m
  obtain ⟨k, hk⟩ := n
  obtain rfl : l = k := h
  rfl

/-- A name is in a map if it has a value. -/
theorem mem_keys_iff {m : Keyed α} {k : String} : k ∈ m.keys ↔ (m.get? k).isSome := by
  unfold keys get?
  -- By induction on the entries, of which the first one with the name counts.
  induction m.entries with
  | nil => simp
  | cons e l ih =>
    obtain ⟨j, v⟩ := e
    rw [List.map_cons, List.mem_cons, List.lookup_cons, ih]
    by_cases h : k = j
    · simp [h]
    · have hb : (k == j) = false := by simpa using h
      simp [h, hb]

/-! ### Equality and repetition -/

/-- A name below all names of a list has no value in it. -/
theorem lookup_eq_none_of_lt {k : String} {l : List (String × α)} (h : ∀ e ∈ l, k < e.1) :
    l.lookup k = none := by
  rw [List.lookup_eq_none_iff]
  intro e he
  simpa using fun hk : k = e.1 => absurd (hk ▸ h e he) (String.lt_irrefl e.1)

/-- An entry of another name is passed. -/
theorem lookup_cons_of_ne {k : String} {e : String × α} (h : k ≠ e.1) (l : List (String × α)) :
    (e :: l).lookup k = l.lookup k := by
  obtain ⟨j, v⟩ := e
  have hb : (k == j) = false := by simpa using h
  rw [List.lookup_cons, hb]

/-- A value that is found is in the list. -/
theorem mem_of_lookup {k : String} {v : α} {l : List (String × α)} (h : l.lookup k = some v) :
    (k, v) ∈ l := by
  obtain ⟨a, b, rfl, -⟩ := List.lookup_eq_some_iff.1 h
  exact List.mem_append_right a List.mem_cons_self

/-- Ascending lists with the same values are equal. -/
theorem eq_of_lookup_eq {l m : List (String × α)} (hl : l.Pairwise fun a b => a.1 < b.1)
    (hm : m.Pairwise fun a b => a.1 < b.1) (h : ∀ k, l.lookup k = m.lookup k) : l = m := by
  -- By induction on both lists, which must start with the same name.
  induction l generalizing m with
  | nil =>
    cases m with
    | nil => rfl
    | cons e m => exact nomatch (h e.1).trans List.lookup_cons_self
  | cons d l ih =>
    cases m with
    | nil => exact nomatch List.lookup_cons_self.symm.trans (h d.1)
    | cons e m =>
      rw [List.pairwise_cons] at hl hm
      -- Each first name has a value in both lists, so neither is below the other.
      have hname : d.1 = e.1 := by
        refine Classical.byContradiction fun hne => ?_
        have hd := h d.1
        have he := h e.1
        rw [lookup_cons_of_ne hne] at hd
        rw [lookup_cons_of_ne (Ne.symm hne)] at he
        have hde := hl.1 _ (mem_of_lookup (he.trans List.lookup_cons_self))
        have hed := hm.1 _ (mem_of_lookup (hd.symm.trans List.lookup_cons_self))
        exact String.lt_asymm hde hed
      obtain ⟨i, v⟩ := d
      obtain ⟨j, w⟩ := e
      obtain rfl : i = j := hname
      obtain rfl : v = w := by simpa using h i
      congr 1
      refine ih hl.2 hm.2 fun k => ?_
      by_cases hk : k = i
      · rw [hk, lookup_eq_none_of_lt hl.1, lookup_eq_none_of_lt hm.1]
      · have hlookup := h k
        rwa [lookup_cons_of_ne hk, lookup_cons_of_ne hk] at hlookup

/-- **Two maps with the same values are equal.** -/
theorem ext_get? {m n : Keyed α} (h : ∀ k, m.get? k = n.get? k) : m = n :=
  ext_entries (eq_of_lookup_eq m.ascending n.ascending h)

/-- Of several values of a name, the last one counts. -/
theorem get?_foldl_insert (l : List (String × α)) (m : Keyed α) (k : String) :
    (l.foldl (fun m e => m.insert e.1 e.2) m).get? k = (l.reverse.lookup k).or (m.get? k) := by
  -- By induction on the list: what is entered later hides what was there.
  induction l generalizing m with
  | nil => rfl
  | cons e l ih =>
    rw [List.foldl_cons, ih, get?_insert, List.reverse_cons, List.lookup_append, Option.or_assoc]
    congr 1
    split
    · rename_i hk
      rw [hk, List.lookup_cons_self]
      rfl
    · rename_i hk
      rw [lookup_cons_of_ne hk]
      rfl

/-- A list of ascending names has one value for each name. -/
theorem lookup_reverse_of_ascending {l : List (String × α)} (hl : l.Pairwise fun a b => a.1 < b.1) (k : String) :
    l.reverse.lookup k = l.lookup k := by
  induction l with
  | nil => rfl
  | cons e l ih =>
    rw [List.pairwise_cons] at hl
    rw [List.reverse_cons, List.lookup_append, ih hl.2]
    by_cases hk : k = e.1
    · -- The names that follow are above this one.
      rw [hk, lookup_eq_none_of_lt hl.1, Option.none_or, List.lookup_cons_self, List.lookup_cons_self]
    · rw [lookup_cons_of_ne hk, lookup_cons_of_ne hk, List.lookup_nil, Option.or_none]

/-- A map can be read from the back as well. -/
theorem lookup_reverse_entries (m : Keyed α) (k : String) :
    m.entries.reverse.lookup k = m.get? k :=
  lookup_reverse_of_ascending m.ascending k

/-- **Entries that are entered again change nothing.** -/
theorem foldl_insert_twice (l : List (String × α)) (m : Keyed α) :
    l.foldl (fun m e => m.insert e.1 e.2) (l.foldl (fun m e => m.insert e.1 e.2) m)
      = l.foldl (fun m e => m.insert e.1 e.2) m := by
  refine ext_get? fun k => ?_
  rw [get?_foldl_insert, get?_foldl_insert, ← Option.or_assoc, Option.or_self]

/-- Of several values of a name, the first one counts, if only gaps are filled. -/
theorem get?_foldl_insertNew (l : List (String × α)) (m : Keyed α) (k : String) :
    (l.foldl (fun m e => m.insertNew e.1 e.2) m).get? k = (m.get? k).or (l.lookup k) := by
  -- By induction on the list: what is there stays.
  induction l generalizing m with
  | nil => exact (Option.or_none).symm
  | cons e l ih =>
    rw [List.foldl_cons, ih, get?_insertNew]
    split
    · rename_i hk
      rw [hk, List.lookup_cons_self]
      cases m.get? e.1 <;> rfl
    · rename_i hk
      rw [lookup_cons_of_ne hk]

/-! ### Lists without repeated names -/

/-- A new entry only goes to its place. -/
theorem perm_insertEntry {k : String} {v : α} {l : List (String × α)} (hk : k ∉ l.map (·.1)) :
    (insertEntry k v l).Perm ((k, v) :: l) := by
  induction l with
  | nil => exact .refl _
  | cons e l ih =>
    obtain ⟨j, w⟩ := e
    rw [List.map_cons, List.mem_cons, not_or] at hk
    rw [insertEntry]
    -- It goes before a larger name, and it is not the name that is there.
    split
    next => exact .refl _
    next =>
      rw [if_neg hk.1]
      exact ((ih hk.2).cons _).trans (.swap _ _ _)

/-- Entries of new names are entered into a map without losing any. -/
theorem perm_entries_foldl_insert {l : List (String × α)} {m : Keyed α} (hm : ((m.entries ++ l).map (·.1)).Nodup) :
    (l.foldl (fun m e => m.insert e.1 e.2) m).entries.Perm (m.entries ++ l) := by
  -- By induction on the list, with the entries of the map and those to come taken together.
  induction l generalizing m with
  | nil =>
    rw [List.append_nil]
    exact .refl _
  | cons e l ih =>
    -- The entry moves from the front of the list into the map.
    have hmoved : (e :: m.entries ++ l).Perm (m.entries ++ e :: l) := List.perm_middle.symm
    have hnodup := (hmoved.map (·.1)).nodup_iff.2 hm
    have hnew : e.1 ∉ m.entries.map (·.1) := fun he => by
      rw [List.cons_append, List.map_cons, List.nodup_cons, List.map_append, List.mem_append] at hnodup
      exact hnodup.1 (.inl he)
    have hinsert : ((m.insert e.1 e.2).entries ++ l).Perm (e :: m.entries ++ l) :=
      (perm_insertEntry hnew).append_right l
    exact (ih ((hinsert.map (·.1)).nodup_iff.2 hnodup)).trans (hinsert.trans hmoved)

/-- **The map of a list without repeated names has the entries of the list.** -/
theorem perm_entries_ofList {l : List (String × α)} (hl : (l.map (·.1)).Nodup) :
    (ofList l).entries.Perm l :=
  perm_entries_foldl_insert (m := empty) hl

/-- Without repeated names a value is found if it is there. -/
theorem lookup_eq_some_iff_mem {l : List (String × α)} (hl : (l.map (·.1)).Nodup) {k : String} {v : α} :
    l.lookup k = some v ↔ (k, v) ∈ l := by
  refine ⟨mem_of_lookup, fun hv => ?_⟩
  induction l with
  | nil => cases hv
  | cons e l ih =>
    rw [List.map_cons, List.nodup_cons] at hl
    rcases List.mem_cons.1 hv with rfl | hv
    · exact List.lookup_cons_self
    -- The entry stands further down, so its name is not that of the first one.
    · have hk : k ≠ e.1 := by
        rintro rfl
        exact hl.1 (List.mem_map.2 ⟨(e.1, v), hv, rfl⟩)
      rw [lookup_cons_of_ne hk]
      exact ih hl.2 hv

/-- In a list without repeated names, the order does not matter to a lookup. -/
theorem lookup_of_perm {l m : List (String × α)} (h : l.Perm m) (hm : (m.map (·.1)).Nodup) (k : String) :
    l.lookup k = m.lookup k := by
  have hl : (l.map (·.1)).Nodup := (h.map (·.1)).nodup_iff.2 hm
  refine Option.ext fun v => ?_
  rw [lookup_eq_some_iff_mem hl, lookup_eq_some_iff_mem hm, h.mem_iff]

/-- In a list without repeated names, the order does not matter to its map. -/
theorem ofList_of_perm {l m : List (String × α)} (h : l.Perm m) (hm : (m.map (·.1)).Nodup) :
    ofList l = ofList m := by
  refine ext_get? fun k => ?_
  have hreverse : l.reverse.Perm m.reverse := l.reverse_perm.trans (h.trans m.reverse_perm.symm)
  unfold ofList
  rw [get?_foldl_insert, get?_foldl_insert,
    lookup_of_perm hreverse ((m.reverse_perm.map (·.1)).nodup_iff.2 hm)]

/-- The names of a map are all different. -/
theorem nodup_names (m : Keyed α) : (m.entries.map (·.1)).Nodup := by
  rw [List.Nodup, List.pairwise_map]
  refine m.ascending.imp fun {a b} hlt hab => ?_
  rw [hab] at hlt
  exact String.lt_irrefl b.1 hlt

/-- A map is the map of its entries. -/
theorem ofList_entries (m : Keyed α) : ofList m.entries = m := by
  refine ext_get? fun k => ?_
  unfold ofList
  rw [get?_foldl_insert, lookup_reverse_entries, get?_empty, Option.or_none]

/-! ### Parts -/

/-- The entries whose names satisfy a condition. -/
def restrict (m : Keyed α) (q : String → Bool) : Keyed α :=
  ⟨m.entries.filter fun e => q e.1, m.ascending.sublist List.filter_sublist⟩

variable {q : String → Bool}

/-- A part has the entries whose names satisfy the condition. -/
theorem entries_restrict (m : Keyed α) :
    (m.restrict q).entries = m.entries.filter fun e => q e.1 := rfl

theorem keys_restrict (m : Keyed α) : (m.restrict q).keys = m.keys.filter q := by
  unfold keys
  rw [entries_restrict, List.filter_map]
  rfl

/-- A part gives the value of a name that satisfies the condition. -/
theorem get?_restrict (m : Keyed α) (k : String) :
    (m.restrict q).get? k = if q k then m.get? k else none := by
  unfold get?
  rw [entries_restrict]
  induction m.entries with
  | nil => simp
  | cons e l ih =>
    obtain ⟨j, v⟩ := e
    rw [List.lookup_cons]
    -- The first entry is in the part or not, and it is of the name or not.
    by_cases hj : q j = true
    · rw [List.filter_cons_of_pos (by exact hj), List.lookup_cons, ih]
      by_cases hk : k = j
      · simp [hk, hj]
      · have hb : (k == j) = false := by simpa using hk
        simp [hb]
    · rw [List.filter_cons_of_neg (by exact hj), ih]
      by_cases hk : k = j
      · simp [hk, hj]
      · have hb : (k == j) = false := by simpa using hk
        simp [hb]

/-- An entry before all others goes to the front. -/
theorem insertEntry_of_lt {k : String} {v : α} {l : List (String × α)} (h : ∀ e ∈ l, k < e.1) :
    insertEntry k v l = (k, v) :: l := by
  cases l with
  | nil => rfl
  | cons e l =>
    obtain ⟨j, w⟩ := e
    unfold insertEntry
    rw [if_pos (h (j, w) List.mem_cons_self)]

/-- An entry of a name outside the part leaves the part as it is. -/
theorem filter_insertEntry_of_neg {k : String} (v : α) (hq : ¬ q k = true) (l : List (String × α)) :
    ((insertEntry k v l).filter fun e => q e.1) = l.filter fun e => q e.1 := by
  -- By induction on the entries, following the place that the new one is given.
  induction l with
  | nil => exact List.filter_cons_of_neg hq
  | cons e l ih =>
    obtain ⟨j, w⟩ := e
    unfold insertEntry
    split
    · exact List.filter_cons_of_neg hq
    · split
      · rename_i hkj
        subst hkj
        rw [List.filter_cons_of_neg (by exact hq), List.filter_cons_of_neg (by exact hq)]
      · rw [List.filter_cons, List.filter_cons, ih]

/-- An entry of a name of the part goes to its place in the part. -/
theorem filter_insertEntry_of_pos {k : String} (v : α) (hq : q k = true) {l : List (String × α)}
    (h : l.Pairwise fun a b => a.1 < b.1) :
    ((insertEntry k v l).filter fun e => q e.1) = insertEntry k v (l.filter fun e => q e.1) := by
  induction l with
  | nil => exact List.filter_cons_of_pos hq
  | cons e l ih =>
    obtain ⟨j, w⟩ := e
    rw [List.pairwise_cons] at h
    by_cases hkj : k < j
    · -- All names of the part that follow are above `k` as well.
      have hl : ∀ e ∈ ((j, w) :: l).filter fun e => q e.1, k < e.1 := by
        intro e he
        rcases List.mem_cons.1 (List.mem_filter.1 he).1 with rfl | he'
        · exact hkj
        · exact String.lt_trans hkj (h.1 e he')
      rw [insertEntry_of_lt hl]
      unfold insertEntry
      rw [if_pos hkj]
      exact List.filter_cons_of_pos hq
    -- The entry goes at `j` or behind it, in the part as well if `j` is of the part.
    · by_cases hj : q j = true
      · rw [List.filter_cons_of_pos (by exact hj)]
        unfold insertEntry
        rw [if_neg hkj, if_neg hkj]
        split
        · exact List.filter_cons_of_pos hq
        · rw [List.filter_cons_of_pos (by exact hj), ih h.2]
      · have hne : k ≠ j := fun e => hj (e ▸ hq)
        rw [List.filter_cons_of_neg (by exact hj), ← ih h.2, insertEntry, if_neg hkj, if_neg hne]
        exact List.filter_cons_of_neg (by exact hj)

/-- **A part of a map with a value set.** -/
theorem restrict_insert (m : Keyed α) (k : String) (v : α) :
    (m.insert k v).restrict q = if q k then (m.restrict q).insert k v else m.restrict q := by
  apply ext_entries
  split
  · rename_i hq
    exact filter_insertEntry_of_pos v hq m.ascending
  · rename_i hq
    exact filter_insertEntry_of_neg v hq m.entries

/-- The part of a map that is built up from a list is built up from a part of the list. -/
theorem restrict_foldl_insert (l : List (String × α)) (m : Keyed α) :
    (l.foldl (fun m e => m.insert e.1 e.2) m).restrict q
      = (l.filter fun e => q e.1).foldl (fun m e => m.insert e.1 e.2) (m.restrict q) := by
  induction l generalizing m with
  | nil => rfl
  | cons e l ih =>
    rw [List.foldl_cons, ih, restrict_insert]
    by_cases hq : q e.1 = true
    · rw [List.filter_cons_of_pos (by exact hq), if_pos hq, List.foldl_cons]
    · rw [List.filter_cons_of_neg (by exact hq), if_neg hq]

/-! ### Sums -/

/-- The sum of the values of a map of counts. -/
def total (m : Keyed Nat) : Nat := m.values.foldr (· + ·) 0

/-- **Setting a value** takes the old value out of the sum and puts the new one in. -/
theorem total_insert (m : Keyed Nat) (k : String) (v : Nat) :
    (m.insert k v).total + (m.get? k).getD 0 = m.total + v := by
  obtain ⟨l, h⟩ := m
  change ((insertEntry k v l).map (·.2)).foldr (· + ·) 0 + (l.lookup k).getD 0
    = (l.map (·.2)).foldr (· + ·) 0 + v
  induction l with
  | nil => simp [insertEntry]
  | cons e l ih =>
    obtain ⟨j, w⟩ := e
    rw [List.pairwise_cons] at h
    have ih := ih h.2
    unfold insertEntry
    rw [List.lookup_cons]
    split
    · rename_i hkj
      -- The names after `j` are above it, so `k` occurs nowhere.
      have hl : ((j, w) :: l).lookup k = none := by
        rw [List.lookup_eq_none_iff]
        intro e he
        rcases List.mem_cons.1 he with rfl | he'
        · simpa using fun hk : k = j => absurd (hk ▸ hkj) (String.lt_irrefl j)
        · have := String.lt_trans hkj (h.1 e he')
          simpa using fun hk : k = e.1 => absurd (hk ▸ this) (String.lt_irrefl e.1)
      rw [List.lookup_cons] at hl
      rw [hl]
      simp only [List.map_cons, List.foldr_cons, Option.getD_none]
      omega
    · split
      -- The old value stands at `k` itself, and the new one takes its place.
      · rename_i hkj
        subst hkj
        simp only [beq_self_eq_true, List.map_cons, List.foldr_cons, Option.getD_some]
        omega
      · rename_i hkj
        have hb : (k == j) = false := by simpa using hkj
        simp only [hb, List.map_cons, List.foldr_cons]
        omega

end CodeAtlas.Keyed

namespace CodeAtlas

/-- **Sorting a part of a list of names** gives the part of the sorted list. -/
theorem filter_sortedNames (q : String → Bool) (l : List String) :
    (sortedNames l).filter q = sortedNames (l.filter q) := by
  unfold sortedNames Keyed.ofList
  rw [← Keyed.keys_restrict, Keyed.restrict_foldl_insert, List.filter_map]
  rfl

/-- Sorting brings in no names. -/
theorem mem_of_mem_sortedNames {l : List String} {name : String} (h : name ∈ sortedNames l) :
    name ∈ l := by
  refine Decidable.byContradiction fun hname => ?_
  have hnone : l.filter (· == name) = [] :=
    List.filter_eq_nil_iff.2 fun x hx hxn => hname (beq_iff_eq.1 hxn ▸ hx)
  have hmem : name ∈ (sortedNames l).filter (· == name) :=
    List.mem_filter.2 ⟨h, beq_self_eq_true name⟩
  rw [filter_sortedNames, hnone] at hmem
  cases hmem

/-- Sorting keeps the set of names. -/
theorem mem_sortedNames {l : List String} {name : String} : name ∈ sortedNames l ↔ name ∈ l := by
  refine ⟨mem_of_mem_sortedNames, ?_⟩
  intro h
  rw [sortedNames, Keyed.ofList, Keyed.mem_keys_iff, Keyed.get?_foldl_insert, Option.isSome_or,
    Bool.or_eq_true, List.lookup_isSome_iff]
  left
  simpa using h

/-- Sorted names are in ascending order, without repetition. -/
theorem ascending_sortedNames (l : List String) : (sortedNames l).Pairwise (· < ·) := by
  rw [sortedNames, Keyed.keys, List.pairwise_map]
  exact Keyed.ascending _

end CodeAtlas
