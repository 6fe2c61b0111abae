import Mathlib.Data.List.Nodup
import CodeAtlas.Register

/-!
# Views of a register

What the operations of a `Register` do to its two views, the list of its keys and the entry of a key:

* `mem_keys_insertNew`, `mem_keys_upsert` — keys are never lost, and only the key of the new entry is
  gained;
* `get?_eq_some_iff` — since keys are distinct, looking a key up finds *the* entry with that key;
* `ext_get?` — the two views tell a register;
* `foldl_insertNew_twice` — entries that arrive again change nothing;
* `get?_upsertAll_of_mem`, `upsertAll_twice` — entries with distinct keys that are folded in one after the
  other do not meet, so each is merged with what was there before, and a second round changes nothing if
  merging twice is merging once;
* `mem_upsertAll_of_subset` — where some of them were there before, all of them are there afterwards;
* `restrict_insertNew`, `restrict_upsert` — the part of a register whose keys satisfy a condition evolves
  on its own: an entry of another key leaves it as it is, and an entry of such a key acts on it as it acts
  on the whole.

The last item is what a comparison of two runs rests on, so it is stated as an equality of registers and
not of their entries.
-/

namespace CodeAtlas.Register

variable {α κ : Type} {key : α → κ}

/-- Two registers with the same entries are equal. -/
theorem ext_entries {r t : Register α key} (h : r.entries = t.entries) : r = t := by
  obtain ⟨l, hl⟩ := r
  obtain ⟨m, hm⟩ := t
  obtain rfl : l = m := h
  rfl

theorem mem_keys_iff {r : Register α key} {k : κ} : k ∈ r.keys ↔ ∃ a ∈ r.entries, key a = k := by
  unfold keys
  rw [List.mem_map]

/-- Entries with one key are one entry. -/
theorem eq_of_key_eq {r : Register α key} {a b : α} (ha : a ∈ r.entries) (hb : b ∈ r.entries)
    (h : key a = key b) : a = b :=
  List.inj_on_of_nodup_map r.distinct ha hb h

variable [DecidableEq κ]

/-! ### Looking up -/

/-- **Looking a key up finds the entry with that key.** -/
theorem get?_eq_some_iff {r : Register α key} {k : κ} {a : α} :
    r.get? k = some a ↔ a ∈ r.entries ∧ key a = k := by
  constructor
  · intro h
    exact ⟨List.mem_of_find?_eq_some h, by simpa using List.find?_some h⟩
  · rintro ⟨ha, rfl⟩
    cases hf : r.get? (key a) with
    | none =>
      have := List.find?_eq_none.1 hf a ha
      simp at this
    -- The entry that is found has the same key, so it is the same entry.
    | some b =>
      have hb : key b = key a := by simpa using List.find?_some hf
      rw [eq_of_key_eq (List.mem_of_find?_eq_some hf) ha hb]

theorem isSome_get?_iff {r : Register α key} {k : κ} : (r.get? k).isSome ↔ k ∈ r.keys := by
  rw [Option.isSome_iff_exists, mem_keys_iff]
  simp only [get?_eq_some_iff]

theorem get?_eq_none_iff {r : Register α key} {k : κ} : r.get? k = none ↔ k ∉ r.keys := by
  rw [← isSome_get?_iff, Bool.not_eq_true, Option.isSome_eq_false_iff, Option.isNone_iff_eq_none]

/-- **Two registers with the same keys in the same order and the same entry for each key are equal.** -/
theorem ext_get? {r t : Register α key} (hkeys : r.keys = t.keys) (hget : ∀ k, r.get? k = t.get? k) :
    r = t := by
  apply ext_entries
  -- Each list of entries is its list of keys, looked up one by one.
  have hentries : ∀ u : Register α key, u.entries = u.keys.filterMap u.get? := by
    intro u
    unfold keys
    rw [List.filterMap_map]
    conv_lhs => rw [← List.filterMap_some (l := u.entries)]
    refine List.filterMap_congr fun a ha => ?_
    exact (get?_eq_some_iff.2 ⟨ha, rfl⟩).symm
  rw [hentries r, hentries t, hkeys]
  exact List.filterMap_congr fun k _ => hget k

/-! ### Adding entries -/

/-- An entry whose key is there is not added. -/
theorem entries_insertNew_of_mem {r : Register α key} {a : α} (h : key a ∈ r.keys) :
    (r.insertNew a).entries = r.entries := by
  unfold insertNew
  rw [dif_pos h]

theorem entries_insertNew_of_notMem {r : Register α key} {a : α} (h : key a ∉ r.keys) :
    (r.insertNew a).entries = r.entries ++ [a] := by
  unfold insertNew
  rw [dif_neg h]

/-- An entry whose key is there is merged. -/
theorem entries_upsert_of_mem {r : Register α key} {merge : α → α → α}
    {hm : ∀ b a, key b = key a → key (merge b a) = key b} {a : α} (h : key a ∈ r.keys) :
    (r.upsert merge hm a).entries = foldInto key merge a r.entries := by
  unfold upsert
  rw [dif_pos h]

theorem entries_upsert_of_notMem {r : Register α key} {merge : α → α → α}
    {hm : ∀ b a, key b = key a → key (merge b a) = key b} {a : α} (h : key a ∉ r.keys) :
    (r.upsert merge hm a).entries = r.entries ++ [a] := by
  unfold upsert
  rw [dif_neg h]

/-- Only the key of the new entry is gained. -/
theorem mem_keys_insertNew {r : Register α key} {a : α} {k : κ} :
    k ∈ (r.insertNew a).keys ↔ k ∈ r.keys ∨ k = key a := by
  rw [keys_insertNew]
  split
  · rename_i h
    exact ⟨.inl, fun hk => hk.elim id fun e => e ▸ h⟩
  · rw [List.mem_append, List.mem_singleton]

theorem mem_keys_upsert {r : Register α key} {merge : α → α → α}
    {h : ∀ b a, key b = key a → key (merge b a) = key b} {a : α} {k : κ} :
    k ∈ (r.upsert merge h a).keys ↔ k ∈ r.keys ∨ k = key a := by
  rw [keys_upsert]
  split
  · rename_i ha
    exact ⟨.inl, fun hk => hk.elim id fun e => e ▸ ha⟩
  · rw [List.mem_append, List.mem_singleton]

/-- An entry of the register with one more entry was there or is the new one. -/
theorem mem_insertNew {r : Register α key} {a b : α} (h : b ∈ (r.insertNew a).entries) :
    b ∈ r.entries ∨ b = a := by
  by_cases ha : key a ∈ r.keys
  · rw [entries_insertNew_of_mem ha] at h
    exact .inl h
  · rwa [entries_insertNew_of_notMem ha, List.mem_append, List.mem_singleton] at h

/-- An entry of the register with an entry folded in was there, is the new one, or is the new one merged
into one of its key that was there. -/
theorem mem_upsert {r : Register α key} {merge : α → α → α}
    {h : ∀ b a, key b = key a → key (merge b a) = key b} {a b : α}
    (hb : b ∈ (r.upsert merge h a).entries) :
    b ∈ r.entries ∨ b = a ∨ ∃ c ∈ r.entries, key c = key a ∧ b = merge c a := by
  by_cases ha : key a ∈ r.keys
  · rw [entries_upsert_of_mem ha] at hb
    obtain ⟨c, hc, rfl⟩ := List.mem_map.1 hb
    split
    · rename_i hk
      exact .inr (.inr ⟨c, hc, hk, rfl⟩)
    · exact .inl hc
  · rw [entries_upsert_of_notMem ha] at hb
    rcases List.mem_append.1 hb with hb | hb
    · exact .inl hb
    · exact .inr (.inl (List.mem_singleton.1 hb))

/-! ### Repetition -/

/-- An entry whose key is there changes nothing. -/
theorem insertNew_of_mem {r : Register α key} {a : α} (h : key a ∈ r.keys) : r.insertNew a = r :=
  ext_entries (entries_insertNew_of_mem h)

/-- The keys after several entries. -/
theorem mem_keys_foldl_insertNew {r : Register α key} {l : List α} {k : κ} :
    k ∈ (l.foldl insertNew r).keys ↔ k ∈ r.keys ∨ ∃ a ∈ l, key a = k := by
  induction l generalizing r with
  | nil => simp
  | cons a l ih =>
    rw [List.foldl_cons, ih, mem_keys_insertNew]
    simp [or_assoc, eq_comm]

/-- Entries whose keys are there change nothing. -/
theorem foldl_insertNew_of_mem {r : Register α key} {l : List α} (h : ∀ a ∈ l, key a ∈ r.keys) :
    l.foldl insertNew r = r := by
  induction l with
  | nil => rfl
  | cons a l ih =>
    rw [List.foldl_cons, insertNew_of_mem (h a List.mem_cons_self)]
    exact ih fun b hb => h b (List.mem_cons_of_mem a hb)

/-- **Entries that arrive again change nothing.** -/
theorem foldl_insertNew_twice (r : Register α key) (l : List α) :
    l.foldl insertNew (l.foldl insertNew r) = l.foldl insertNew r :=
  foldl_insertNew_of_mem fun a ha => mem_keys_foldl_insertNew.2 (.inr ⟨a, ha, rfl⟩)

/-! ### Folding in -/

section Upsert

variable {merge : α → α → α} {h : ∀ b a, key b = key a → key (merge b a) = key b}

/-- **What a key has after an entry is folded in.** -/
theorem get?_upsert (r : Register α key) (a : α) (k : κ) :
    (r.upsert merge h a).get? k
      = if k = key a then some ((r.get? k).elim a fun b => merge b a) else r.get? k := by
  split
  -- The key of the entry itself: what is found there is the entry, merged into the old one if there was one.
  · rename_i hk
    subst hk
    cases hg : r.get? (key a) with
    | none =>
      rw [get?_eq_none_iff] at hg
      refine get?_eq_some_iff.2 ⟨?_, rfl⟩
      rw [entries_upsert_of_notMem hg]
      exact List.mem_append_right _ List.mem_cons_self
    | some b =>
      obtain ⟨hb, hkey⟩ := get?_eq_some_iff.1 hg
      refine get?_eq_some_iff.2 ⟨?_, (h b a hkey).trans hkey⟩
      rw [entries_upsert_of_mem (mem_keys_iff.2 ⟨b, hb, hkey⟩)]
      refine List.mem_map.2 ⟨b, hb, ?_⟩
      rw [if_pos hkey]
      rfl
  · rename_i hk
    -- Entries of other keys are neither changed nor added.
    have hmem : ∀ b, key b = k → (b ∈ (r.upsert merge h a).entries ↔ b ∈ r.entries) := by
      intro b hb
      constructor
      · intro hm
        rcases mem_upsert hm with hm | rfl | ⟨c, -, hc, rfl⟩
        · exact hm
        · exact absurd hb.symm hk
        · exact absurd (hb.symm.trans ((h c a hc).trans hc)) hk
      · intro hm
        by_cases ha : key a ∈ r.keys
        · rw [entries_upsert_of_mem ha]
          refine List.mem_map.2 ⟨b, hm, if_neg fun hba => hk (hb.symm.trans hba)⟩
        · rw [entries_upsert_of_notMem ha]
          exact List.mem_append_left _ hm
    refine Option.ext fun b => ?_
    rw [get?_eq_some_iff, get?_eq_some_iff]
    exact ⟨fun ⟨hm, hb⟩ => ⟨(hmem b hb).1 hm, hb⟩, fun ⟨hm, hb⟩ => ⟨(hmem b hb).2 hm, hb⟩⟩

/-- The register with all entries of a list folded in, one after the other. -/
def upsertAll (r : Register α key) (merge : α → α → α)
    (h : ∀ b a, key b = key a → key (merge b a) = key b) (l : List α) : Register α key :=
  l.foldl (fun r a => r.upsert merge h a) r

theorem upsertAll_cons (r : Register α key) (a : α) (l : List α) :
    r.upsertAll merge h (a :: l) = (r.upsert merge h a).upsertAll merge h l := rfl

/-- The keys after several entries are folded in. -/
theorem mem_keys_upsertAll {r : Register α key} {l : List α} {k : κ} :
    k ∈ (r.upsertAll merge h l).keys ↔ k ∈ r.keys ∨ ∃ a ∈ l, key a = k := by
  induction l generalizing r with
  | nil => simp [upsertAll]
  | cons a l ih =>
    rw [upsertAll_cons, ih, mem_keys_upsert]
    simp [or_assoc, eq_comm]

/-- Entries whose keys are there add no keys. -/
theorem keys_upsertAll_of_mem {r : Register α key} {l : List α} (hl : ∀ a ∈ l, key a ∈ r.keys) :
    (r.upsertAll merge h l).keys = r.keys := by
  induction l generalizing r with
  | nil => rfl
  | cons a l ih =>
    have ha : (r.upsert merge h a).keys = r.keys := by
      rw [keys_upsert, if_pos (hl a List.mem_cons_self)]
    rw [upsertAll_cons, ih, ha]
    intro b hb
    rw [ha]
    exact hl b (List.mem_cons_of_mem a hb)

/-- A key that no entry of the list has keeps its entry. -/
theorem get?_upsertAll_of_notMem {r : Register α key} {l : List α} {k : κ} (hk : ∀ a ∈ l, key a ≠ k) :
    (r.upsertAll merge h l).get? k = r.get? k := by
  induction l generalizing r with
  | nil => rfl
  | cons a l ih =>
    have ha : k ≠ key a := (hk a List.mem_cons_self).symm
    rw [upsertAll_cons, ih fun b hb => hk b (List.mem_cons_of_mem a hb), get?_upsert, if_neg ha]

/-- **An entry of a list with distinct keys is folded into what was there**, whatever the others are. -/
theorem get?_upsertAll_of_mem {r : Register α key} {l : List α} (hd : (l.map key).Nodup) {a : α}
    (ha : a ∈ l) :
    (r.upsertAll merge h l).get? (key a) = some ((r.get? (key a)).elim a fun b => merge b a) := by
  -- Along the list: before the entry of the key nothing is found under it, and behind it nothing more.
  induction l generalizing r with
  | nil => cases ha
  | cons c l ih =>
    rw [List.map_cons, List.nodup_cons] at hd
    rw [upsertAll_cons]
    rcases List.mem_cons.1 ha with rfl | ha
    · -- No later entry has the same key.
      have hlater : ∀ b ∈ l, key b ≠ key a := fun b hb he => hd.1 (he ▸ List.mem_map_of_mem hb)
      rw [get?_upsertAll_of_notMem hlater, get?_upsert, if_pos rfl]
    · have hne : key a ≠ key c := fun he => hd.1 (he ▸ List.mem_map_of_mem ha)
      rw [ih hd.2 ha, get?_upsert, if_neg hne]

/-- **Entries that are folded in again change nothing**, if their keys are distinct and if merging an entry
twice is merging it once. -/
theorem upsertAll_twice {r : Register α key} {l : List α} (hd : (l.map key).Nodup)
    (hself : ∀ a ∈ l, merge a a = a) (hagain : ∀ a ∈ l, ∀ b, merge (merge b a) a = merge b a) :
    (r.upsertAll merge h l).upsertAll merge h l = r.upsertAll merge h l := by
  refine ext_get? (keys_upsertAll_of_mem fun a ha => mem_keys_upsertAll.2 (.inr ⟨a, ha, rfl⟩)) ?_
  intro k
  by_cases hk : ∃ a ∈ l, key a = k
  · obtain ⟨a, ha, rfl⟩ := hk
    -- In the second round, the entry meets what it left behind in the first one.
    rw [get?_upsertAll_of_mem hd ha, get?_upsertAll_of_mem hd ha]
    cases r.get? (key a) with
    | none => exact congrArg some (hself a ha)
    | some b => exact congrArg some (hagain a ha b)
  · exact get?_upsertAll_of_notMem fun a ha he => hk ⟨a, ha, he⟩

/-- **Entries of a list that are there already make no difference** once all entries of the list are folded
in, if its keys are distinct and if an entry merged with itself stays as it is. -/
theorem mem_upsertAll_of_subset {r : Register α key} {l : List α} (hd : (l.map key).Nodup)
    (hself : ∀ a ∈ l, merge a a = a) (hr : r.entries ⊆ l) {a : α} :
    a ∈ (r.upsertAll merge h l).entries ↔ a ∈ l := by
  -- What the register has under the key of an entry is that entry.
  have hget : ∀ b ∈ l, (r.upsertAll merge h l).get? (key b) = some b := by
    intro b hb
    rw [get?_upsertAll_of_mem hd hb]
    cases hg : r.get? (key b) with
    | none => rfl
    | some c =>
      obtain ⟨hc, hkey⟩ := get?_eq_some_iff.1 hg
      obtain rfl : c = b := List.inj_on_of_nodup_map hd (hr hc) hb hkey
      exact congrArg some (hself c hb)
  constructor
  · intro ha
    have hkeys : key a ∈ r.keys ∨ ∃ b ∈ l, key b = key a :=
      mem_keys_upsertAll.1 (mem_keys_iff.2 ⟨a, ha, rfl⟩)
    obtain ⟨b, hb, hkey⟩ : ∃ b ∈ l, key b = key a := by
      rcases hkeys with hold | hnew
      · obtain ⟨b, hb, hkey⟩ := mem_keys_iff.1 hold
        exact ⟨b, hr hb, hkey⟩
      · exact hnew
    obtain rfl : b = a := eq_of_key_eq (get?_eq_some_iff.1 (hget b hb)).1 ha hkey
    exact hb
  · exact fun ha => (get?_eq_some_iff.1 (hget a ha)).1

end Upsert

/-! ### Parts of a register -/

/-- The entries whose keys satisfy a condition. -/
def restrict (r : Register α key) (q : κ → Bool) : Register α key :=
  r.filter fun a => q (key a)

variable {q : κ → Bool}

omit [DecidableEq κ] in
theorem entries_restrict (r : Register α key) :
    (r.restrict q).entries = r.entries.filter fun a => q (key a) := rfl

omit [DecidableEq κ] in
/-- An entry is in the part if its key satisfies the condition. -/
theorem mem_restrict {r : Register α key} {a : α} :
    a ∈ (r.restrict q).entries ↔ a ∈ r.entries ∧ q (key a) = true := by
  rw [entries_restrict, List.mem_filter]

omit [DecidableEq κ] in
theorem mem_keys_restrict {r : Register α key} {k : κ} :
    k ∈ (r.restrict q).keys ↔ k ∈ r.keys ∧ q k = true := by
  simp only [mem_keys_iff, mem_restrict]
  constructor
  · rintro ⟨a, ⟨ha, hq⟩, rfl⟩
    exact ⟨⟨a, ha, rfl⟩, hq⟩
  · rintro ⟨⟨a, ha, rfl⟩, hq⟩
    exact ⟨a, ⟨ha, hq⟩, rfl⟩

/-- Looking up in a part of a register. -/
theorem get?_restrict {r : Register α key} {k : κ} :
    (r.restrict q).get? k = if q k then r.get? k else none := by
  split
  · rename_i hq
    cases hg : r.get? k with
    | none =>
      rw [get?_eq_none_iff] at hg ⊢
      exact fun hk => hg (mem_keys_restrict.1 hk).1
    | some a =>
      rw [get?_eq_some_iff] at hg ⊢
      exact ⟨mem_restrict.2 ⟨hg.1, hg.2 ▸ hq⟩, hg.2⟩
  -- No key outside of the part is one of its keys.
  · rename_i hq
    rw [get?_eq_none_iff]
    exact fun hk => hq (mem_keys_restrict.1 hk).2

omit [DecidableEq κ] in
/-- A part of the entries with one more at their end. -/
theorem filter_concat (l : List α) (a : α) :
    ((l ++ [a]).filter fun b => q (key b))
      = if q (key a) then (l.filter fun b => q (key b)) ++ [a] else l.filter fun b => q (key b) := by
  rw [List.filter_append]
  split
  · rename_i hq
    rw [List.filter_singleton, hq]
    rfl
  · rename_i hq
    rw [List.filter_singleton, Bool.eq_false_iff.2 hq]
    exact List.append_nil _

/-- Folding in keeps every key, so it commutes with a condition on keys. -/
theorem filter_foldInto {merge : α → α → α} (h : ∀ b a, key b = key a → key (merge b a) = key b)
    (a : α) (l : List α) :
    ((foldInto key merge a l).filter fun b => q (key b))
      = if q (key a) then foldInto key merge a (l.filter fun b => q (key b))
        else l.filter fun b => q (key b) := by
  induction l with
  | nil => split <;> rfl
  | cons b l ih =>
    unfold foldInto at ih ⊢
    -- A merged entry is on the same side of the condition as before.
    by_cases hb : key b = key a
    · have hm : key (merge b a) = key a := (h b a hb).trans hb
      by_cases hq : q (key a) = true <;> simp_all
    · by_cases hq : q (key b) = true
      · simp_all
        split <;> simp_all
      · simp_all

/-- **A part of a register with one more entry.** -/
theorem restrict_insertNew {r : Register α key} {a : α} :
    (r.insertNew a).restrict q = if q (key a) then (r.restrict q).insertNew a else r.restrict q := by
  apply ext_entries
  rw [entries_restrict]
  -- The new entry is dropped or put behind the others, and filtering does the same to it.
  by_cases ha : key a ∈ r.keys
  · rw [entries_insertNew_of_mem ha]
    split
    · rename_i hq
      rw [entries_insertNew_of_mem (mem_keys_restrict.2 ⟨ha, hq⟩), entries_restrict]
    · rfl
  · rw [entries_insertNew_of_notMem ha, filter_concat]
    split
    · rw [entries_insertNew_of_notMem fun hk => ha (mem_keys_restrict.1 hk).1, entries_restrict]
    · rfl

/-- **A part of a register with an entry folded in.** -/
theorem restrict_upsert {r : Register α key} {merge : α → α → α}
    {h : ∀ b a, key b = key a → key (merge b a) = key b} {a : α} :
    (r.upsert merge h a).restrict q
      = if q (key a) then (r.restrict q).upsert merge h a else r.restrict q := by
  apply ext_entries
  rw [entries_restrict]
  by_cases ha : key a ∈ r.keys
  · rw [entries_upsert_of_mem ha, filter_foldInto h]
    split
    · rename_i hq
      rw [entries_upsert_of_mem (mem_keys_restrict.2 ⟨ha, hq⟩), entries_restrict]
    · rfl
  · rw [entries_upsert_of_notMem ha, filter_concat]
    split
    · rw [entries_upsert_of_notMem fun hk => ha (mem_keys_restrict.1 hk).1, entries_restrict]
    · rfl

end CodeAtlas.Register
