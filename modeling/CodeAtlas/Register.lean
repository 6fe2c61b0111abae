/-!
# Lists of entries with distinct keys

A `Register` holds entries in the order in which they came, at most one for each key. An entry whose key
is already there either changes nothing (`insertNew`) or is folded into the entry that is there
(`upsert`); in both cases the order of the keys stays, and a new key goes to the end.
-/

namespace CodeAtlas

/-- **Entries in the order of their arrival, with distinct keys.** -/
structure Register (α : Type) {κ : Type} (key : α → κ) where
  entries : List α := []
  /-- No two entries have the same key. -/
  distinct : (entries.map key).Nodup := by exact .nil

namespace Register

variable {α κ : Type} {key : α → κ}

instance : Inhabited (Register α key) := ⟨{}⟩

instance : EmptyCollection (Register α key) := ⟨{}⟩

/-- The keys of the entries, in order. -/
def keys (r : Register α key) : List κ :=
  r.entries.map key

/-- The number of entries. -/
def size (r : Register α key) : Nat :=
  r.entries.length

/-- A new key keeps the keys distinct. -/
theorem nodup_concat {l : List κ} {k : κ} (h : l.Nodup) (hk : k ∉ l) : (l ++ [k]).Nodup := by
  rw [List.nodup_append]
  refine ⟨h, by simp, ?_⟩
  intro a ha b hb
  rw [List.mem_singleton.1 hb]
  exact fun e => hk (e ▸ ha)

variable [DecidableEq κ]

/-- Whether there is an entry with a key. -/
def contains (r : Register α key) (k : κ) : Bool :=
  decide (k ∈ r.keys)

/-- The entry with a key. -/
def get? (r : Register α key) (k : κ) : Option α :=
  r.entries.find? fun a => decide (key a = k)

/-- The register with one more entry at its end, unless its key is there already. -/
def insertNew (r : Register α key) (a : α) : Register α key :=
  if h : key a ∈ r.keys then r
  else
    { entries := r.entries ++ [a]
      distinct := by simpa using nodup_concat r.distinct h }

/-- The entries with `a` folded into each entry of its key. -/
def foldInto (key : α → κ) (merge : α → α → α) (a : α) (l : List α) : List α :=
  l.map fun b => if key b = key a then merge b a else b

/-- Folding in changes no key. -/
theorem map_key_foldInto {merge : α → α → α} (h : ∀ b a, key b = key a → key (merge b a) = key b)
    (a : α) (l : List α) : (foldInto key merge a l).map key = l.map key := by
  induction l with
  | nil => rfl
  | cons b l ih =>
    have hb : key (if key b = key a then merge b a else b) = key b := by
      split
      · exact h b a ‹_›
      · rfl
    simp only [foldInto, List.map_cons, hb] at ih ⊢
    rw [ih]

/-- **The register with an entry folded in.** The entry goes to the end if its key is new; otherwise it
is merged into the entry that is there, which keeps its key and its place. -/
def upsert (r : Register α key) (merge : α → α → α)
    (h : ∀ b a, key b = key a → key (merge b a) = key b) (a : α) : Register α key :=
  if ha : key a ∈ r.keys then
    { entries := foldInto key merge a r.entries
      distinct := by rw [map_key_foldInto h]; exact r.distinct }
  else
    { entries := r.entries ++ [a]
      distinct := by simpa using nodup_concat r.distinct ha }

/-- The entries that satisfy a condition. -/
def filter (r : Register α key) (p : α → Bool) : Register α key :=
  { entries := r.entries.filter p
    distinct := r.distinct.sublist (List.filter_sublist.map key) }

/-- Inserting adds a key at the end, if it is new. -/
theorem keys_insertNew (r : Register α key) (a : α) :
    (r.insertNew a).keys = if key a ∈ r.keys then r.keys else r.keys ++ [key a] := by
  unfold insertNew
  split <;> simp_all [keys]

/-- Folding in adds a key at the end, if it is new. -/
theorem keys_upsert (r : Register α key) {merge : α → α → α}
    (h : ∀ b a, key b = key a → key (merge b a) = key b) (a : α) :
    (r.upsert merge h a).keys = if key a ∈ r.keys then r.keys else r.keys ++ [key a] := by
  unfold upsert
  split
  · rename_i ha
    simp only [keys] at ha ⊢
    rw [map_key_foldInto h]
  · rename_i ha
    simp only [keys] at ha ⊢
    rw [List.map_append, List.map_singleton]

end Register

end CodeAtlas
