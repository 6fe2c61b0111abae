import CodeAtlas.Proofs.MadeNode

/-!
# Nodes that arrive again

A node that arrives again is merged into the one that is there. Where a real declaration meets a stand-in,
it takes its place; everywhere else merging only fills gaps, and then what has been filled once stays so.
`Covers b a` says that nothing of `a` is a gap of `b`: merging `a` into a node that covers it changes
nothing, after merging `a` it is covered, and later merges keep it so. Hence folding a list of nodes in
again changes nothing (`Register.foldNodes_twice`), provided that no real declaration of the list meets
a stand-in.

The nodes of files and of their records are never stand-ins (`Node.Made.isStub_eq_false`), so the proviso holds
while files are walked. While references are resolved it holds since all nodes that arrive are stand-ins.
-/

namespace CodeAtlas

namespace Node

/-! ### Properties -/

/-- Filling the gaps of properties. -/
theorem get?_fillProperties (a b : Properties) (k : String) :
    (fillProperties a b).get? k = (a.get? k).or (b.get? k) :=
  Keyed.get?_foldl_insertNew b.entries a k

/-- **Merging fills gaps**, unless a real declaration meets a stand-in. -/
theorem mergeFrom_eq {b a : Node} (h : b.isStub → a.isStub) :
    b.mergeFrom a =
      { b with properties := fillProperties b.properties a.properties, line := b.line.or a.line } := by
  unfold mergeFrom
  refine if_neg fun hb => ?_
  rw [Bool.and_eq_true, Bool.not_eq_true'] at hb
  exact Bool.false_ne_true (hb.2.symm.trans (h hb.1))

/-- **Nothing of `a` is a gap of `b`.** -/
structure Covers (b a : Node) : Prop where
  properties : ∀ k, (a.properties.get? k).isSome → (b.properties.get? k).isSome
  line : a.line.isSome → b.line.isSome

theorem Covers.refl (a : Node) : a.Covers a :=
  ⟨fun _ h => h, fun h => h⟩

/-- A node is covered once it has been merged. -/
theorem covers_mergeFrom {b a : Node} (h : b.isStub → a.isStub) : (b.mergeFrom a).Covers a := by
  rw [mergeFrom_eq h]
  refine ⟨fun k hk => ?_, fun hl => ?_⟩
  · rw [get?_fillProperties, Option.isSome_or, hk, Bool.or_true]
  · rw [Option.isSome_or, hl, Bool.or_true]

/-- Further merges keep what is covered. -/
theorem Covers.mergeFrom {b a c : Node} (hb : b.Covers a) (h : b.isStub → c.isStub) :
    (b.mergeFrom c).Covers a := by
  rw [mergeFrom_eq h]
  refine ⟨fun k hk => ?_, fun hl => ?_⟩
  · rw [get?_fillProperties, Option.isSome_or, hb.properties k hk, Bool.true_or]
  · rw [Option.isSome_or, hb.line hl, Bool.true_or]

/-- **Merging a node that is covered changes nothing.** -/
theorem Covers.mergeFrom_eq_self {b a : Node} (hb : b.Covers a) (h : b.isStub → a.isStub) :
    b.mergeFrom a = b := by
  -- An `or` whose first part is there whenever the second one is.
  have hor : ∀ {α : Type} {x y : Option α}, (y.isSome → x.isSome) → x.or y = x := by
    intro α x y hxy
    cases x with
    | some _ => rfl
    | none =>
      cases y with
      | none => rfl
      | some _ => exact nomatch hxy rfl
  have hproperties : fillProperties b.properties a.properties = b.properties := by
    refine Keyed.ext_get? fun k => ?_
    rw [get?_fillProperties, hor (hb.properties k)]
  rw [mergeFrom_eq h, hproperties, hor hb.line]

/-- A merge gives a stand-in only if one takes part in it. -/
theorem isStub_of_mergeFrom {b a : Node} (h : b.isStub → a.isStub) (hm : (b.mergeFrom a).isStub) :
    b.isStub ∨ a.isStub := by
  rw [mergeFrom_eq h] at hm
  unfold isStub at hm ⊢
  rw [beq_iff_eq, get?_fillProperties] at hm
  rcases Option.or_eq_some_iff.1 hm with hb | ⟨-, ha⟩
  · exact .inl (beq_iff_eq.2 hb)
  · exact .inr (beq_iff_eq.2 ha)

end Node

/-! ### Registers of nodes -/

namespace Register

/-- **No real declaration of a list meets a stand-in**, neither in a register nor in the list. -/
structure Gentle (r : Register Node Node.id) (l : List Node) : Prop where
  register : ∀ b ∈ r.entries, ∀ a ∈ l, b.isStub → a.isStub
  list : ∀ b ∈ l, ∀ a ∈ l, b.isStub → a.isStub

variable {r : Register Node Node.id} {l : List Node}

/-- Folding a node of the list in keeps the rest of the list gentle. -/
theorem Gentle.upsert {a : Node} (h : r.Gentle (a :: l)) :
    (r.upsert Node.mergeFrom WorkingSet.id_mergeFrom a).Gentle l := by
  refine ⟨fun b hb c hc hs => ?_, fun b hb c hc => ?_⟩
  · have hc' : c ∈ a :: l := List.mem_cons_of_mem a hc
    rcases mem_upsert hb with hb | rfl | ⟨d, hd, -, rfl⟩
    · exact h.register b hb c hc' hs
    · exact h.list b List.mem_cons_self c hc' hs
    · -- Whichever of the two is a stand-in, the others of the list are as well.
      rcases Node.isStub_of_mergeFrom (h.register d hd a List.mem_cons_self) hs with hs | hs
      · exact h.register d hd c hc' hs
      · exact h.list a List.mem_cons_self c hc' hs
  · exact h.list b (List.mem_cons_of_mem a hb) c (List.mem_cons_of_mem a hc)

/-- **A register in which nothing of a node is missing.** -/
structure Absorbs (r : Register Node Node.id) (a : Node) : Prop where
  mem_keys : a.id ∈ r.keys
  covers : ∀ b ∈ r.entries, b.id = a.id → b.Covers a

/-- A register absorbs a node that has just been entered. -/
theorem absorbs_upsert {a : Node} (h : ∀ b ∈ r.entries, b.isStub → a.isStub) :
    (r.upsert Node.mergeFrom WorkingSet.id_mergeFrom a).Absorbs a := by
  refine ⟨mem_keys_upsert.2 (.inr rfl), fun b hb hid => ?_⟩
  by_cases ha : a.id ∈ r.keys
  · -- The entry of the id is the merged one.
    rw [entries_upsert_of_mem ha] at hb
    obtain ⟨c, hc, rfl⟩ := List.mem_map.1 hb
    by_cases hk : c.id = a.id
    · rw [if_pos hk]
      exact Node.covers_mergeFrom (h c hc)
    · rw [if_neg hk] at hid
      exact absurd hid hk
  · rw [entries_upsert_of_notMem ha] at hb
    rcases List.mem_append.1 hb with hb | hb
    · exact absurd (mem_keys_iff.2 ⟨b, hb, hid⟩) ha
    · rw [List.mem_singleton.1 hb]
      exact .refl a

/-- It still does when another node is entered. -/
theorem Absorbs.upsert {a c : Node} (ha : r.Absorbs a) (h : ∀ b ∈ r.entries, b.isStub → c.isStub) :
    (r.upsert Node.mergeFrom WorkingSet.id_mergeFrom c).Absorbs a := by
  refine ⟨mem_keys_upsert.2 (.inl ha.mem_keys), fun b hb hid => ?_⟩
  rcases mem_upsert hb with hb' | rfl | ⟨d, hd, hdc, rfl⟩
  · exact ha.covers b hb' hid
  · -- The id was there before, so the new node was merged and is an entry only if it was one.
    rw [entries_upsert_of_mem (hid ▸ ha.mem_keys)] at hb
    obtain ⟨d, hd, hdb⟩ := List.mem_map.1 hb
    split at hdb
    · rename_i hk
      rw [← hdb]
      exact (ha.covers d hd (hk.trans hid)).mergeFrom (h d hd)
    · exact hdb ▸ ha.covers d hd ((congrArg Node.id hdb).trans hid)
  · rw [WorkingSet.id_mergeFrom d c hdc] at hid
    exact (ha.covers d hd hid).mergeFrom (h d hd)

/-- A node that is absorbed changes nothing. -/
theorem Absorbs.upsert_eq_self {a : Node} (ha : r.Absorbs a)
    (h : ∀ b ∈ r.entries, b.isStub → a.isStub) :
    r.upsert Node.mergeFrom WorkingSet.id_mergeFrom a = r := by
  apply ext_entries
  rw [entries_upsert_of_mem ha.mem_keys]
  unfold foldInto
  conv_rhs => rw [← List.map_id r.entries]
  -- Folding the node in touches the entries of its id only, and those cover it already.
  refine List.map_congr_left fun b hb => ?_
  split
  · rename_i hid
    exact (ha.covers b hb hid).mergeFrom_eq_self (h b hb)
  · rfl

theorem foldNodes_cons (r : Register Node Node.id) (a : Node) (l : List Node) :
    r.foldNodes (a :: l) = (r.upsert Node.mergeFrom WorkingSet.id_mergeFrom a).foldNodes l := rfl

theorem Absorbs.foldNodes {a : Node} (ha : r.Absorbs a) (h : r.Gentle l) :
    (r.foldNodes l).Absorbs a := by
  induction l generalizing r with
  | nil => exact ha
  | cons c l ih =>
    rw [foldNodes_cons]
    exact ih (ha.upsert fun b hb => h.register b hb c List.mem_cons_self) h.upsert

/-- All nodes of a list are absorbed once the list has been folded in. -/
theorem absorbs_foldNodes (h : r.Gentle l) : ∀ a ∈ l, (r.foldNodes l).Absorbs a := by
  induction l generalizing r with
  | nil => exact fun a ha => nomatch ha
  | cons c l ih =>
    intro a ha
    rw [foldNodes_cons]
    rcases List.mem_cons.1 ha with rfl | ha
    · exact (absorbs_upsert fun b hb => h.register b hb a List.mem_cons_self).foldNodes h.upsert
    · exact ih h.upsert a ha

/-- Folding in the first part of a list leaves the second part gentle. -/
theorem Gentle.foldNodes {m : List Node} (h : r.Gentle (l ++ m)) : (r.foldNodes l).Gentle m := by
  induction l generalizing r with
  | nil => exact h
  | cons a l ih =>
    rw [foldNodes_cons]
    exact ih h.upsert

/-- **Nodes that arrive again change nothing**, if no real declaration meets a stand-in. -/
theorem foldNodes_twice (h : r.Gentle l) : (r.foldNodes l).foldNodes l = r.foldNodes l := by
  have habsorbs := absorbs_foldNodes h
  have hgentle : (r.foldNodes l).Gentle l := by
    refine Gentle.foldNodes ⟨fun b hb a ha => h.register b hb a ?_, fun b hb a ha => h.list b ?_ a ?_⟩
    · simpa using ha
    · simpa using hb
    · simpa using ha
  -- Only what the first round leaves behind matters: it absorbs each node of the list, so it stays as it
  -- is all along the second round.
  generalize r.foldNodes l = t at habsorbs hgentle ⊢
  clear h
  induction l with
  | nil => rfl
  | cons a l ih =>
    have hself := (habsorbs a List.mem_cons_self).upsert_eq_self fun b hb =>
      hgentle.register b hb a List.mem_cons_self
    rw [foldNodes_cons, hself]
    refine ih (fun c hc => habsorbs c (List.mem_cons_of_mem a hc)) ?_
    exact hself ▸ hgentle.upsert

end Register

/-! ### Nodes that are no stand-ins -/

theorem Node.isStub_stub (kind : NodeKind) (name : String) : (stub kind name).isStub = true := by
  simp [isStub, stub, set]

/-- **The nodes of a file are no stand-ins.** -/
theorem Node.Made.isStub_eq_false {n : Node} {path : String} (h : n.Made path) : n.isStub = false := by
  unfold isStub
  rw [h.get?_stub]
  rfl

end CodeAtlas
