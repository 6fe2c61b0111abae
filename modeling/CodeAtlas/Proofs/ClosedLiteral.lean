import CodeAtlas.Proofs.Legible

/-!
# Quoted text stays in its literal

A statement is sent to a store as text, with names and comments of a project between single quotes. What
keeps them there is that a reader of literals finds the closing quote that was written and no other:

* reading is local: what a reader takes from the front of a text, it takes whatever follows
  (`decode?_append`), so a literal that ended early would end there in every text that goes on;
* a quoted text is read back from the front of every text (`decode?_quoteText`), and all of it is read,
  because none of its proper beginnings is a literal (`decode?_eq_none_of_prefix`);
* escapes leave no control character (`isControl_of_mem_quoteText`), so a literal stays on its line.
-/

namespace CodeAtlas.Quoted

/-! ### Reading is local -/

/-- A character before a literal that is read whatever follows. -/
theorem map_decodeTail?_append {c : Char} {s t u r : List Char}
    (ih : ∀ {u r : List Char}, decodeTail? s = some (u, r) → decodeTail? (s ++ t) = some (u, r ++ t))
    (h : ((decodeTail? s).map fun x => (c :: x.1, x.2)) = some (u, r)) :
    ((decodeTail? (s ++ t)).map fun x => (c :: x.1, x.2)) = some (u, r ++ t) := by
  obtain ⟨⟨v, w⟩, hread, heq⟩ := Option.map_eq_some_iff.1 h
  obtain ⟨rfl, rfl⟩ := Prod.mk.inj heq
  rw [ih hread]
  rfl

/-- **A reader that has reached the closing quote does not look at what follows.** -/
theorem decodeTail?_append {s u r : List Char} (h : decodeTail? s = some (u, r)) (t : List Char) :
    decodeTail? (s ++ t) = some (u, r ++ t) := by
  -- Case by case of the reader: what it has taken from the front it takes with more text behind.
  fun_induction decodeTail? s generalizing u r with
  | case1 => cases h
  | case2 rest =>
    cases h
    rfl
  | case3 a b c d rest hnone => cases h
  | case4 a b c d rest n hn ih =>
    change decodeTail? ('\\' :: 'u' :: a :: b :: c :: d :: (rest ++ t)) = _
    rw [decodeTail?, hn]
    exact map_decodeTail?_append ih h
  | case5 e rest hlong hmark ih =>
    rcases hmark with rfl | rfl <;> exact map_decodeTail?_append ih h
  | case6 rest hlong hmark ih => exact map_decodeTail?_append ih h
  | case7 rest hlong hmark hn ih => exact map_decodeTail?_append ih h
  | case8 rest hlong hmark hn hr ih => exact map_decodeTail?_append ih h
  | case9 e rest hlong hmark hn hr ht => cases h
  | case10 c rest hquote hlong hshort ih =>
    -- A backslash at the end of the text would have been read, but then the literal is open.
    have hbackslash : c ≠ '\\' := by
      rintro rfl
      cases rest with
      | nil => cases h
      | cons e rest => exact hshort e rest rfl rfl
    change decodeTail? (c :: (rest ++ t)) = _
    rw [decodeTail?]
    · exact map_decodeTail?_append ih h
    · exact hquote
    · exact fun _ _ _ _ _ hc => absurd hc hbackslash
    · exact fun _ _ hc => absurd hc hbackslash

/-- **What is read from the front of a text is read whatever follows.** -/
theorem decode?_append {s u r : List Char} (h : decode? s = some (u, r)) (t : List Char) :
    decode? (s ++ t) = some (u, r ++ t) := by
  unfold decode? at h
  split at h
  next rest => exact decodeTail?_append h t
  next => cases h

/-- **No proper beginning of a quoted text is a literal.** -/
theorem decode?_eq_none_of_prefix {s p : List Char} (hp : p <+: quoteText s) (hne : p ≠ quoteText s) :
    decode? p = none := by
  obtain ⟨t, ht⟩ := hp
  cases hread : decode? p with
  | none => rfl
  | some v =>
    -- The literal would end there in the whole text as well, and leave `t`.
    obtain ⟨u, r⟩ := v
    have hwhole : decode? (quoteText s) = some (s, []) := by
      have h := decode?_quoteText s []
      rwa [List.append_nil] at h
    have hearly := decode?_append hread t
    rw [ht, hwhole] at hearly
    have hrest : [] = r ++ t := (Prod.mk.inj (Option.some.inj hearly)).2
    obtain rfl : t = [] := (List.append_eq_nil_iff.mp hrest.symm).2
    exact absurd (p.append_nil.symm.trans ht) hne

/-! ### Control characters -/

theorem isControl_hexDigit {n : Nat} (h : n < 16) : Text.isControl (Digest.hexDigit n) = false := by
  have hall : ∀ n < 16, Text.isControl (Digest.hexDigit n) = false := by decide
  exact hall n h

/-- A character is written without control characters. -/
theorem isControl_of_mem_encodeChar {c d : Char} (h : d ∈ encodeChar c) : Text.isControl d = false := by
  have hdigit : ∀ m, Text.isControl (Digest.hexDigit (m % 16)) = false := fun m =>
    isControl_hexDigit (Nat.mod_lt m (by decide))
  unfold encodeChar at h
  -- Five characters have a letter of their own, and two plain characters are written for each.
  iterate 5
    split at h
    next =>
      rcases List.mem_pair.mp h with rfl | rfl <;> decide
  split at h
  next =>
    simp only [hex4, List.mem_cons, List.not_mem_nil, or_false] at h
    rcases h with rfl | rfl | rfl | rfl | rfl | rfl
    · decide
    · decide
    all_goals exact hdigit _
  next hplain =>
    rw [List.mem_singleton.mp h]
    exact Bool.eq_false_iff.mpr hplain

/-- No control character is left in a quoted text. -/
theorem isControl_of_mem_quoteText {s : List Char} : ∀ d ∈ quoteText s, Text.isControl d = false := by
  intro d hd
  unfold quoteText at hd
  rcases List.mem_append.mp hd with hd | hd
  · rcases List.mem_cons.mp hd with rfl | hd
    · decide
    · obtain ⟨c, -, hc⟩ := List.mem_flatMap.mp hd
      exact isControl_of_mem_encodeChar hc
  · rw [List.mem_singleton.mp hd]
    decide

/-- **A quoted text cannot escape from its literal.** From the front of a text that starts with the literal
of `s`, a reader of literals takes `s` and leaves what follows; it takes the whole literal, since no proper
beginning of it is one; and the literal holds no control character. -/
theorem literal_of_quote (s : String) (t : List Char) :
    decode? ((quote s).toList ++ t) = some (s.toList, t) ∧
      (∀ p, p <+: (quote s).toList → p ≠ (quote s).toList → decode? p = none) ∧
      ∀ c ∈ (quote s).toList, Text.isControl c = false := by
  have hchars : (quote s).toList = quoteText s.toList := String.toList_ofList
  rw [hchars]
  exact ⟨decode?_quoteText s.toList t, fun p hp hne => decode?_eq_none_of_prefix hp hne,
    isControl_of_mem_quoteText⟩

end CodeAtlas.Quoted
