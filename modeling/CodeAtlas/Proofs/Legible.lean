import Mathlib.Data.List.Basic
import CodeAtlas.Statement

/-!
# Texts that can be read in one way only

A statement is written as one text, and names, paths and comments of a project stand in it beside the words
of the query language. That nothing in them can pass for something else is a property of the writers of the
parts: a writer is `Legible` before certain continuations if a text that begins with what it writes begins
so in one way only. The notion is closed under what writers are made of:

* whatever a reader gives back together with the rest is legible (`Legible.of_read`), so a quoted text is
  legible before everything (`legible_quoteText`);
* a run of characters is legible before a character that ends it (`legible_run`), and so are numbers
  (`legible_intChars`);
* a list of items with a separator between them is legible if the items are legible before the separator
  and before the end, and if neither begins like an item (`Legible.separated`).
-/

namespace CodeAtlas

/-- **A way of writing is legible** for some values and before some continuations: the text says which value
was written and where the continuation begins. -/
def Legible {α : Type} (domain : α → Prop) (write : α → List Char) (stop : List Char → Prop) : Prop :=
  ∀ a b s t, domain a → domain b → stop s → stop t → write a ++ s = write b ++ t → a = b ∧ s = t

/-- A continuation that does not begin with a character of a class. -/
def StopsAt (p : Char → Bool) (s : List Char) : Prop :=
  ∀ c ∈ s.head?, p c = false

namespace Legible

variable {α : Type} {domain : α → Prop} {write : α → List Char} {stop : List Char → Prop}

/-- **What a reader gives back is legible.** -/
theorem of_read (read : List Char → Option (α × List Char))
    (h : ∀ a s, domain a → stop s → read (write a ++ s) = some (a, s)) : Legible domain write stop := by
  intro a b s t ha hb hs ht htext
  have hread := h a s ha hs
  rw [htext, h b t hb ht] at hread
  obtain ⟨rfl, rfl⟩ := Prod.mk.inj (Option.some.inj hread)
  exact ⟨rfl, rfl⟩

/-- A value that is written through another one. -/
theorem comap {β : Type} (h : Legible domain write stop) {f : β → α} (hf : Function.Injective f)
    {domain' : β → Prop} (hdomain : ∀ b, domain' b → domain (f b)) :
    Legible domain' (fun b => write (f b)) stop := by
  intro a b s t ha hb hs ht htext
  obtain ⟨hvalue, hrest⟩ := h (f a) (f b) s t (hdomain a ha) (hdomain b hb) hs ht htext
  exact ⟨hf hvalue, hrest⟩

/-- The items of a list after its first one, each behind a separator. -/
def follow (sep : List Char) (write : α → List Char) (l : List α) : List Char :=
  l.flatMap fun a => sep ++ write a

/-- A list with a separator between its items is its first item and what follows it. -/
theorem intercalate_eq (sep : List Char) (write : α → List Char) (a : α) (l : List α) :
    sep.intercalate ((a :: l).map write) = write a ++ follow sep write l := by
  induction l generalizing a with
  | nil => exact List.intercalate_singleton.trans (List.append_nil _).symm
  | cons b l ih =>
    have hb := ih b
    rw [List.map_cons] at hb ⊢
    rw [List.map_cons, List.intercalate_cons_cons, hb, List.append_assoc]
    unfold follow
    rw [List.flatMap_cons, List.append_assoc]

section Separated

variable {sep : List Char} {ends : List Char → Prop} (h : Legible domain write stop)
  (hsep : ∀ s, stop (sep ++ s)) (hends : ∀ s, ends s → stop s ∧ ∀ t, s ≠ sep ++ t)

include hsep hends in
/-- What follows an item begins with a separator or is the end. -/
theorem stop_follow (l : List α) {s : List Char} (hs : ends s) : stop (follow sep write l ++ s) := by
  cases l with
  | nil => exact (hends s hs).1
  | cons a l =>
    unfold follow
    rw [List.flatMap_cons, List.append_assoc, List.append_assoc]
    exact hsep _

include h hsep hends in
/-- Items behind separators are legible before the end. -/
theorem follow_legible :
    Legible (fun l : List α => ∀ a ∈ l, domain a) (follow sep write) ends := by
  intro l m s t hl hm hs ht htext
  -- By induction on both lists: where one of them ends, the other one cannot go on with a separator.
  induction l generalizing m with
  | nil =>
    cases m with
    | nil => exact ⟨rfl, htext⟩
    | cons b m =>
      unfold follow at htext
      rw [List.flatMap_cons, List.append_assoc, List.append_assoc] at htext
      exact absurd htext ((hends s hs).2 _)
  | cons a l ih =>
    cases m with
    | nil =>
      unfold follow at htext
      rw [List.flatMap_cons, List.append_assoc, List.append_assoc] at htext
      exact absurd htext.symm ((hends t ht).2 _)
    | cons b m =>
      -- The separators are the same, and the items before the next separator are legible.
      have hitem : write a ++ (follow sep write l ++ s) = write b ++ (follow sep write m ++ t) := by
        refine (List.append_right_inj sep).1 ?_
        simpa [follow] using htext
      obtain ⟨rfl, hrest⟩ := h a b _ _ (hl a List.mem_cons_self) (hm b List.mem_cons_self)
        (stop_follow hsep hends l hs) (stop_follow hsep hends m ht) hitem
      obtain ⟨rfl, hst⟩ := ih m (fun c hc => hl c (List.mem_cons_of_mem a hc))
        (fun c hc => hm c (List.mem_cons_of_mem a hc)) hrest
      exact ⟨rfl, hst⟩

variable (sep ends) in
include h hsep hends in
/-- **A list with a separator between its items is legible**, if the items are, and if neither a separator
nor another item can stand where the list ends. -/
theorem separated (hfirst : ∀ a s t, ends t → write a ++ s ≠ t) :
    Legible (fun l : List α => ∀ a ∈ l, domain a) (fun l => sep.intercalate (l.map write)) ends := by
  intro l m s t hl hm hs ht htext
  dsimp only at htext
  -- As for `follow_legible`, but the first items stand behind no separator.
  cases l with
  | nil =>
    cases m with
    | nil => exact ⟨rfl, htext⟩
    | cons b m =>
      rw [intercalate_eq, List.append_assoc] at htext
      exact absurd htext.symm (hfirst b _ s hs)
  | cons a l =>
    cases m with
    | nil =>
      rw [intercalate_eq, List.append_assoc] at htext
      exact absurd htext (hfirst a _ t ht)
    | cons b m =>
      rw [intercalate_eq, intercalate_eq, List.append_assoc, List.append_assoc] at htext
      obtain ⟨rfl, hrest⟩ := h a b _ _ (hl a List.mem_cons_self) (hm b List.mem_cons_self)
        (stop_follow hsep hends l hs) (stop_follow hsep hends m ht) htext
      obtain ⟨rfl, hst⟩ := follow_legible h hsep hends l m s t
        (fun c hc => hl c (List.mem_cons_of_mem a hc)) (fun c hc => hm c (List.mem_cons_of_mem a hc))
        hs ht hrest
      exact ⟨rfl, hst⟩

end Separated

end Legible

/-! ### Runs and numbers -/

/-- A run of characters is cut off where it ends. -/
theorem span_run {p : Char → Bool} {a s : List Char} (ha : ∀ c ∈ a, p c = true) (hs : StopsAt p s) :
    (a ++ s).takeWhile p = a ∧ (a ++ s).dropWhile p = s := by
  rw [List.takeWhile_append_of_pos ha, List.dropWhile_append_of_pos ha]
  cases s with
  | nil => exact ⟨List.append_nil a, rfl⟩
  | cons c s =>
    have hc : ¬ p c = true := by
      rw [hs c rfl]
      exact Bool.false_ne_true
    rw [List.takeWhile_cons_of_neg hc, List.dropWhile_cons_of_neg hc, List.append_nil]
    exact ⟨rfl, rfl⟩

/-- What is left when a run is cut off starts with another character. -/
theorem stopsAt_dropWhile (p : Char → Bool) (s : List Char) : StopsAt p (s.dropWhile p) := by
  intro c hc
  have hnot := List.head?_dropWhile_not p s
  rwa [hc] at hnot

/-- **A run of characters is legible before a character that is not of its class.** -/
theorem legible_run (p : Char → Bool) :
    Legible (fun a : List Char => ∀ c ∈ a, p c = true) (fun a => a) (StopsAt p) := by
  refine Legible.of_read (fun s => some (s.takeWhile p, s.dropWhile p)) fun a s ha hs => ?_
  obtain ⟨htake, hdrop⟩ := span_run ha hs
  rw [htake, hdrop]

/-- The digits of a number say which one it is. -/
theorem legible_natChars : Legible (fun _ => True) Json.natChars (StopsAt Char.isDigit) := by
  have hinjective : Function.Injective Json.natChars := by
    intro m n h
    have hm : Nat.ofDigitChars 10 (Json.natChars m) 0 = m := Nat.ofDigitChars_ten_toDigits
    rw [h] at hm
    exact hm.symm.trans Nat.ofDigitChars_ten_toDigits
  refine (legible_run Char.isDigit).comap hinjective fun n _ c hc => ?_
  exact Nat.isDigit_of_mem_toDigits (by decide) (by decide) hc

/-- A number begins with a digit. -/
theorem exists_digit_natChars (n : Nat) : ∃ c s, Json.natChars n = c :: s ∧ c.isDigit = true := by
  obtain ⟨c, s, h⟩ := List.exists_cons_of_ne_nil (Nat.toDigits_ne_nil (n := n) (b := 10))
  refine ⟨c, s, h, Nat.isDigit_of_mem_toDigits (b := 10) (n := n) (by decide) (by decide) ?_⟩
  rw [h]
  exact List.mem_cons_self

/-- **An integer is legible before anything but a digit.** -/
theorem legible_intChars : Legible (fun _ => True) Json.intChars (StopsAt Char.isDigit) := by
  -- A sign is no digit, so numbers of different signs begin differently.
  have hsign : ∀ m n s t, '-' :: Json.natChars m ++ s ≠ Json.natChars n ++ t := by
    intro m n s t h
    obtain ⟨c, rest, hn, hc⟩ := exists_digit_natChars n
    rw [hn] at h
    obtain ⟨rfl, -⟩ := List.cons.inj h
    cases hc
  intro a b s t _ _ hs ht h
  unfold Json.intChars at h
  split at h
  · split at h
    · obtain ⟨hab, hst⟩ := legible_natChars _ _ s t trivial trivial hs ht (List.cons.inj h).2
      exact ⟨by omega, hst⟩
    · exact absurd h (hsign _ _ s t)
  · split at h
    · exact absurd h.symm (hsign _ _ t s)
    · obtain ⟨hab, hst⟩ := legible_natChars _ _ s t trivial trivial hs ht h
      exact ⟨by omega, hst⟩

/-! ### Quoted text -/

namespace Quoted

/-- A hexadecimal digit is read back. -/
theorem hexDigitValue?_hexDigit {n : Nat} (h : n < 16) :
    Text.hexDigitValue? (Digest.hexDigit n) = some n := by
  have hall : ∀ n < 16, Text.hexDigitValue? (Digest.hexDigit n) = some n := by decide
  exact hall n h

/-- Four hexadecimal digits say which number they stand for. -/
theorem hex4?_hex4 {n : Nat} (h : n < 65536) :
    Json.hex4? (Digest.hexDigit (n / 4096 % 16)) (Digest.hexDigit (n / 256 % 16))
      (Digest.hexDigit (n / 16 % 16)) (Digest.hexDigit (n % 16)) = some n := by
  have hdigit : ∀ m, Text.hexDigitValue? (Digest.hexDigit (m % 16)) = some (m % 16) := fun m =>
    hexDigitValue?_hexDigit (Nat.mod_lt m (by decide))
  unfold Json.hex4?
  rw [hdigit, hdigit, hdigit, hdigit]
  change some (((n / 4096 % 16 * 16 + n / 256 % 16) * 16 + n / 16 % 16) * 16 + n % 16) = some n
  congr 1
  omega

/-- **A character is read back from how it is written.** -/
theorem decodeTail?_encodeChar (c : Char) (rest : List Char) :
    decodeTail? (encodeChar c ++ rest) = (decodeTail? rest).map fun r => (c :: r.1, r.2) := by
  unfold encodeChar
  split
  · rename_i hc
    subst hc
    rfl
  -- Five characters have an escape of two characters of their own.
  split
  · rename_i hc
    subst hc
    rfl
  split
  · rename_i hc
    subst hc
    rfl
  split
  · rename_i hc
    subst hc
    rfl
  split
  · rename_i hc
    subst hc
    rfl
  split
  · -- Control characters are written by their numbers, which are small.
    rename_i hcontrol
    have hsmall : c.toNat < 65536 := by
      unfold Text.isControl at hcontrol
      simp only [Bool.or_eq_true, Bool.and_eq_true, decide_eq_true_eq] at hcontrol
      omega
    have hhex := hex4?_hex4 hsmall
    change decodeTail? ('\\' :: 'u' :: _ :: _ :: _ :: _ :: rest) = _
    rw [decodeTail?, hhex]
    dsimp only
    rw [Char.ofNat_toNat]
  -- All other characters stand for themselves, since none of them begins an escape or ends the literal.
  · rename_i hbackslash hquote _ _ _ _
    change decodeTail? (c :: rest) = _
    rw [decodeTail?]
    · exact hquote
    · intro _ _ _ _ _ h
      exact absurd h hbackslash
    · intro _ _ h
      exact absurd h hbackslash

/-- An encoded text is read up to the quote behind it. -/
theorem decodeTail?_encode (s t : List Char) : decodeTail? (encode s ++ '\'' :: t) = some (s, t) := by
  induction s with
  | nil => rfl
  | cons c s ih =>
    have hcons : encode (c :: s) ++ '\'' :: t = encodeChar c ++ (encode s ++ '\'' :: t) := by
      unfold encode
      rw [List.flatMap_cons, List.append_assoc]
    rw [hcons, decodeTail?_encodeChar, ih]
    rfl

/-- **A quoted text is read back**, whatever follows it. -/
theorem decode?_quoteText (s t : List Char) : decode? (quoteText s ++ t) = some (s, t) := by
  have htext : quoteText s ++ t = '\'' :: (encode s ++ '\'' :: t) := by
    unfold quoteText
    rw [List.cons_append, List.cons_append, List.append_assoc]
    rfl
  rw [htext]
  exact decodeTail?_encode s t

end Quoted

/-- **A quoted text is legible before everything.** -/
theorem legible_quoteText : Legible (fun _ => True) quoteText (fun _ => True) :=
  Legible.of_read _ fun s t _ _ => Quoted.decode?_quoteText s t

end CodeAtlas
