import CodeAtlas.Source.Outline
import Mathlib.Data.List.Basic

/-!
# The lines that a declaration reaches

A declaration is read from the lines at its start: the offset of the end of its header and the offset of
the end of its block are computed from them, and both are used to look lines up. This module says where
these offsets lie, for lines of any content, balanced or not:

* the header ends on one of the lines (`header_lt_length`), and the block ends on one of the lines, not
  before the header (`header_le_blockEnd`, `blockEnd_lt_length`);
* the number found at an offset is the number of the line there (`Tail.numberAt_eq`), because the lines of
  a text are numbered one after the other.

`Tail n k lines` is the situation of a reader in the middle of a file: `lines` are what is left of a file
of `n` lines from line `k` on. `CallSite.Listed` is the order in which calls are found.
-/

namespace CodeAtlas

namespace SourceLine

/-! ### Offsets -/

/-- A header ends within the lines. -/
theorem headerLines_lt_length (n : Nat) (open_ : Int) {lines : List SourceLine} (h : lines ≠ []) :
    (headerLines n open_ lines).2 < lines.length := by
  fun_induction headerLines n open_ lines with
  | case1 => exact absurd rfl h
  | case2 open_ l rest => exact Nat.succ_pos _
  | case3 n open_ l rest now hstop => exact Nat.succ_pos _
  | case4 n open_ l rest now hgo r ih =>
    -- The header goes on, so there is a next line.
    have hrest : rest ≠ [] := fun hrest => hgo (.inr hrest)
    exact Nat.succ_lt_succ (ih hrest)

/-- The header of a declaration ends on one of the lines. -/
theorem header_lt_length {lines : List SourceLine} (h : lines ≠ []) :
    (header lines).2 < lines.length :=
  headerLines_lt_length _ _ h

/-- A block ends within the lines. -/
theorem closingOffset_lt_length (base : Nat) {lines : List SourceLine} (h : lines ≠ []) :
    closingOffset base lines < lines.length := by
  fun_induction closingOffset base lines with
  | case1 => exact absurd rfl h
  | case2 l rest hstop => exact Nat.succ_pos _
  | case3 l rest hgo ih =>
    have hrest : rest ≠ [] := fun hrest => hgo (.inr hrest)
    exact Nat.succ_lt_succ (ih hrest)

/-- A block does not end before the header. -/
theorem header_le_blockEnd (lines : List SourceLine) (headerEnd : Nat) :
    headerEnd ≤ blockEnd lines headerEnd :=
  Nat.le_add_right _ _

/-- The block of a declaration ends on one of the lines if its header does. -/
theorem blockEnd_lt_length {lines : List SourceLine} {headerEnd : Nat} (h : headerEnd < lines.length) :
    blockEnd lines headerEnd < lines.length := by
  have hdrop : lines.drop headerEnd ≠ [] := by
    intro hnil
    exact absurd (List.drop_eq_nil_iff.mp hnil) (Nat.not_le.mpr h)
  have hlt := closingOffset_lt_length ((lines.head?.map (·.depth)).getD 0) hdrop
  rw [List.length_drop] at hlt
  change headerEnd + closingOffset _ (lines.drop headerEnd) < lines.length
  omega

/-! ### Numbers -/

/-- The lines are numbered one after the other from `n` on. -/
def NumberedFrom (n : Nat) (lines : List SourceLine) : Prop :=
  lines.map (·.number) = List.range' n lines.length

/-- The first line has the first number, and the others go on behind it. -/
theorem numberedFrom_cons {n : Nat} {l : SourceLine} {rest : List SourceLine} :
    NumberedFrom n (l :: rest) ↔ l.number = n ∧ NumberedFrom (n + 1) rest := by
  unfold NumberedFrom
  rw [List.map_cons, List.length_cons, List.range'_succ, List.cons.injEq]

/-- Without its first lines a text is numbered from a later number on. -/
theorem NumberedFrom.drop {n : Nat} {lines : List SourceLine} (h : NumberedFrom n lines) (k : Nat) :
    NumberedFrom (n + k) (lines.drop k) := by
  unfold NumberedFrom at h ⊢
  rw [List.map_drop, h, List.drop_range', List.length_drop, Nat.mul_one]

/-- The first lines of a text are numbered as the text is. -/
theorem NumberedFrom.take {n : Nat} {lines : List SourceLine} (h : NumberedFrom n lines) (k : Nat) :
    NumberedFrom n (lines.take k) := by
  unfold NumberedFrom at h ⊢
  rw [List.map_take, h, List.length_take]
  rcases Nat.le_total k lines.length with hk | hk
  · rw [List.take_range'_of_length_ge hk, Nat.min_eq_left hk]
  · rw [List.take_range'_of_length_le hk, Nat.min_eq_right hk]

/-- Each line is read as one line. -/
theorem length_readAll (mode : Mode) (depth n : Nat) (raws : List (List Char)) :
    (readAll mode depth n raws).length = raws.length := by
  induction raws generalizing mode depth n with
  | nil => rfl
  | cons raw rest ih =>
    rw [readAll, List.length_cons, List.length_cons, ih]

theorem numberedFrom_readAll (mode : Mode) (depth n : Nat) (raws : List (List Char)) :
    NumberedFrom n (readAll mode depth n raws) := by
  induction raws generalizing mode depth n with
  | nil => rfl
  | cons raw rest ih =>
    rw [readAll]
    exact numberedFrom_cons.mpr ⟨rfl, ih _ _ _⟩

/-- **What is left of a file** of `n` lines from line `k` on. -/
structure Tail (n k : Nat) (lines : List SourceLine) : Prop where
  one_le : 1 ≤ k
  length_eq : k + lines.length = n + 1
  numbered : NumberedFrom k lines

/-- A whole file is left before its first line. -/
theorem tail_ofSource (source : List Char) :
    Tail (ofSource source).length 1 (ofSource source) where
  one_le := Nat.le_refl 1
  length_eq := Nat.add_comm 1 _
  numbered := numberedFrom_readAll _ _ _ _

namespace Tail

variable {n k : Nat} {lines : List SourceLine}

/-- What is left of a file is less by the lines that are dropped. -/
theorem drop (h : Tail n k lines) {i : Nat} (hi : i ≤ lines.length) :
    Tail n (k + i) (lines.drop i) where
  one_le := Nat.le_add_right_of_le h.one_le
  length_eq := by
    have := h.length_eq
    rw [List.length_drop]
    omega
  numbered := h.numbered.drop i

/-- The first line has the number at which the tail starts. -/
theorem number_eq {line : SourceLine} {rest : List SourceLine} (h : Tail n k (line :: rest)) :
    line.number = k :=
  (numberedFrom_cons.mp h.numbered).1

/-- **The number found at the offset of a line** counts from the first line on. -/
theorem numberAt_eq (h : Tail n k lines) {offset : Nat} (ho : offset < lines.length) :
    numberAt lines offset = k + offset := by
  have hget : (lines.map (·.number))[offset]? = some (k + offset) := by
    rw [h.numbered, List.getElem?_range' ho, Nat.one_mul]
  rw [List.getElem?_map] at hget
  obtain ⟨l, hl, hnumber⟩ := Option.map_eq_some_iff.mp hget
  unfold numberAt
  rw [hl]
  exact hnumber

end Tail

end SourceLine

/-! ### Calls -/

/-- **The calls of some lines in the order of the lines**: from line `first` on, before line `stop`. -/
structure CallSite.Listed (first stop : Nat) (calls : List CallSite) : Prop where
  ordered : calls.Pairwise (·.line ≤ ·.line)
  between : ∀ c ∈ calls, first ≤ c.line ∧ c.line < stop

namespace CallSite.Listed

variable {a b c : Nat} {l r : List CallSite}

theorem nil (a b : Nat) : Listed a b [] where
  ordered := List.Pairwise.nil
  between := fun _ h => by cases h

/-- Calls of later lines come behind. -/
theorem append (hl : Listed a b l) (hr : Listed b c r) (hab : a ≤ b) (hbc : b ≤ c) :
    Listed a c (l ++ r) where
  ordered := by
    refine List.pairwise_append.mpr ⟨hl.ordered, hr.ordered, ?_⟩
    intro x hx y hy
    exact Nat.le_trans (Nat.le_of_lt (hl.between x hx).2) (hr.between y hy).1
  between := by
    intro x hx
    rcases List.mem_append.mp hx with hx | hx
    · exact ⟨(hl.between x hx).1, Nat.lt_of_lt_of_le (hl.between x hx).2 hbc⟩
    · exact ⟨Nat.le_trans hab (hr.between x hx).1, (hr.between x hx).2⟩

/-- The range of lines may be made wider. -/
theorem mono (h : Listed a b l) {a' b' : Nat} (ha : a' ≤ a) (hb : b ≤ b') : Listed a' b' l where
  ordered := h.ordered
  between := fun x hx =>
    ⟨Nat.le_trans ha (h.between x hx).1, Nat.lt_of_lt_of_le (h.between x hx).2 hb⟩

/-- The calls of one line. -/
theorem of_forall_eq (h : ∀ c ∈ l, c.line = a) : Listed a (a + 1) l where
  ordered := by
    refine List.pairwise_iff_forall_sublist.mpr ?_
    intro x y hxy
    have hx := h x (hxy.subset (by simp))
    have hy := h y (hxy.subset (by simp))
    exact Nat.le_of_eq (hx.trans hy.symm)
  between := fun x hx => by
    rw [h x hx]
    exact ⟨Nat.le_refl a, Nat.lt_succ_self a⟩

/-- The calls of lines that follow each other, found line by line. -/
theorem flatMap {f : SourceLine → List CallSite} (hf : ∀ line, ∀ c ∈ f line, c.line = line.number)
    {lines : List SourceLine} (h : SourceLine.NumberedFrom a lines) :
    Listed a (a + lines.length) (lines.flatMap f) := by
  -- By induction on the lines: the calls of the first one are on it, and the others behind it.
  induction lines generalizing a with
  | nil => exact nil a _
  | cons line rest ih =>
    obtain ⟨hnumber, hrest⟩ := SourceLine.numberedFrom_cons.mp h
    have hline : Listed a (a + 1) (f line) := by
      refine of_forall_eq ?_
      intro c hc
      rw [hf line c hc, hnumber]
    have htail : Listed (a + 1) (a + (line :: rest).length) (rest.flatMap f) :=
      (ih hrest).mono (Nat.le_refl _) (by simp; omega)
    rw [List.flatMap_cons]
    exact hline.append htail (Nat.le_succ a) (by simp)

end CallSite.Listed

/-- The calls of some code stand on the line that is given. -/
theorem Outline.line_of_mem_callSites {skip : List (List Char)} {code : List Char} {line : Nat}
    {c : CallSite} (h : c ∈ Outline.callSites skip code line) : c.line = line := by
  obtain ⟨⟨_, _⟩, -, rfl⟩ := List.mem_map.mp h
  rfl

namespace SourceLine.Tail

variable {n k : Nat} {lines : List SourceLine}

/-- The calls of the lines between two offsets, the second one included. -/
theorem listed_between (h : Tail n k lines) {f : SourceLine → List CallSite}
    (hf : ∀ line, ∀ c ∈ f line, c.line = line.number) (first : Nat) {last : Nat}
    (hlast : last < lines.length) :
    CallSite.Listed (k + first) (k + last + 1)
      (((lines.take (last + 1)).drop first).flatMap f) := by
  -- If the range starts behind its end there are no lines in it.
  by_cases hfirst : first ≤ last + 1
  · have hlisted := CallSite.Listed.flatMap hf ((h.numbered.take (last + 1)).drop first)
    refine hlisted.mono (Nat.le_refl _) ?_
    rw [List.length_drop, List.length_take]
    omega
  · have hnil : (lines.take (last + 1)).drop first = [] := by
      rw [List.drop_eq_nil_iff, List.length_take]
      omega
    rw [hnil]
    exact CallSite.Listed.nil _ _

end SourceLine.Tail

end CodeAtlas
