import CodeAtlas.Proofs.Extent
import CodeAtlas.Proofs.Scan
import Mathlib.Data.List.Chain

/-!
# What holds of the lines of every source text

The readers of declarations take two things from a line, its code and its brace depths, and rely on their
being about the same text. `scanned_ofSource` says that they are, for every source: the lines of the text
come out one by one, in order and as they stand; the depth before a line is the depth behind the line
before; the depth behind a line is what the braces *of its code* make of the depth before it; and no code
holds the beginning of a comment.

The reading of a line is a recursion with a mode, and the three facts about what it returns are one
invariant of that recursion (`Consistent`). Two of them need a remark.

* The quotes of a literal are kept, so the depth can be read off the code only because a quote is no brace.
  That is a fact about the modes that a scan can be in (`Scan.Quoted`).
* A slash is kept when what follows it *in the text* makes no comment of it. What follows it in the code is
  the same character (`mem_head?_of_mem_head?_readChars`), because nothing is left out right behind a slash.
-/

namespace CodeAtlas

open Scan (IsQuote Quoted)

namespace SourceLine

/-- The second of two characters does not make a comment of the first. -/
def Unmarked (a b : Char) : Prop :=
  a = '/' → b ≠ '/' ∧ b ≠ '*'

/-- A code whose neighbours are unmarked holds no beginning of a comment. -/
theorem not_infix_of_isChain {code : List Char} (h : code.IsChain Unmarked) :
    ¬['/', '/'] <:+: code ∧ ¬['/', '*'] <:+: code := by
  constructor
  · intro hinfix
    have hpair := List.IsChain.infix h hinfix
    exact (List.isChain_pair.mp hpair rfl).1 rfl
  · intro hinfix
    have hpair := List.IsChain.infix h hinfix
    exact (List.isChain_pair.mp hpair rfl).2 rfl

/-! ### One line -/

/-- **What is read of a line, from a depth on, is consistent**: its mode is that of a scan, its depth is what
the braces of the code make of the depth before, and its code holds no beginning of a comment. -/
structure Consistent (depth : Nat) (r : List Char × Mode × Nat) : Prop where
  quoted : Quoted r.2.1
  depth_eq : r.2.2 = r.1.foldl depthStep depth
  unmarked : r.1.IsChain Unmarked

theorem depthStep_of_isQuote {c : Char} (hc : IsQuote c) (depth : Nat) : depthStep depth c = depth := by
  rcases hc with rfl | rfl <;> rfl

theorem quoted_code : Quoted .code :=
  fun _ _ _ h => nomatch h

theorem quoted_comment (level : Nat) : Quoted (.comment level) :=
  fun _ _ _ h => nomatch h

/-- A literal has a quote. -/
theorem quoted_literal {c : Char} (hc : IsQuote c) (triple raw : Bool) : Quoted (.literal c triple raw) := by
  intro q _ _ h
  cases h
  exact hc

/-- **Right behind a slash nothing is left out**: where no slash comes next, the next character of the code
is the next one of the text. -/
theorem mem_head?_of_mem_head?_readChars {s : List Char} (h : s.head? ≠ some '/') (depth : Nat)
    (before : List Char) {b : Char} (hb : b ∈ (readChars .code depth 0 before s).1.head?) : b ∈ s.head? := by
  cases s with
  | nil => exact hb
  | cons c s =>
    have hslash : c ≠ '/' := fun hc => h (congrArg some hc)
    rw [readChars, if_neg fun hc => hslash hc.1, if_neg fun hc => hslash hc.1] at hb
    -- Either way the character is kept.
    split at hb <;> exact hb

namespace Consistent

variable {depth : Nat} {r : List Char × Mode × Nat}

/-- Nothing is left of the line. -/
theorem nil {mode : Mode} (hmode : Quoted mode) (depth : Nat) : Consistent depth ([], mode, depth) where
  quoted := hmode
  depth_eq := rfl
  unmarked := .nil

/-- A character before consistent code. -/
theorem cons {c : Char} (h : Consistent (depthStep depth c) r) (hc : ∀ b ∈ r.1.head?, Unmarked c b) :
    Consistent depth (c :: r.1, r.2) where
  quoted := h.quoted
  depth_eq := h.depth_eq
  unmarked := List.isChain_cons.mpr ⟨hc, h.unmarked⟩

/-- A quote before consistent code. -/
theorem cons_quote {c : Char} (hc : IsQuote c) (h : Consistent depth r) :
    Consistent depth (c :: r.1, r.2) := by
  refine cons (by rwa [depthStep_of_isQuote hc]) fun b _ hslash => ?_
  rcases hc with rfl | rfl <;> cases hslash

end Consistent

/-- **The reading of a line is consistent**, from every mode that a scan can be in. The induction is along
the reading, one case for each of its branches. -/
theorem consistent_readChars {mode : Mode} (hmode : Quoted mode) (depth skip : Nat) (before s : List Char) :
    Consistent depth (readChars mode depth skip before s) := by
  -- Along the reading. Where a character is kept, the code behind it is consistent by induction.
  fun_induction readChars mode depth skip before s with
  | case1 => exact .nil hmode _
  | case2 mode depth before skip c rest ih => exact ih hmode
  | case3 depth before c rest hcomment => exact .nil quoted_code depth
  | case4 depth before c rest hline hblock ih => exact ih (quoted_comment 1)
  | case5 depth before c rest hline hblock hquote triple r ih =>
    exact .cons_quote hquote (ih (quoted_literal hquote _ _))
  | case6 depth before c rest hline hblock hquote r ih =>
    refine .cons (ih quoted_code) fun b hb hslash => ?_
    -- What follows the slash has been looked at, and the code goes on with it.
    have hnext : rest.head? ≠ some '/' := fun hnext => hline ⟨hslash, hnext⟩
    have hmem : rest.head? = some b := mem_head?_of_mem_head?_readChars hnext _ _ hb
    refine ⟨?_, ?_⟩
    · rintro rfl
      exact hnext hmem
    · rintro rfl
      exact hblock ⟨hslash, hmem⟩
  | case7 level depth before c rest hclose ih =>
    refine ih ?_
    split
    · exact quoted_comment _
    · exact quoted_code
  | case8 level depth before c rest hclose hopen ih => exact ih (quoted_comment _)
  | case9 level depth before c rest hclose hopen ih => exact ih (quoted_comment level)
  | case10 quote triple raw depth before c rest hescape ih => exact ih hmode
  | case11 quote triple raw depth before c rest hescape hclose r ih =>
    have hquote : IsQuote c := hclose.1 ▸ hmode quote triple raw rfl
    exact .cons_quote hquote (ih quoted_code)
  | case12 quote triple raw depth before c rest hescape hclose ih => exact ih hmode

/-- Closing a literal at the end of a line adds a quote, which is neither a brace nor part of a comment. -/
theorem Consistent.closeLine {depth : Nat} {r : List Char × Mode × Nat} (h : Consistent depth r) :
    Consistent depth (closeLine r) := by
  obtain ⟨code, mode, after⟩ := r
  unfold SourceLine.closeLine
  split
  next code q raw after heq =>
    cases heq
    have hq : IsQuote q := h.quoted q false raw rfl
    -- The quote changes no depth, and next to it no comment begins.
    refine ⟨quoted_code, ?_, ?_⟩
    · rw [List.foldl_append, ← h.depth_eq]
      exact (depthStep_of_isQuote hq after).symm
    · refine List.isChain_append.mpr ⟨h.unmarked, .singleton q, fun a _ b hb _ => ?_⟩
      obtain rfl : q = b := Option.some.inj hb
      rcases hq with rfl | rfl <;> exact ⟨by decide, by decide⟩
  next => exact h

/-! ### The lines of a text -/

/-- **What a line shows is consistent.** -/
structure Sound (l : SourceLine) : Prop where
  /-- The depth behind the line is what the braces of its code make of the depth before it. -/
  depthAfter_eq : l.depthAfter = l.code.foldl depthStep l.depth
  no_lineComment : ¬['/', '/'] <:+: l.code
  no_blockComment : ¬['/', '*'] <:+: l.code

/-- A line that is read shows what is consistent, and the next one starts in a mode of a scan. -/
theorem sound_read {mode : Mode} (hmode : Quoted mode) (depth number : Nat) (raw : List Char) :
    (read mode depth number raw).1.Sound ∧ Quoted (read mode depth number raw).2 := by
  have hconsistent := (consistent_readChars hmode depth 0 [] raw).closeLine
  obtain ⟨hline, hblock⟩ := not_infix_of_isChain hconsistent.unmarked
  exact ⟨⟨hconsistent.depth_eq, hline, hblock⟩, hconsistent.quoted⟩

/-- So does every line of a text. -/
theorem sound_of_mem_readAll {mode : Mode} (hmode : Quoted mode) (depth number : Nat)
    (raws : List (List Char)) : ∀ l ∈ readAll mode depth number raws, l.Sound := by
  induction raws generalizing mode depth number with
  | nil => exact fun l hl => nomatch hl
  | cons raw rest ih =>
    obtain ⟨hsound, hquoted⟩ := sound_read hmode depth number raw
    rw [readAll]
    intro l hl
    rcases List.mem_cons.mp hl with rfl | hl
    · exact hsound
    · exact ih hquoted _ _ l hl

/-- The lines are read as they stand. -/
theorem map_raw_readAll (mode : Mode) (depth number : Nat) (raws : List (List Char)) :
    (readAll mode depth number raws).map (·.raw) = raws := by
  induction raws generalizing mode depth number with
  | nil => rfl
  | cons raw rest ih =>
    rw [readAll, List.map_cons, ih]
    rfl

/-- The first line starts at the given depth. -/
theorem head?_depth_readAll (mode : Mode) (depth number : Nat) (raws : List (List Char)) :
    ∀ l ∈ (readAll mode depth number raws).head?, l.depth = depth := by
  cases raws with
  | nil => exact fun l hl => nomatch hl
  | cons raw rest =>
    intro l hl
    rw [← Option.some.inj hl]
    rfl

/-- Each line is read from the depth in which the line before has ended. -/
theorem isChain_readAll (mode : Mode) (depth number : Nat) (raws : List (List Char)) :
    (readAll mode depth number raws).IsChain fun l next => next.depth = l.depthAfter := by
  induction raws generalizing mode depth number with
  | nil => exact .nil
  | cons raw rest ih =>
    rw [readAll]
    exact List.isChain_cons.mpr ⟨head?_depth_readAll _ _ _ rest, ih _ _ _⟩

/-- **The lines of a source text**, as its readers may rely on them. -/
structure Scanned (source : List Char) (lines : List SourceLine) : Prop where
  /-- There is one line for each line of the text, as it stands. -/
  raw_eq : lines.map (·.raw) = Text.lines source
  number_eq : ∀ (i : Nat) (_ : i < lines.length), lines[i].number = i + 1
  first_depth : ∀ l ∈ lines.head?, l.depth = 0
  next_depth : ∀ (i : Nat) (_ : i + 1 < lines.length), lines[i + 1].depth = lines[i].depthAfter
  sound : ∀ l ∈ lines, l.Sound

/-- **The lines of every source text are consistent**: one line for each line of the text, numbered from one
and as it stands; depths that start at zero and go on from line to line; behind each line the depth that the
braces of its code make of the depth before; and no beginning of a comment in any code. -/
theorem scanned_ofSource (source : List Char) : Scanned source (ofSource source) where
  raw_eq := map_raw_readAll _ _ _ _
  number_eq := by
    intro i hi
    have hnumber := (tail_ofSource source).numberAt_eq hi
    unfold numberAt at hnumber
    rw [List.getElem?_eq_getElem hi] at hnumber
    exact hnumber.trans (Nat.add_comm 1 i)
  first_depth := head?_depth_readAll _ _ _ _
  next_depth := List.isChain_iff_getElem.mp (isChain_readAll _ _ _ _)
  sound := sound_of_mem_readAll quoted_code _ _ _

end SourceLine

end CodeAtlas
