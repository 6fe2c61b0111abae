import CodeAtlas.Text.Basic
import Mathlib.Data.List.DropRight

/-!
# White space and words

Where the cuts of `Text` that look at white space leave a text as it is: what trimming keeps
(`trim_append`), how the words of a text follow from those of its pieces (`words_append_blank`), and that
the words of a text with single spaces give the text back (`joinWith_words`).

An identifier holds no white space (`isIdentifier_of_isBlank`), so it is a word, and trimming stops at it.
-/

namespace CodeAtlas

namespace Text

/-! ### White space -/

/-- The code points of white space above ASCII. -/
def wideBlanks : List Nat :=
  [0x85, 0xA0, 0x1680, 0x2000, 0x2001, 0x2002, 0x2003, 0x2004, 0x2005, 0x2006, 0x2007, 0x2008, 0x2009,
    0x200A, 0x2028, 0x2029, 0x202F, 0x205F, 0x3000]

/-- White space above ASCII is one of the listed characters. -/
theorem mem_wideBlanks {c : Char} (h : isBlank c = true) (hwide : ¬c.toNat < 128) :
    c.toNat ∈ wideBlanks := by
  unfold isBlank at h
  simp only [Bool.or_eq_true, Bool.and_eq_true, decide_eq_true_eq, beq_iff_eq] at h
  simp only [wideBlanks, List.mem_cons, List.not_mem_nil, or_false]
  omega

/-- White space is neither a letter nor a number. -/
theorem contains_wideBlank :
    ∀ n ∈ wideBlanks, CodeSet.alphabetic.contains n = false ∧ CodeSet.number.contains n = false := by
  simp only [CodeSet.contains, ← Array.any_toList]
  decide +kernel

/-- **No identifier holds white space.** -/
theorem isIdentifier_of_isBlank {c : Char} (h : isBlank c = true) : isIdentifier c = false := by
  by_cases hwide : c.toNat < 128
  · -- Six characters of ASCII are white space, and each of them is looked at.
    have hcode : c.toNat ∈ [9, 10, 11, 12, 13, 32] := by
      unfold isBlank at h
      simp only [Bool.or_eq_true, Bool.and_eq_true, decide_eq_true_eq, beq_iff_eq] at h
      simp only [List.mem_cons, List.not_mem_nil, or_false]
      omega
    have hall : ∀ n ∈ [9, 10, 11, 12, 13, 32], isIdentifier (Char.ofNat n) = false := by decide
    have hc := hall c.toNat hcode
    rwa [Char.ofNat_toNat] at hc
  · -- Above ASCII an identifier holds letters and numbers only.
    obtain ⟨hletter, hnumber⟩ := contains_wideBlank c.toNat (mem_wideBlanks h hwide)
    have hmark : c ≠ '_' ∧ c ≠ '$' := by
      constructor <;>
      · rintro rfl
        exact hwide (by decide)
    unfold isIdentifier isAlphanumeric
    rw [if_neg hwide, hletter, hnumber, beq_false_of_ne hmark.1, beq_false_of_ne hmark.2]
    rfl

/-- The text starts with something else than white space. -/
def Starts (s : List Char) : Prop :=
  ∃ c r, s = c :: r ∧ isBlank c = false

/-- The text ends with something else than white space. -/
def Ends (s : List Char) : Prop :=
  ∃ r c, s = r ++ [c] ∧ isBlank c = false

section Trimming

variable {a s : List Char}

theorem Starts.append (h : Starts a) (s : List Char) : Starts (a ++ s) := by
  obtain ⟨c, r, rfl, hc⟩ := h
  exact ⟨c, r ++ s, rfl, hc⟩

theorem Ends.append (h : Ends s) (a : List Char) : Ends (a ++ s) := by
  obtain ⟨r, c, rfl, hc⟩ := h
  exact ⟨a ++ r, c, (List.append_assoc a r [c]).symm, hc⟩

/-- A character in front does not change the end. -/
theorem Ends.cons (h : Ends s) (c : Char) : Ends (c :: s) :=
  h.append [c]

/-- Without white space in front nothing is trimmed there. -/
theorem trimStart_of_starts (h : Starts s) : trimStart s = s := by
  obtain ⟨c, r, rfl, hc⟩ := h
  exact List.dropWhile_cons_of_neg (by rw [hc]; exact Bool.false_ne_true)

theorem trimStart_of_blank (h : ∀ c ∈ s, isBlank c = true) : trimStart s = [] :=
  List.dropWhile_eq_nil_iff.2 h

/-- Trimming at the end stops at a text that ends with no white space. -/
theorem trimEnd_append_of_ends (h : Ends a) (s : List Char) : trimEnd (a ++ s) = a ++ trimEnd s := by
  obtain ⟨r, c, rfl, hc⟩ := h
  unfold trimEnd dropEndWhile
  rw [List.reverse_append, List.dropWhile_append]
  split
  next hnil =>
    -- All that follows is white space, and the end of `a` stops the trimming.
    have hstop : (r ++ [c]).reverse.dropWhile isBlank = (r ++ [c]).reverse := by
      rw [List.reverse_append, List.reverse_singleton, List.singleton_append]
      exact List.dropWhile_cons_of_neg (by rw [hc]; exact Bool.false_ne_true)
    rw [hstop, List.reverse_reverse, List.isEmpty_iff.1 hnil, List.reverse_nil, List.append_nil]
  next => rw [List.reverse_append, List.reverse_reverse]

theorem trimEnd_nil : trimEnd [] = [] := rfl

theorem trimEnd_trimEnd (s : List Char) : trimEnd (trimEnd s) = trimEnd s :=
  List.rdropWhile_idempotent isBlank s

theorem trimStart_cons_of_blank {c : Char} (h : isBlank c = true) (s : List Char) :
    trimStart (c :: s) = trimStart s :=
  List.dropWhile_cons_of_pos h

theorem trim_cons_of_blank {c : Char} (h : isBlank c = true) (s : List Char) : trim (c :: s) = trim s := by
  rw [trim, trimStart_cons_of_blank h, trim]

/-- A character that is not blank stays in front. -/
theorem trimEnd_cons_of_not_blank {c : Char} (h : isBlank c = false) (s : List Char) :
    trimEnd (c :: s) = c :: trimEnd s :=
  trimEnd_append_of_ends ⟨[], c, rfl, h⟩ s

/-- A blank before a text stays where the text is not blank. -/
theorem trimEnd_cons (c : Char) (s : List Char) :
    trimEnd (c :: s) = if trimEnd s = [] then trimEnd [c] else c :: trimEnd s := by
  unfold trimEnd dropEndWhile
  rw [List.reverse_cons, List.dropWhile_append]
  by_cases h : s.reverse.dropWhile isBlank = []
  · rw [h]
    rfl
  · rw [if_neg (by rwa [List.isEmpty_iff]), if_neg (by rwa [List.reverse_eq_nil_iff]), List.reverse_append]
    rfl

/-- Trimming on both sides trims the end. -/
theorem trim_trimEnd (s : List Char) : trim (trimEnd s) = trim s := by
  -- A blank in front goes in both texts, unless the end of the text has taken it along.
  induction s with
  | nil => rfl
  | cons c s ih =>
    by_cases hc : isBlank c = true
    · rw [trim_cons_of_blank hc, ← ih, trimEnd_cons]
      split
      next hnil =>
        have hblank : trimEnd [c] = [] := by
          unfold trimEnd dropEndWhile
          rw [List.reverse_singleton, List.dropWhile_cons_of_pos hc]
          rfl
        rw [hnil, hblank]
      next => rw [trim_cons_of_blank hc]
    · have hsolid : isBlank c = false := Bool.not_eq_true _ ▸ hc
      have hstart (r : List Char) : trimStart (c :: r) = c :: r := trimStart_of_starts ⟨c, r, rfl, hsolid⟩
      rw [trimEnd_cons_of_not_blank hsolid, trim, trim, hstart, hstart, trimEnd_cons_of_not_blank hsolid,
        trimEnd_cons_of_not_blank hsolid, trimEnd_trimEnd]

/-- A text that starts with no white space starts so when it is trimmed. -/
theorem starts_trim (h : Starts s) : Starts (trim s) := by
  obtain ⟨c, r, rfl, hc⟩ := h
  rw [trim, trimStart_of_starts ⟨c, r, rfl, hc⟩, trimEnd_cons_of_not_blank hc]
  exact ⟨c, trimEnd r, rfl, hc⟩

/-- Trimming cuts only what follows a solid text. -/
theorem trim_append (hstarts : Starts a) (hends : Ends a) (s : List Char) :
    trim (a ++ s) = a ++ trimEnd s := by
  rw [trim, trimStart_of_starts (hstarts.append s), trimEnd_append_of_ends hends]

/-- A text without white space on either side is not trimmed. -/
theorem trim_eq_self (hstarts : Starts a) (hends : Ends a) : trim a = a := by
  have h := trim_append hstarts hends []
  rwa [trimEnd_nil, List.append_nil] at h

theorem trim_blank_append (h : ∀ c ∈ a, isBlank c = true) (s : List Char) : trim (a ++ s) = trim s := by
  have hstart : trimStart (a ++ s) = trimStart s := List.dropWhile_append_of_pos h
  rw [trim, hstart, trim]

theorem trim_of_blank (h : ∀ c ∈ s, isBlank c = true) : trim s = [] := by
  rw [trim, trimStart_of_blank h, trimEnd_nil]

theorem trimEnd_prefix_self (s : List Char) : trimEnd s <+: s :=
  List.rdropWhile_prefix isBlank s

theorem trim_subset (s : List Char) : trim s ⊆ s :=
  fun _ h => (List.dropWhile_suffix isBlank).subset ((trimEnd_prefix_self _).subset h)

/-- What is left is nothing, or it starts with no white space. -/
theorem trim_eq_nil_or_starts (s : List Char) : trim s = [] ∨ Starts (trim s) := by
  induction s with
  | nil => exact .inl rfl
  | cons c s ih =>
    by_cases hc : isBlank c = true
    · rwa [trim_cons_of_blank hc]
    · exact .inr (starts_trim ⟨c, s, rfl, Bool.eq_false_iff.2 hc⟩)

theorem length_trim_le (s : List Char) : (trim s).length ≤ s.length := by
  calc (trim s).length ≤ (trimStart s).length := (trimEnd_prefix_self _).length_le
    _ ≤ s.length := (List.dropWhile_suffix isBlank).length_le

end Trimming

/-! ### Words -/

section Words

variable {a : List Char} (ha : ∀ c ∈ a, isBlank c = false)

include ha

/-- Characters that are not blank join the word at hand. -/
theorem wordsFrom_append (run s : List Char) : wordsFrom run (a ++ s) = wordsFrom (a.reverse ++ run) s := by
  induction a generalizing run with
  | nil => rfl
  | cons c a ih =>
    have hc : ¬isBlank c = true := by rw [ha c List.mem_cons_self]; exact Bool.false_ne_true
    rw [List.cons_append, wordsFrom, if_neg hc, ih fun d hd => ha d (List.mem_cons_of_mem c hd),
      List.reverse_cons, List.append_assoc, List.singleton_append]

/-- A text without white space is one word. -/
theorem words_of_solid (hne : a ≠ []) : words a = [a] := by
  have h := wordsFrom_append ha [] []
  rw [List.append_nil, List.append_nil, wordsFrom, if_neg (mt List.reverse_eq_nil_iff.1 hne),
    List.reverse_reverse] at h
  exact h

end Words

/-- White space parts words. -/
theorem wordsFrom_append_blank {c : Char} (hc : isBlank c = true) (run a b : List Char) :
    wordsFrom run (a ++ c :: b) = wordsFrom run a ++ words b := by
  induction a generalizing run with
  | nil =>
    rw [List.nil_append, wordsFrom, wordsFrom, if_pos hc]
    split <;> rfl
  | cons d a ih =>
    rw [List.cons_append, wordsFrom, wordsFrom, ih, ih]
    split
    · split <;> rfl
    · rfl

theorem words_append_blank {c : Char} (hc : isBlank c = true) (a b : List Char) :
    words (a ++ c :: b) = words a ++ words b :=
  wordsFrom_append_blank hc [] a b

theorem words_cons_of_blank {c : Char} (hc : isBlank c = true) (s : List Char) :
    words (c :: s) = words s :=
  words_append_blank hc [] s

theorem words_append_of_blank {b : List Char} (h : ∀ c ∈ b, isBlank c = true) (a : List Char) :
    words (a ++ b) = words a := by
  induction b generalizing a with
  | nil => rw [List.append_nil]
  | cons c b ih =>
    have hb : words b = [] := ih (fun d hd => h d (List.mem_cons_of_mem c hd)) []
    rw [words_append_blank (h c List.mem_cons_self), hb, List.append_nil]

theorem words_trimStart (s : List Char) : words (trimStart s) = words s := by
  induction s with
  | nil => rfl
  | cons c s ih =>
    by_cases hc : isBlank c = true
    · rw [trimStart_cons_of_blank hc, ih, words_cons_of_blank hc]
    · rw [trimStart_of_starts ⟨c, s, rfl, Bool.eq_false_iff.2 hc⟩]

theorem words_trimEnd (s : List Char) : words (trimEnd s) = words s := by
  -- What is cut off at the end is white space.
  have hsplit : s = trimEnd s ++ (s.reverse.takeWhile isBlank).reverse := by
    rw [trimEnd, dropEndWhile, ← List.reverse_append, List.takeWhile_append_dropWhile, List.reverse_reverse]
  have hblank : ∀ c ∈ (s.reverse.takeWhile isBlank).reverse, isBlank c = true := fun c hc =>
    (List.mem_takeWhile_imp (List.mem_reverse.1 hc))
  rw [← words_append_of_blank hblank, ← hsplit]

/-- Trimming leaves the words as they are. -/
theorem words_trim (s : List Char) : words (trim s) = words s := by
  rw [trim, words_trimEnd, words_trimStart]

/-- The words of a text hold all that is no white space. -/
theorem flatten_wordsFrom (run s : List Char) :
    (wordsFrom run s).flatten = run.reverse ++ s.filter fun c => !isBlank c := by
  -- Along the text, with the word at hand written backwards.
  induction s generalizing run with
  | nil =>
    rw [wordsFrom]
    split
    next h => rw [h]; rfl
    next => simp
  | cons c s ih =>
    rw [wordsFrom]
    by_cases hc : isBlank c = true
    · rw [if_pos hc, List.filter_cons_of_neg (by rw [hc]; decide)]
      split
      next h => rw [ih, h]
      next => rw [List.flatten_cons, ih, List.reverse_nil, List.nil_append]
    · have hsolid : isBlank c = false := Bool.eq_false_iff.2 hc
      rw [if_neg hc, ih, List.filter_cons_of_pos (by rw [hsolid]; rfl), List.reverse_cons, List.append_assoc,
        List.singleton_append]

/-- The words of a text are the text without its white space. -/
theorem flatten_words (s : List Char) : (words s).flatten = s.filter fun c => !isBlank c :=
  flatten_wordsFrom [] s

/-- No word is empty. -/
theorem ne_nil_of_mem_wordsFrom {run s w : List Char} (h : w ∈ wordsFrom run s) : w ≠ [] := by
  induction s generalizing run with
  | nil =>
    rw [wordsFrom] at h
    split at h
    next => exact absurd h List.not_mem_nil
    next hrun =>
      rw [List.mem_singleton.1 h]
      exact mt List.reverse_eq_nil_iff.1 hrun
  | cons c s ih =>
    rw [wordsFrom] at h
    -- At white space a run that is not empty becomes a word.
    split at h
    · split at h
      next => exact ih h
      next hrun =>
        rcases List.mem_cons.1 h with rfl | h
        · exact mt List.reverse_eq_nil_iff.1 hrun
        · exact ih h
    · exact ih h

theorem ne_nil_of_mem_words {s w : List Char} (h : w ∈ words s) : w ≠ [] :=
  ne_nil_of_mem_wordsFrom h

/-- No word holds white space. -/
theorem isBlank_of_mem_words {s w : List Char} (h : w ∈ words s) {c : Char} (hc : c ∈ w) :
    isBlank c = false := by
  have hmem : c ∈ s.filter fun c => !isBlank c := by
    rw [← flatten_words]
    exact List.mem_flatten_of_mem h hc
  have hsolid := (List.mem_filter.1 hmem).2
  rwa [Bool.not_eq_true'] at hsolid

/-- **A text with single spaces**: each white space is a space with no other one behind it. -/
def SingleSpaced : List Char → Prop
  | [] => True
  | [c] => isBlank c = false
  | c :: d :: s => (isBlank c = true → c = ' ' ∧ isBlank d = false) ∧ SingleSpaced (d :: s)

/-- Two texts with single spaces, of which neither ends or starts with one. -/
theorem SingleSpaced.append : {a b : List Char} → SingleSpaced a → SingleSpaced b → SingleSpaced (a ++ b)
  | [], _, _, hb => hb
  | [c], [], hc, _ => hc
  | [c], d :: b, hc, hb => by
    refine ⟨fun h => ?_, hb⟩
    rw [hc] at h
    cases h
  | c :: d :: a, _, ha, hb => ⟨ha.1, ha.2.append hb⟩

/-- A space may stand before a text that starts with none. -/
theorem SingleSpaced.cons_space {s : List Char} (h : SingleSpaced s) (hs : Starts s) :
    SingleSpaced (' ' :: s) := by
  obtain ⟨c, r, rfl, hc⟩ := hs
  exact ⟨fun _ => ⟨rfl, hc⟩, h⟩

/-- A text without white space has single spaces. -/
theorem singleSpaced_of_solid : {s : List Char} → (∀ c ∈ s, isBlank c = false) → SingleSpaced s
  | [], _ => trivial
  | [c], h => h c List.mem_cons_self
  | c :: d :: s, h => by
    refine ⟨fun hc => ?_, singleSpaced_of_solid fun e he => h e (List.mem_cons_of_mem c he)⟩
    rw [h c List.mem_cons_self] at hc
    cases hc

/-- The words of a text with single spaces give it back, with the word at hand in front. -/
theorem joinWith_wordsFrom {run s : List Char} (hrun : run ≠ [] ∨ Starts s) (h : SingleSpaced s) :
    joinWith [' '] (wordsFrom run s) = run.reverse ++ s := by
  -- Along the definition of such texts, which looks two characters far.
  induction s using SingleSpaced.induct generalizing run with
  | case1 =>
    have hne : run ≠ [] := hrun.resolve_right fun ⟨c, r, hnil, _⟩ => nomatch hnil
    rw [wordsFrom, if_neg hne, joinWith, List.append_nil]
  | case2 c =>
    have hc : isBlank c = false := h
    rw [wordsFrom, if_neg (by rw [hc]; decide), wordsFrom, if_neg (List.cons_ne_nil c run), joinWith,
      List.reverse_cons]
  | case3 c d s ih =>
    obtain ⟨hsingle, hrest⟩ := h
    by_cases hc : isBlank c = true
    · -- The space ends a word, and the next one starts right behind it.
      obtain ⟨rfl, hd⟩ := hsingle hc
      have hne : run ≠ [] := by
        refine hrun.resolve_right ?_
        rintro ⟨e, r, heq, he⟩
        rw [← (List.cons.inj heq).1, hc] at he
        cases he
      have hjoin : joinWith [' '] (wordsFrom [] (d :: s)) = d :: s := ih (.inr ⟨d, s, rfl, hd⟩) hrest
      rw [wordsFrom, if_pos hc, if_neg hne]
      match hwords : wordsFrom [] (d :: s) with
      | [] =>
        rw [hwords] at hjoin
        cases hjoin
      | w :: ws =>
        rw [hwords] at hjoin
        rw [joinWith, hjoin, List.append_assoc]
        rfl
    · rw [wordsFrom, if_neg hc, ih (.inl (List.cons_ne_nil c run)) hrest, List.reverse_cons,
        List.append_assoc, List.singleton_append]

/-- A text with single spaces is its words with spaces between them. -/
theorem joinWith_words {s : List Char} (hs : Starts s) (h : SingleSpaced s) :
    joinWith [' '] (words s) = s :=
  joinWith_wordsFrom (.inr hs) h

/-- Words that are joined hold what they held before. -/
theorem filter_joinWith {ws : List (List Char)} (h : ∀ w ∈ ws, ∀ c ∈ w, isBlank c = false) :
    (joinWith [' '] ws).filter (fun c => !isBlank c) = ws.flatten := by
  have hsolid {w : List Char} (hw : w ∈ ws) : w.filter (fun c => !isBlank c) = w := by
    refine List.filter_eq_self.2 fun c hc => ?_
    rw [h w hw c hc]
    rfl
  -- Along the joining; only the spaces between words are filtered out.
  induction ws using joinWith.induct with
  | case1 => rfl
  | case2 w => rw [joinWith, hsolid List.mem_cons_self, List.flatten_singleton]
  | case3 w v ws ih =>
    have hrest := ih (fun u hu => h u (List.mem_cons_of_mem w hu)) fun hu => hsolid (List.mem_cons_of_mem w hu)
    rw [joinWith, List.filter_append, List.filter_append, hsolid List.mem_cons_self, hrest]
    exact congrArg (· ++ _) (List.append_nil w)

/-! ### The two sides of a mark -/

/-- Without the prefix nothing is stripped. -/
theorem stripAll_of_stripPrefix?_eq_none {p s : List Char} (h : stripPrefix? p s = none) :
    stripAll p s = s := by
  unfold stripAll
  cases s.length with
  | zero => rfl
  | succ n =>
    unfold stripUpTo
    rw [h]

/-- A text is cut at its first mark. -/
theorem cut?_append {c : Char} {a : List Char} (h : c ∉ a) (s : List Char) :
    cut? c (a ++ c :: s) = some (a, s) := by
  induction a with
  | nil => rw [List.nil_append, cut?, if_pos rfl]
  | cons d a ih =>
    have hd : d ≠ c := fun heq => h (heq ▸ List.mem_cons_self)
    rw [List.cons_append, cut?, if_neg hd, ih fun hc => h (List.mem_cons_of_mem d hc), Option.map_some]

/-- Without a mark all of the text stands before it. -/
theorem before_of_notMem {c : Char} {s : List Char} (h : c ∉ s) : before (· == c) s = s := by
  rw [before, List.takeWhile_eq_self_iff]
  intro d hd
  have hne : d ≠ c := fun heq => h (heq ▸ hd)
  rw [beq_false_of_ne hne]
  rfl

/-- A character of an identifier is none that cannot stand in one. -/
theorem ne_of_isIdentifier {c d : Char} (hc : isIdentifier c = true) (hd : isIdentifier d = false) :
    c ≠ d := by
  rintro rfl
  rw [hc] at hd
  cases hd

/-- **An identifier**: some characters of identifiers. -/
structure Identifier where
  chars : List Char
  ne_nil : chars ≠ [] := by decide
  isIdentifier : ∀ c ∈ chars, isIdentifier c = true := by exact List.all_eq_true.1 (by decide)

namespace Identifier

variable (i : Identifier)

/-- An identifier holds no white space. -/
theorem isBlank_of_mem {c : Char} (hc : c ∈ i.chars) : isBlank c = false := by
  by_contra h
  have hnone := isIdentifier_of_isBlank (Bool.not_eq_false _ ▸ h)
  rw [i.isIdentifier c hc] at hnone
  cases hnone

theorem notMem {d : Char} (hd : Text.isIdentifier d = false) : d ∉ i.chars :=
  fun h => ne_of_isIdentifier (i.isIdentifier d h) hd rfl

theorem starts : Starts i.chars := by
  obtain ⟨c, r, h⟩ := List.exists_cons_of_ne_nil i.ne_nil
  exact ⟨c, r, h, i.isBlank_of_mem (h ▸ List.mem_cons_self)⟩

theorem ends : Ends i.chars := by
  obtain ⟨r, c, h⟩ := (List.eq_nil_or_concat i.chars).resolve_left i.ne_nil
  rw [List.concat_eq_append] at h
  exact ⟨r, c, h, i.isBlank_of_mem (h ▸ List.mem_append_right r (List.mem_singleton_self c))⟩

end Identifier

end Text

end CodeAtlas
