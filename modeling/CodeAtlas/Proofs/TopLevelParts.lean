import CodeAtlas.Proofs.Words
import CodeAtlas.Source.Fragment

/-!
# Parts at the top level

`Fragment.splitTopLevel` reads a text with one number beside it, the level, to which all four kinds of
brackets count. What it makes of a text is decided by the levels of the separators alone, so the statements
here are about them:

* `levelAfter` — the level behind a text, which is the level before it and the `excess` of the text: how many
  more brackets it opens than it closes; `Whole` — no separator of a text is at level zero;
* `splitFrom_of_whole` — such a text stays in the part that is being read;
* `splitFrom_cases` — every text is whole, or it has a first separator at level zero, and the part ends
  there.

The parts are trimmed, and empty ones are dropped (`listPart_reverse_append`, `listPart_of_blank`).
-/

namespace CodeAtlas

/-! ### Levels -/

namespace Fragment

open Text

/-- A bracket of any kind. -/
def IsBracket (c : Char) : Prop :=
  c = '(' ∨ c = '<' ∨ c = '[' ∨ c = '{' ∨ c = ')' ∨ c = '>' ∨ c = ']' ∨ c = '}'

instance (c : Char) : Decidable (IsBracket c) :=
  inferInstanceAs (Decidable (_ ∨ _))

theorem levelStep_of_not_isBracket {c : Char} (h : ¬IsBracket c) (level : Int) :
    levelStep level c = level := by
  unfold IsBracket at h
  unfold levelStep
  rw [if_neg (by tauto), if_neg (by tauto)]

/-- The level behind a text. -/
def levelAfter (level : Int) (s : List Char) : Int :=
  s.foldl levelStep level

@[simp]
theorem levelAfter_nil (level : Int) : levelAfter level [] = level := rfl

/-- The level behind a text, character by character. -/
theorem levelAfter_cons (level : Int) (c : Char) (s : List Char) :
    levelAfter level (c :: s) = levelAfter (levelStep level c) s := rfl

theorem levelAfter_append (level : Int) (a b : List Char) :
    levelAfter level (a ++ b) = levelAfter (levelAfter level a) b :=
  List.foldl_append

/-- **How many more brackets a text opens than it closes**, where `opening` and `closing` say what counts. -/
def excess (opening closing : Char → Bool) (s : List Char) : Int :=
  s.countP opening - s.countP closing

section Excess

variable (opening closing : Char → Bool)

@[simp]
theorem excess_nil : excess opening closing [] = 0 := rfl

/-- The excess of two texts is the sum. -/
theorem excess_append (a b : List Char) :
    excess opening closing (a ++ b) = excess opening closing a + excess opening closing b := by
  unfold excess
  rw [List.countP_append, List.countP_append]
  omega

/-- The excess of a text, character by character. -/
theorem excess_cons (c : Char) (s : List Char) :
    excess opening closing (c :: s) = excess opening closing [c] + excess opening closing s :=
  excess_append opening closing [c] s

/-- **A count that goes up at opening brackets and down at closing ones** is, behind a text, what it was
before and the excess of the text. -/
theorem foldl_eq_add_excess {step : Int → Char → Int}
    (hstep : ∀ level c, step level c = level + excess opening closing [c]) (level : Int) (s : List Char) :
    s.foldl step level = level + excess opening closing s := by
  induction s generalizing level with
  | nil => exact (Int.add_zero level).symm
  | cons c s ih => rw [List.foldl_cons, ih, hstep, Int.add_assoc, ← excess_cons]

/-- A count of the brackets of one kind. -/
theorem countStep_eq {o c : Char} (hne : o ≠ c) (level : Int) (d : Char) :
    (if d = o then level + 1 else if d = c then level - 1 else level)
      = level + excess (· == o) (· == c) [d] := by
  split
  next hopen => simp [excess, hopen, hne]
  next hopen =>
    split
    next hclose =>
      simp [excess, hclose, hne.symm]
      rfl
    next hclose => simp [excess, hopen, hclose]

end Excess

/-- The opening brackets of all four kinds. -/
def isOpening (c : Char) : Bool :=
  ['(', '<', '[', '{'].contains c

/-- The closing brackets of all four kinds. -/
def isClosing (c : Char) : Bool :=
  [')', '>', ']', '}'].contains c

/-- One step adds the excess of its character. -/
theorem levelStep_eq (level : Int) (c : Char) :
    levelStep level c = level + excess isOpening isClosing [c] := by
  unfold levelStep
  split
  next hopen => rcases hopen with rfl | rfl | rfl | rfl <;> rfl
  next hopen =>
    split
    next hclose => rcases hclose with rfl | rfl | rfl | rfl <;> rfl
    next hclose =>
      -- No bracket at all, so neither count goes up.
      have hnotOpening : isOpening c = false := by simpa [isOpening] using hopen
      have hnotClosing : isClosing c = false := by simpa [isClosing] using hclose
      simp [excess, hnotOpening, hnotClosing]

/-- **The level behind a text** is the level before it and what the text opens more than it closes. -/
theorem levelAfter_eq (level : Int) (s : List Char) :
    levelAfter level s = level + excess isOpening isClosing s :=
  foldl_eq_add_excess _ _ levelStep_eq level s

/-- **No separator stands at level zero** in a text that is read from a level on. -/
def Whole (sep : Char) : (level : Int) → List Char → Prop
  | _, [] => True
  | level, c :: s => ¬(c = sep ∧ levelStep level c = 0) ∧ Whole sep (levelStep level c) s

/-- Two texts are whole if each is, the second one from the level behind the first one on. -/
theorem whole_append {sep : Char} {level : Int} {a b : List Char} :
    Whole sep level (a ++ b) ↔ Whole sep level a ∧ Whole sep (levelAfter level a) b := by
  induction a generalizing level with
  | nil => exact ⟨fun h => ⟨trivial, h⟩, fun h => h.2⟩
  | cons c a ih =>
    rw [List.cons_append, Whole, Whole, ih, levelAfter_cons, and_assoc]

/-- A text without separators is whole. -/
theorem whole_of_notMem {sep : Char} {s : List Char} (h : sep ∉ s) (level : Int) : Whole sep level s := by
  induction s generalizing level with
  | nil => trivial
  | cons c s ih =>
    have hc : c ≠ sep := fun heq => h (heq ▸ List.mem_cons_self)
    exact ⟨fun hsep => hc hsep.1, ih (fun hs => h (List.mem_cons_of_mem c hs)) _⟩

/-- A character that is no separator can be read over. -/
theorem whole_cons_of_ne {sep c : Char} (h : c ≠ sep) {level : Int} {s : List Char} :
    Whole sep level (c :: s) ↔ Whole sep (levelStep level c) s :=
  and_iff_right fun hsep => h hsep.1

/-- Without brackets the level stays. -/
theorem levelAfter_of_not_isBracket {s : List Char} (h : ∀ c ∈ s, ¬IsBracket c) (level : Int) :
    levelAfter level s = level := by
  induction s generalizing level with
  | nil => rfl
  | cons c s ih =>
    rw [levelAfter_cons, levelStep_of_not_isBracket (h c List.mem_cons_self),
      ih fun d hd => h d (List.mem_cons_of_mem c hd)]

/-- The characters of an identifier are no brackets. -/
theorem not_isBracket {c : Char} (h : isIdentifier c = true) : ¬IsBracket c := by
  rintro (rfl | rfl | rfl | rfl | rfl | rfl | rfl | rfl) <;> exact absurd h (by decide)

theorem levelAfter_identifier (i : Identifier) (level : Int) : levelAfter level i.chars = level :=
  levelAfter_of_not_isBracket (fun c hc => not_isBracket (i.isIdentifier c hc)) level

/-! ### Parts -/

/-- **A text without a separator at level zero** goes into the part that is being read. -/
theorem splitFrom_of_whole {sep : Char} {level : Int} {a : List Char} (h : Whole sep level a)
    (run rest : List Char) :
    splitFrom sep level run (a ++ rest) = splitFrom sep (levelAfter level a) (a.reverse ++ run) rest := by
  induction a generalizing level run with
  | nil => rfl
  | cons c a ih =>
    rw [List.cons_append, splitFrom, if_neg h.1, ih h.2, levelAfter_cons, List.reverse_cons,
      List.append_assoc, List.singleton_append]

/-- **Where a part ends**: at the end of the text, or at the first separator at level zero. -/
theorem splitFrom_cases (sep : Char) (level : Int) (run text : List Char) :
    (Whole sep level text ∧ splitFrom sep level run text = listPart (text.reverse ++ run) []) ∨
      ∃ a b, text = a ++ sep :: b ∧ Whole sep level a ∧ levelStep (levelAfter level a) sep = 0 ∧
        splitFrom sep level run text = listPart (a.reverse ++ run) (splitFrom sep 0 [] b) := by
  -- By induction on the text, from any level and with any run.
  induction text generalizing level run with
  | nil => exact .inl ⟨trivial, rfl⟩
  | cons c text ih =>
    by_cases hc : c = sep ∧ levelStep level c = 0
    · -- The first separator at level zero is the first character.
      obtain ⟨rfl, hlevel⟩ := hc
      refine .inr ⟨[], text, rfl, trivial, hlevel, ?_⟩
      rw [splitFrom, if_pos ⟨rfl, hlevel⟩, hlevel]
      rfl
    · rw [splitFrom, if_neg hc]
      rcases ih (levelStep level c) (c :: run) with ⟨hwhole, hsplit⟩ | ⟨a, b, rfl, hwhole, hlevel, hsplit⟩
      · refine .inl ⟨⟨hc, hwhole⟩, ?_⟩
        rw [hsplit, List.reverse_cons, List.append_assoc, List.singleton_append]
      · refine .inr ⟨c :: a, b, rfl, ⟨hc, hwhole⟩, hlevel, ?_⟩
        rw [hsplit, List.reverse_cons, List.append_assoc, List.singleton_append]

/-- A part that is not blank is listed. -/
theorem listPart_of_starts {run : List Char} (h : Starts (trim run.reverse)) (parts : List (List Char)) :
    listPart run parts = trim run.reverse :: parts := by
  obtain ⟨c, r, hc, -⟩ := h
  exact if_neg (hc ▸ List.cons_ne_nil c r)

/-- A part that is read behind blanks. -/
theorem listPart_reverse_append {run a : List Char} (hrun : ∀ c ∈ run, isBlank c = true) (ha : Starts a)
    (parts : List (List Char)) : listPart (a.reverse ++ run) parts = trim a :: parts := by
  have htrim : trim (a.reverse ++ run).reverse = trim a := by
    rw [List.reverse_append, List.reverse_reverse]
    exact trim_blank_append (fun c hc => hrun c (List.mem_reverse.1 hc)) a
  have hstarts : Starts (trim (a.reverse ++ run).reverse) := htrim ▸ starts_trim ha
  rw [listPart_of_starts hstarts, htrim]

/-- A blank part is dropped. -/
theorem listPart_of_blank {run : List Char} (h : ∀ c ∈ run, isBlank c = true) (parts : List (List Char)) :
    listPart run parts = parts := by
  have hblank : trim run.reverse = [] := trim_of_blank fun c hc => h c (List.mem_reverse.1 hc)
  exact if_pos hblank

/-- Blanks around a part do not count. -/
theorem listPart_append_blank {c : Char} (hc : isBlank c = true) (run : List Char)
    (parts : List (List Char)) : listPart (run ++ [c]) parts = listPart run parts := by
  have htrim : trim (run ++ [c]).reverse = trim run.reverse := by
    rw [List.reverse_append, List.reverse_singleton, List.singleton_append]
    exact trim_cons_of_blank hc _
  unfold listPart
  rw [htrim]

/-- White space at the end of a part is trimmed. -/
theorem listPart_cons_blank {c : Char} (hc : isBlank c = true) (run : List Char)
    (parts : List (List Char)) : listPart (c :: run) parts = listPart run parts := by
  have htrim : trim (c :: run).reverse = trim run.reverse := by
    -- The blank stands at the end, where trimming starts.
    have hend : trimEnd (run.reverse ++ [c]) = trimEnd run.reverse := by
      rw [trimEnd, dropEndWhile, List.reverse_append, List.reverse_singleton, List.singleton_append,
        List.dropWhile_cons_of_pos hc]
      rfl
    rw [List.reverse_cons, ← trim_trimEnd, hend, trim_trimEnd]
  unfold listPart
  rw [htrim]

section Joining

variable {sep : Char} {level : Int}

/-- At the end of the text the last part is listed. -/
theorem splitFrom_nil (run : List Char) : splitFrom sep level run [] = listPart run [] := rfl

/-- White space at the start of a part does not matter. -/
theorem splitFrom_append_blank_run {c : Char} (hc : isBlank c = true) (run s : List Char) :
    splitFrom sep level (run ++ [c]) s = splitFrom sep level run s := by
  induction s generalizing level run with
  | nil => exact listPart_append_blank hc run []
  | cons d s ih =>
    rw [splitFrom, splitFrom]
    split
    · exact listPart_append_blank hc run _
    · exact ih (d :: run)

/-- A space before a text leaves its parts as they are. -/
theorem splitFrom_cons_space (hsep : sep ≠ ' ') (s : List Char) :
    splitFrom sep 0 [] (' ' :: s) = splitFrom sep 0 [] s := by
  rw [splitFrom, if_neg fun h => hsep h.1.symm]
  exact splitFrom_append_blank_run (by decide) [] s

/-- A space behind a text leaves its parts as they are. -/
theorem splitFrom_concat_space (hsep : sep ≠ ' ') (run s : List Char) :
    splitFrom sep level run (s ++ [' ']) = splitFrom sep level run s := by
  induction s generalizing level run with
  | nil =>
    rw [List.nil_append, splitFrom_nil, splitFrom, if_neg fun h => hsep h.1.symm]
    exact listPart_cons_blank (by decide) run []
  | cons d s ih =>
    rw [List.cons_append, splitFrom, splitFrom]
    split
    · exact congrArg _ (ih [])
    · exact ih (d :: run)

/-- A part is listed in front of all that follow. -/
theorem listPart_append (run : List Char) (parts more : List (List Char)) :
    listPart run (parts ++ more) = listPart run parts ++ more := by
  unfold listPart
  dsimp only
  split <;> rfl

/-- **A separator behind a balanced text** parts what comes before it from what follows. -/
theorem splitFrom_append_sep (hsep : ¬IsBracket sep) {run a : List Char} (ha : levelAfter level a = 0)
    (b : List Char) :
    splitFrom sep level run (a ++ sep :: b) = splitFrom sep level run a ++ splitFrom sep 0 [] b := by
  induction a generalizing level run with
  | nil =>
    have hlevel : levelStep level sep = 0 := (levelStep_of_not_isBracket hsep level).trans ha
    rw [List.nil_append, splitFrom_nil, splitFrom, if_pos ⟨rfl, hlevel⟩, hlevel]
    exact listPart_append run [] _
  | cons d a ih =>
    rw [List.cons_append, splitFrom, splitFrom]
    -- A separator inside of `a` ends a part there, whatever follows `a`.
    split
    next => rw [ih ha, listPart_append]
    next => exact ih ha

end Joining

/-- A text that starts with no annotation has none. -/
theorem stripAnnotations_of_starts {c : Char} {r : List Char} (hblank : isBlank c = false) (hc : c ≠ '@') :
    stripAnnotations (c :: r) = ([], c :: r) := by
  have htrim : trimStart (c :: r) = c :: r := trimStart_of_starts ⟨c, r, rfl, hblank⟩
  unfold stripAnnotations
  dsimp only
  rw [htrim, List.length_cons, stripUpTo]
  intro rest heq
  exact hc (List.cons.inj heq).1

end Fragment

end CodeAtlas
