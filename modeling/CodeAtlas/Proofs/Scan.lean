import CodeAtlas.Source.Line
import Mathlib.Data.List.Basic

/-!
# Source text read character by character

`SourceLine.ofSource` cuts a text into lines and reads the lines one after the other. To compare the
reading of two texts that differ in the middle one wants a state *between two characters*, wherever they
stand: this is `Scan`, and `Scan.run` carries it over a piece of text. Line ends are characters like all
others. What is ahead is looked at, two characters far at most, so a run over a piece of text is given
what follows the piece.

* `Scan.step` — one character read; `Scan.run` — a piece of text read; `Scan.lines` — the lines of a text
  that has been read to its end;
* `Scan.run_append` — a run over two pieces is a run over one and then over the other;
* `lines_run` — the lines of a scan of the whole text are the lines of `SourceLine.ofSource`, as far as
  the reading of code goes (`SourceLine.bare`).

The last one is an induction over the lines of the text. Inside a line the scan and `readChars` go side
by side: `Scan.outcome` is what `readChars` will have made of the line when it starts from the state of
the scan, and a step does not change it (`outcome_readChar`).
-/

namespace CodeAtlas

/-- A line without the text as it stands: what the readers of declarations see of it. -/
def SourceLine.bare (l : SourceLine) : SourceLine :=
  { l with raw := [] }

/-- **The state of a scan** between two characters of a source text. -/
structure Scan where
  mode : Mode := .code
  depth : Nat := 0
  /-- The number of characters ahead that belong to a mark. -/
  skip : Nat := 0
  /-- The characters of the line so far, the last one first. -/
  before : List Char := []
  /-- Whether a line comment has ended the code of the line. -/
  ended : Bool := false
  /-- The code of the line so far. -/
  code : List Char := []
  /-- The brace depth before the line. -/
  start : Nat := 0
  /-- The lines that are complete. -/
  complete : List SourceLine := []
  deriving DecidableEq, Repr

namespace Scan

open SourceLine (readChars closeLine depthStep isRawMark twoMore)

/-- A character inside a line, with the text that follows it. -/
def readChar (s : Scan) (c : Char) (next : List Char) : Scan :=
  if s.ended then s
  else
    let t := { s with before := c :: s.before }
    match s.skip, s.mode with
    | skip + 1, _ => { t with skip }
    | 0, .code =>
      if c = '/' ∧ next.head? = some '/' then { t with ended := true }
      else if c = '/' ∧ next.head? = some '*' then { t with mode := .comment 1, skip := 1 }
      else if c = '"' ∨ c = '\'' then
        { t with
          mode := .literal c (twoMore c next) (isRawMark s.before)
          skip := if twoMore c next then 2 else 0
          code := s.code ++ [c] }
      else { t with depth := depthStep s.depth c, code := s.code ++ [c] }
    | 0, .comment level =>
      if c = '*' ∧ next.head? = some '/' then
        { t with mode := if 1 < level then .comment (level - 1) else .code, skip := 1 }
      else if c = '/' ∧ next.head? = some '*' then { t with mode := .comment (level + 1), skip := 1 }
      else t
    | 0, .literal quote triple raw =>
      if c = '\\' ∧ raw = false then { t with skip := 1 }
      else if c = quote ∧ (triple = false ∨ twoMore quote next) then
        { t with mode := .code, skip := if triple then 2 else 0, code := s.code ++ [c] }
      else t

section Modes

variable {s : Scan} (hended : s.ended = false) (c : Char) (next : List Char)
include hended

/-- A character of a mark that has been read already. -/
theorem readChar_skip {k : Nat} (hskip : s.skip = k + 1) :
    s.readChar c next = { s with skip := k, before := c :: s.before } := by
  simp only [readChar, hended, hskip, Bool.false_eq_true, if_false]

/-- A character of a block comment. -/
theorem readChar_comment (hskip : s.skip = 0) {level : Nat} (hmode : s.mode = .comment level) :
    s.readChar c next =
      if c = '*' ∧ next.head? = some '/' then
        { s with
          before := c :: s.before
          mode := if 1 < level then .comment (level - 1) else .code
          skip := 1 }
      else if c = '/' ∧ next.head? = some '*' then
        { s with before := c :: s.before, mode := .comment (level + 1), skip := 1 }
      else { s with before := c :: s.before } := by
  simp only [readChar, hended, hskip, hmode, Bool.false_eq_true, if_false]

/-- A character of a literal. -/
theorem readChar_literal (hskip : s.skip = 0) {quote : Char} {triple raw : Bool}
    (hmode : s.mode = .literal quote triple raw) :
    s.readChar c next =
      if c = '\\' ∧ raw = false then { s with before := c :: s.before, skip := 1 }
      else if c = quote ∧ (triple = false ∨ twoMore quote next) then
        { s with
          before := c :: s.before
          mode := .code
          skip := if triple then 2 else 0
          code := s.code ++ [c] }
      else { s with before := c :: s.before } := by
  simp only [readChar, hended, hskip, hmode, Bool.false_eq_true, if_false]

end Modes

/-- The state at the start of a line. -/
def atLine (mode : Mode) (depth : Nat) (complete : List SourceLine) : Scan :=
  { mode, depth, start := depth, complete }

/-- The state behind the end of a line. -/
def endLine (s : Scan) : Scan :=
  let r := closeLine (s.code, s.mode, s.depth)
  atLine r.2.1 r.2.2 (s.complete ++
    [{ number := s.complete.length + 1, code := r.1, raw := [], depth := s.start, depthAfter := r.2.2 }])

/-- **One character read**, with the text that follows it. A carriage return before a line feed belongs to
the end of the line. -/
def step (s : Scan) (c : Char) (next : List Char) : Scan :=
  if c = '\n' then s.endLine
  else if c = '\r' ∧ next.head? = some '\n' then s
  else s.readChar c next

/-- **A piece of text read**, with the text that follows it. -/
def run (s : Scan) : (piece rest : List Char) → Scan
  | [], _ => s
  | c :: piece, rest => run (s.step c (piece ++ rest)) piece rest

/-- **The lines of a text that has been read to its end.** A line without characters is none. -/
def lines (s : Scan) : List SourceLine :=
  if s.before = [] then s.complete else s.endLine.complete

/-- The state inside a text: `piece` has been read and `rest` follows. -/
def after (piece rest : List Char) : Scan :=
  run {} piece rest

/-- A run over two pieces is a run over one and then over the other. -/
theorem run_append (s : Scan) (p q rest : List Char) :
    s.run (p ++ q) rest = (s.run p (q ++ rest)).run q rest := by
  induction p generalizing s with
  | nil => rfl
  | cons c p ih =>
    rw [List.cons_append, run, run, ih, List.append_assoc]

theorem after_append (p q rest : List Char) : after (p ++ q) rest = (after p (q ++ rest)).run q rest :=
  run_append {} p q rest

/-! ### States that a scan can be in -/

/-- The quote characters. -/
def IsQuote (c : Char) : Prop :=
  c = '"' ∨ c = '\''

instance (c : Char) : Decidable (IsQuote c) :=
  inferInstanceAs (Decidable (_ ∨ _))

/-- A literal that the mode is inside of starts with a quote. -/
def Quoted (mode : Mode) : Prop :=
  ∀ q triple raw, mode = .literal q triple raw → IsQuote q

/-- What holds of every state of a scan: literals have quotes, and a line comment needs characters. -/
structure Proper (s : Scan) : Prop where
  quote : Quoted s.mode
  before_ne_nil : s.ended = true → s.before ≠ []

theorem proper_start : Proper {} where
  quote := fun _ _ _ h => by cases h
  before_ne_nil := fun h => by cases h

/-- Behind a character, only the mode matters. -/
theorem proper_of_before_eq {s : Scan} {c : Char} {l : List Char} (hbefore : s.before = c :: l)
    (hquote : Quoted s.mode) : s.Proper where
  quote := hquote
  before_ne_nil := fun _ => hbefore ▸ List.cons_ne_nil c l

/-- A character keeps a state proper. -/
theorem Proper.readChar {s : Scan} (hs : s.Proper) (c : Char) (next : List Char) :
    (s.readChar c next).Proper := by
  have hquote := hs.quote
  have hcode : Quoted .code := fun _ _ _ h => by cases h
  have hcomment : ∀ level, Quoted (.comment level) := fun _ _ _ _ h => by cases h
  unfold Scan.readChar
  split
  · exact hs
  · dsimp only
    -- Only an opening quote makes a literal.
    split
    · exact proper_of_before_eq rfl hquote
    · split
      · exact proper_of_before_eq rfl hquote
      · split
        · exact proper_of_before_eq rfl (hcomment 1)
        · split
          next hq => exact proper_of_before_eq rfl fun _ _ _ h => by cases h; exact hq
          next => exact proper_of_before_eq rfl hquote
    -- In a comment the level changes, and a comment of any level is proper.
    next level _ _ =>
      split
      · refine proper_of_before_eq rfl ?_
        dsimp only
        split
        · exact hcomment (level - 1)
        · exact hcode
      · split
        · exact proper_of_before_eq rfl (hcomment (level + 1))
        · exact proper_of_before_eq rfl hquote
    · split
      · exact proper_of_before_eq rfl hquote
      · split
        · exact proper_of_before_eq rfl hcode
        · exact proper_of_before_eq rfl hquote

/-- A line that is closed leaves code, a comment or a literal that runs on. -/
theorem closeLine_mode (r : List Char × Mode × Nat) :
    (closeLine r).2.1 = .code ∨ (closeLine r).2.1 = r.2.1 := by
  unfold closeLine
  split
  · exact .inl rfl
  · exact .inr rfl

/-- So does the end of a line. -/
theorem Proper.endLine {s : Scan} (hs : s.Proper) : s.endLine.Proper where
  quote := by
    intro q triple raw h
    rcases closeLine_mode (s.code, s.mode, s.depth) with hmode | hmode
    · have hcode : s.endLine.mode = .code := hmode
      rw [hcode] at h
      cases h
    · have hsame : s.endLine.mode = s.mode := hmode
      exact hs.quote q triple raw (hsame ▸ h)
  before_ne_nil := fun h => by cases h

theorem Proper.step {s : Scan} (hs : s.Proper) (c : Char) (next : List Char) : (s.step c next).Proper := by
  unfold Scan.step
  split
  · exact hs.endLine
  · split
    · exact hs
    · exact hs.readChar c next

theorem Proper.run {s : Scan} (hs : s.Proper) (piece rest : List Char) : (s.run piece rest).Proper := by
  induction piece generalizing s with
  | nil => exact hs
  | cons c piece ih => exact ih (hs.step c _)

/-! ### Looking ahead -/

/-- The characters that a scan looks for. -/
def IsMark (c : Char) : Prop :=
  c = '/' ∨ c = '*' ∨ IsQuote c

instance (c : Char) : Decidable (IsMark c) :=
  inferInstanceAs (Decidable (_ ∨ _ ∨ _))

/-- Two texts look the same to a character that stands before them: they agree on the marks. -/
structure LookAlike (next next' : List Char) : Prop where
  head : ∀ x, IsMark x → (next.head? = some x ↔ next'.head? = some x)
  two : ∀ q, IsQuote q → twoMore q next = twoMore q next'

/-- A character is read alike before texts that look the same to it. -/
theorem readChar_congr {s : Scan} (hs : s.Proper) {next next' : List Char} (h : LookAlike next next')
    (c : Char) : s.readChar c next = s.readChar c next' := by
  -- What follows is looked at in three ways: is it a slash, is it a star, is it the same quote twice?
  have hslash := and_congr_right' (a := c = '/') (h.head '/' (.inl rfl))
  have hopen := and_congr_right' (a := c = '/') (h.head '*' (.inr (.inl rfl)))
  have hclose := and_congr_right' (a := c = '*') (h.head '/' (.inl rfl))
  unfold readChar
  split
  · rfl
  · dsimp only
    split
    · rfl
    · rw [if_congr hslash rfl rfl, if_congr hopen rfl rfl]
      split
      · rfl
      · split
        · rfl
        · split
          next hq => rw [h.two c hq]
          next => rfl
    · rw [if_congr hclose rfl rfl, if_congr hopen rfl rfl]
    next quote triple raw _ hmode =>
      rw [h.two quote (hs.quote quote triple raw hmode)]

/-- Whether two more quotes follow, looked at from the first one. -/
theorem twoMore_cons (q x : Char) (next : List Char) :
    twoMore q (x :: next) = (x == q && next.head? == some q) := by
  cases next with
  | nil => simp [twoMore]
  | cons y next => simp [twoMore]

/-- Texts look the same behind one more character. -/
theorem LookAlike.cons {next next' : List Char} (h : LookAlike next next') (x : Char) :
    LookAlike (x :: next) (x :: next') where
  head := fun _ _ => Iff.rfl
  two := by
    intro q hq
    have hhead : (next.head? == some q) = (next'.head? == some q) := by
      rw [Bool.eq_iff_iff, beq_iff_eq, beq_iff_eq]
      exact h.head q (.inr (.inr hq))
    rw [twoMore_cons, twoMore_cons, hhead]

theorem LookAlike.append {next next' : List Char} (h : LookAlike next next') (piece : List Char) :
    LookAlike (piece ++ next) (piece ++ next') := by
  induction piece with
  | nil => exact h
  | cons x piece ih => exact ih.cons x

/-- Past the end of a line there is nothing to look for. -/
theorem lookAlike_nil {tail : List Char} (h : ∀ x, tail.head? = some x → ¬IsMark x) :
    LookAlike tail [] where
  head := by
    intro x hx
    constructor
    · intro hhead
      exact absurd hx (h x hhead)
    · intro hhead
      cases hhead
  two := by
    -- A tail that starts with no mark cannot start with two quotes.
    intro q hq
    cases tail with
    | nil => rfl
    | cons x tail =>
      have hne : x ≠ q := by
        rintro rfl
        exact h x rfl (.inr (.inr hq))
      rw [twoMore_cons, beq_false_of_ne hne]
      rfl

/-! ### Inside a line -/

/-- **What becomes of a line** whose end is still to be read. -/
def outcome (s : Scan) (raw : List Char) : List Char × Mode × Nat :=
  if s.ended then (s.code, s.mode, s.depth)
  else
    let r := readChars s.mode s.depth s.skip s.before raw
    (s.code ++ r.1, r.2)

theorem outcome_nil (s : Scan) : s.outcome [] = (s.code, s.mode, s.depth) := by
  unfold outcome
  split
  · rfl
  · rw [readChars]
    simp

/-- **A step inside a line does not change what becomes of it.** -/
theorem outcome_readChar (s : Scan) (c : Char) (raw : List Char) :
    (s.readChar c raw).outcome raw = s.outcome (c :: raw) := by
  -- Case by case: `readChar` and `readChars` branch alike.
  obtain ⟨mode, depth, skip, before, ended, code, start, complete⟩ := s
  -- A line that has ended and a character that is skipped change nothing in either of the two.
  cases ended with
  | true => rfl
  | false =>
    cases skip with
    | succ skip => simp only [readChar, outcome, readChars, Bool.false_eq_true, if_false]
    | zero =>
      cases mode with
      | code =>
        simp only [readChar, outcome, readChars, Bool.false_eq_true, if_false]
        split
        · simp
        · split
          · simp
          · split <;> simp
      | comment level =>
        simp only [readChar, outcome, readChars, Bool.false_eq_true, if_false]
        split
        · simp
        · split <;> simp
      | literal quote triple raw =>
        simp only [readChar, outcome, readChars, Bool.false_eq_true, if_false]
        split
        · simp
        · split <;> simp

/-- A step inside a line keeps what is known of the lines before it. -/
theorem readChar_frame (s : Scan) (c : Char) (next : List Char) :
    (s.readChar c next).start = s.start ∧ (s.readChar c next).complete = s.complete := by
  unfold readChar
  dsimp only
  repeat' split
  all_goals exact ⟨rfl, rfl⟩

/-- A character is counted among those of the line, unless a comment has ended it. -/
theorem before_readChar (s : Scan) (c : Char) (next : List Char) :
    (s.readChar c next).before = if s.ended then s.before else c :: s.before := by
  unfold readChar
  dsimp only
  repeat' split
  all_goals rfl

/-- Behind a character the line is not empty. -/
theorem Proper.before_readChar_ne_nil {s : Scan} (hs : s.Proper) (c : Char) (next : List Char) :
    (s.readChar c next).before ≠ [] := by
  rw [before_readChar]
  split
  next hended => exact hs.before_ne_nil hended
  next => exact List.cons_ne_nil _ _

/-- Inside of a line, a step reads a character. -/
theorem step_eq_readChar (s : Scan) {c : Char} {next : List Char} (hc : c ≠ '\n')
    (hreturn : ¬(c = '\r' ∧ next.head? = some '\n')) : s.step c next = s.readChar c next := by
  rw [step, if_neg hc, if_neg hreturn]

/-- **A run inside a line** goes with the reading of the line. -/
structure InLine (s t : Scan) (raw : List Char) : Prop where
  outcome_eq : t.outcome [] = s.outcome raw
  start_eq : t.start = s.start
  complete_eq : t.complete = s.complete
  before_ne_nil : raw ≠ [] → t.before ≠ []

/-- A piece of a line is read as `readChars` reads it, whatever follows that is no mark. -/
theorem inLine_run {s : Scan} (hs : s.Proper) {raw tail : List Char} (hraw : '\n' ∉ raw)
    (htail : ∀ x, tail.head? = some x → ¬IsMark x)
    (hreturn : raw.getLast? = some '\r' → tail.head? ≠ some '\n') : InLine s (s.run raw tail) raw := by
  -- Along the piece. What is behind its end looks like nothing, so each character is read alike.
  induction raw generalizing s with
  | nil => exact ⟨rfl, rfl, rfl, fun h => absurd rfl h⟩
  | cons c raw ih =>
    have hc : c ≠ '\n' := fun h => hraw (h ▸ List.mem_cons_self)
    have hnone : ¬(c = '\r' ∧ (raw ++ tail).head? = some '\n') := by
      rintro ⟨rfl, hnext⟩
      cases raw with
      | nil => exact hreturn rfl hnext
      | cons d raw =>
        cases hnext
        exact hraw (List.mem_cons_of_mem _ List.mem_cons_self)
    -- Seen from inside the piece, its end looks like the end of the line.
    have hlook : LookAlike (raw ++ tail) raw := by
      have happend := (lookAlike_nil htail).append raw
      rwa [List.append_nil] at happend
    have hstep : s.step c (raw ++ tail) = s.readChar c raw := by
      rw [step_eq_readChar s hc hnone, readChar_congr hs hlook]
    have hlast : raw.getLast? = some '\r' → tail.head? ≠ some '\n' := by
      intro h
      refine hreturn ?_
      rw [List.getLast?_cons, h]
      rfl
    have hframe := readChar_frame s c raw
    have hrest := ih (hs.readChar c raw) (fun h => hraw (List.mem_cons_of_mem c h)) hlast
    rw [run, hstep]
    refine ⟨?_, ?_, ?_, ?_⟩
    · rw [hrest.outcome_eq, outcome_readChar]
    · rw [hrest.start_eq, hframe.1]
    · rw [hrest.complete_eq, hframe.2]
    · intro _
      cases raw with
      | nil => exact hs.before_readChar_ne_nil c []
      | cons d raw => exact hrest.before_ne_nil (List.cons_ne_nil _ _)

/-! ### The lines of a text -/

/-- The state at the start of a line is proper. -/
theorem proper_atLine {mode : Mode} (hmode : Quoted mode)
    (depth : Nat) (complete : List SourceLine) : (atLine mode depth complete).Proper where
  quote := hmode
  before_ne_nil := fun h => by cases h

/-- The end of a line that was read from its start. -/
theorem endLine_of_inLine {mode : Mode} {depth : Nat} {complete : List SourceLine} {t : Scan}
    {raw : List Char} (h : InLine (atLine mode depth complete) t raw) :
    let r := SourceLine.read mode depth (complete.length + 1) raw
    t.endLine = atLine r.2 r.1.depthAfter (complete ++ [r.1.bare]) := by
  have houtcome : (t.code, t.mode, t.depth) = readChars mode depth 0 [] raw := by
    rw [← outcome_nil, h.outcome_eq]
    rfl
  have hstart : t.start = depth := h.start_eq
  have hcomplete : t.complete = complete := h.complete_eq
  intro r
  rw [endLine, houtcome, hstart, hcomplete]
  rfl

end Scan

/-! ### Cutting a text into lines -/

namespace Text

/-- The first line of a text goes up to its line feed. -/
theorem linesFrom_line (run : List Char) {raw : List Char} (hraw : '\n' ∉ raw) (rest : List Char) :
    linesFrom run (raw ++ '\n' :: rest) = dropReturn (run.reverse ++ raw) :: lines rest := by
  induction raw generalizing run with
  | nil =>
    rw [List.append_nil]
    rfl
  | cons c raw ih =>
    have hc : c ≠ '\n' := fun h => hraw (h ▸ List.mem_cons_self)
    rw [List.cons_append, linesFrom, ih (c :: run) (fun h => hraw (List.mem_cons_of_mem c h))]
    · simp
    · exact hc

/-- A text without a line feed is one line, or none. -/
theorem linesFrom_last (run : List Char) {raw : List Char} (hraw : '\n' ∉ raw) :
    linesFrom run raw = if run.reverse ++ raw = [] then [] else [run.reverse ++ raw] := by
  induction raw generalizing run with
  | nil =>
    rw [linesFrom]
    simp
  | cons c raw ih =>
    have hc : c ≠ '\n' := fun h => hraw (h ▸ List.mem_cons_self)
    rw [linesFrom, ih (c :: run) (fun h => hraw (List.mem_cons_of_mem c h))]
    · simp
    · exact hc

/-- A line has a carriage return to drop, or it stays as it is. -/
theorem dropReturn_cases (raw : List Char) :
    raw = dropReturn raw ++ ['\r'] ∨ dropReturn raw = raw ∧ raw.getLast? ≠ some '\r' := by
  -- The last character decides.
  rcases List.eq_nil_or_concat raw with rfl | ⟨front, c, rfl⟩
  · exact .inr ⟨rfl, by simp⟩
  · rw [List.concat_eq_append]
    unfold dropReturn
    rw [List.reverse_append, List.reverse_singleton]
    split
    next r hr =>
      cases hr
      exact .inl (by simp)
    next hno =>
      refine .inr ⟨rfl, ?_⟩
      rw [List.getLast?_concat]
      rintro ⟨⟩
      exact hno _ rfl

/-- **Induction over the lines of a text.** -/
theorem lines_induction {P : List Char → Prop} (last : ∀ raw, '\n' ∉ raw → P raw)
    (line : ∀ raw rest, '\n' ∉ raw → P rest → P (raw ++ '\n' :: rest)) (text : List Char) : P text := by
  induction hn : text.length using Nat.strongRecOn generalizing text with
  | ind n ih =>
    by_cases hmem : '\n' ∈ text
    · obtain ⟨raw, rest, rfl, hraw⟩ := List.eq_append_cons_of_mem hmem
      refine line raw rest hraw (ih rest.length ?_ rest rfl)
      rw [← hn, List.length_append, List.length_cons]
      omega
    · exact last text hmem

end Text

/-! ### The two readings agree -/

namespace Scan

/-- A line and its end read from the start of the line. -/
theorem run_line {mode : Mode} (hmode : Quoted mode)
    (depth : Nat) (complete : List SourceLine) {raw : List Char} (hraw : '\n' ∉ raw) (rest : List Char) :
    let r := SourceLine.read mode depth (complete.length + 1) (Text.dropReturn raw)
    (atLine mode depth complete).run (raw ++ ['\n']) rest
      = atLine r.2 r.1.depthAfter (complete ++ [r.1.bare]) := by
  have hproper := proper_atLine hmode depth complete
  have hfeed : ¬IsMark '\n' := by decide
  have hreturn : ¬IsMark '\r' := by decide
  intro r
  have hrun : (atLine mode depth complete).run (raw ++ ['\n']) rest
      = ((atLine mode depth complete).run raw ('\n' :: rest)).endLine := by
    rw [run_append]
    rfl
  rw [hrun]
  apply endLine_of_inLine
  -- A carriage return before the line feed belongs to the end of the line and not to the line.
  rcases Text.dropReturn_cases raw with heq | ⟨heq, hlast⟩
  · -- The carriage return is read, but it changes nothing.
    have hraw' : '\n' ∉ Text.dropReturn raw := by
      intro h
      rw [heq] at hraw
      exact hraw (List.mem_append_left _ h)
    have hskip : (atLine mode depth complete).run raw ('\n' :: rest)
        = (atLine mode depth complete).run (Text.dropReturn raw) ('\r' :: '\n' :: rest) := by
      conv_lhs => rw [heq]
      rw [run_append]
      rfl
    rw [hskip]
    refine inLine_run hproper hraw' ?_ ?_
    · rintro x ⟨⟩
      exact hreturn
    · intro _ h
      cases h
  · rw [heq]
    refine inLine_run hproper hraw ?_ ?_
    · rintro x ⟨⟩
      exact hfeed
    · intro h
      exact absurd h hlast

/-- **The lines of a scan** from the start of a line to the end of the text. -/
theorem lines_run_atLine (text : List Char) {mode : Mode}
    (hmode : Quoted mode) (depth : Nat)
    (complete : List SourceLine) :
    ((atLine mode depth complete).run text []).lines = complete ++
      (SourceLine.readAll mode depth (complete.length + 1) (Text.lines text)).map SourceLine.bare := by
  -- Line by line; the mode and the depth behind a line are those before the next one.
  induction text using Text.lines_induction generalizing mode depth complete with
  | last raw hraw =>
    have hline : InLine (atLine mode depth complete) ((atLine mode depth complete).run raw []) raw := by
      refine inLine_run (proper_atLine hmode depth complete) hraw ?_ ?_
      · rintro x ⟨⟩
      · rintro _ ⟨⟩
    rw [Text.lines, Text.linesFrom_last [] hraw]
    cases raw with
    | nil => simp [run, lines, atLine, SourceLine.readAll]
    | cons c raw =>
      rw [lines, if_neg (hline.before_ne_nil (List.cons_ne_nil _ _)), endLine_of_inLine hline]
      rfl
  | line raw rest hraw ih =>
    have hsplit : raw ++ '\n' :: rest = (raw ++ ['\n']) ++ rest := by simp
    have hlines : Text.lines (raw ++ '\n' :: rest) = Text.dropReturn raw :: Text.lines rest :=
      Text.linesFrom_line [] hraw rest
    -- The mode behind the line is that of a scan, so its literals have quotes, too.
    have hproper := (proper_atLine hmode depth complete).run (raw ++ ['\n']) rest
    have hline := run_line hmode depth complete hraw rest
    dsimp only at hline
    rw [hline] at hproper
    have hquoted : Quoted (SourceLine.read mode depth (complete.length + 1) (Text.dropReturn raw)).2 :=
      hproper.quote
    rw [hlines, hsplit, run_append, List.append_nil, hline, ih hquoted, SourceLine.readAll]
    simp

end Scan

/-- **The scan of a text finds the lines of the text.** -/
theorem SourceLine.map_bare_ofSource (source : List Char) :
    (SourceLine.ofSource source).map SourceLine.bare = (Scan.after source []).lines := by
  have hcode : Scan.Quoted .code := fun _ _ _ h => by cases h
  rw [Scan.after]
  exact (Scan.lines_run_atLine source hcode 0 []).symm

end CodeAtlas
