import CodeAtlas.Proofs.Scan
import Mathlib.Logic.Function.Iterate

/-!
# Text that the reading of code does not see

`HiddenChange` relates two source texts that differ in one place only: in a line comment, in a block
comment, or in a string literal of one line. The place is described by the state of the scan (`Scan`)
before it: a comment or a literal is one that is met *in code*, and its body is what is read while the
state stays inside it. The main statement is `map_bare_ofSource_of_hiddenChange`: the lines of the two
texts have the same numbers, the same code and the same depths.

The proof follows the scan over the three parts of a text. What stands before the place is read in the
same way, because the two texts look the same from there (`run_congr_rest`). The place itself leaves the
same state behind, up to characters that were passed: a body changes only the mode and what is forgotten
by `Scan.visible`, and line feeds in a comment end lines (`visible_run_of_comment`). What was passed
matters once more, when a quote asks whether an `r` stands before it, but then only the character before
that `r` counts; the end of a comment or of a literal hides all that was before (`Scan.Alike`), so the
rest is read in the same way as well.
-/

namespace CodeAtlas

/-- Inside a block comment. -/
def Mode.IsComment : Mode → Prop
  | .comment _ => True
  | _ => False

/-- Inside a literal of one line that starts with the given quote. -/
def Mode.IsLiteral (q : Char) : Mode → Prop
  | .literal quote false _ => quote = q
  | _ => False

instance : DecidablePred Mode.IsComment
  | .code => isFalse id
  | .comment _ => isTrue trivial
  | .literal _ _ _ => isFalse id

instance (q : Char) : DecidablePred (Mode.IsLiteral q)
  | .code => isFalse id
  | .comment _ => isFalse id
  | .literal quote false _ => inferInstanceAs (Decidable (quote = q))
  | .literal _ true _ => isFalse id

namespace Scan

open SourceLine (isRawMark twoMore)

/-- The next character is read as code. -/
def InCode (s : Scan) : Prop :=
  s.mode = .code ∧ s.skip = 0 ∧ s.ended = false

instance (s : Scan) : Decidable s.InCode :=
  inferInstanceAs (Decidable (_ ∧ _ ∧ _))

/-- The mode stays within `M` while a piece of text is read. -/
def StaysIn (M : Mode → Prop) (s : Scan) : (piece rest : List Char) → Prop
  | [], _ => M s.mode
  | c :: piece, rest => M s.mode ∧ StaysIn M (s.step c (piece ++ rest)) piece rest

instance decidableStaysIn (M : Mode → Prop) [DecidablePred M] :
    (s : Scan) → (piece rest : List Char) → Decidable (s.StaysIn M piece rest)
  | s, [], _ => inferInstanceAs (Decidable (M s.mode))
  | s, c :: piece, rest =>
    have := decidableStaysIn M (s.step c (piece ++ rest)) piece rest
    inferInstanceAs (Decidable (_ ∧ _))

/-- The mode is within `M` before the piece is read. -/
theorem StaysIn.start {M : Mode → Prop} {s : Scan} {piece rest : List Char}
    (h : s.StaysIn M piece rest) : M s.mode := by
  cases piece with
  | nil => exact h
  | cons c piece => exact h.1

theorem StaysIn.stop {M : Mode → Prop} {s : Scan} {piece rest : List Char}
    (h : s.StaysIn M piece rest) : M (s.run piece rest).mode := by
  induction piece generalizing s with
  | nil => exact h
  | cons c piece ih => exact ih h.2

/-! ### Before the place -/

/-- A step looks at the next character, and at two more for the sake of quotes. -/
theorem step_congr {s : Scan} (hs : s.Proper) {next next' : List Char}
    (hhead : next.head? = next'.head?) (hlook : LookAlike next next') (c : Char) :
    s.step c next = s.step c next' := by
  unfold step
  rw [hhead, readChar_congr hs hlook]

/-- **What is ahead of a piece matters only by its first characters.** -/
theorem run_congr_rest {s : Scan} (hs : s.Proper) {rest rest' : List Char}
    (hhead : rest.head? = rest'.head?) (htwo : ∀ q, IsQuote q → twoMore q rest = twoMore q rest')
    (piece : List Char) : s.run piece rest = s.run piece rest' := by
  have hlook : LookAlike rest rest' := ⟨fun x _ => by rw [hhead], htwo⟩
  -- Only the last character of the piece sees what is ahead; all others look at the piece itself.
  induction piece generalizing s with
  | nil => rfl
  | cons c piece ih =>
    have hnext : (piece ++ rest).head? = (piece ++ rest').head? := by
      cases piece with
      | nil => exact hhead
      | cons d piece => rfl
    rw [run, run, step_congr hs hnext (hlook.append piece), ih (hs.step c _)]

/-- A text that starts with a mark of comments is never taken for quotes. -/
theorem twoMore_slash {q : Char} (hq : IsQuote q) (next : List Char) : twoMore q ('/' :: next) = false := by
  have hne : '/' ≠ q := by
    rintro rfl
    revert hq
    decide
  rw [twoMore_cons, beq_false_of_ne hne]
  rfl

/-! ### What a scan has shown so far -/

/-- A state without the part that serves the reading of the line alone. -/
def visible (s : Scan) : Scan :=
  { s with mode := .code, skip := 0, before := [] }

/-- The characters of two lines look the same to a quote that is still to come: they are the same, or
they are the same back to a character that belongs to no word. -/
def SameBefore (b b' : List Char) : Prop :=
  b = b' ∨ ∃ front a l l', Text.isIdentifier a = false ∧ b = front ++ a :: l ∧ b' = front ++ a :: l'

/-- A quote belongs to no word. -/
theorem IsQuote.isIdentifier_eq {q : Char} (hq : IsQuote q) : Text.isIdentifier q = false := by
  rcases hq with rfl | rfl <;> decide +kernel

/-- A character read by both lines. -/
theorem SameBefore.cons {b b' : List Char} (h : SameBefore b b') (c : Char) :
    SameBefore (c :: b) (c :: b') := by
  rcases h with rfl | ⟨front, a, l, l', ha, rfl, rfl⟩
  · exact .inl rfl
  · exact .inr ⟨c :: front, a, l, l', ha, rfl, rfl⟩

/-- **Whether a quote is raw** is asked of two characters only. -/
theorem SameBefore.isRawMark_eq {b b' : List Char} (h : SameBefore b b') :
    isRawMark b = isRawMark b' := by
  rcases h with rfl | ⟨front, a, l, l', ha, rfl, rfl⟩
  · rfl
  · have hne : a ≠ 'r' := by
      rintro rfl
      revert ha
      decide +kernel
    -- The characters in front of the one that belongs to no word are the same, so it matters how many they
    -- are.
    match front with
    | [] => simp [isRawMark, hne]
    | [c] =>
      by_cases hc : c = 'r'
      · subst hc
        rfl
      · simp [isRawMark, hc]
    | c :: d :: front =>
      by_cases hc : c = 'r'
      · subst hc
        rfl
      · simp [isRawMark, hc]

/-- Lines that look the same are both at their start, or neither is. -/
theorem SameBefore.eq_nil_iff {b b' : List Char} (h : SameBefore b b') : b = [] ↔ b' = [] := by
  rcases h with rfl | ⟨front, a, l, l', -, rfl, rfl⟩
  · exact Iff.rfl
  · simp

/-- **Two states that go on alike**: they differ at most in characters that no quote can ask for. -/
def Alike (s t : Scan) : Prop :=
  ∃ b, SameBefore s.before b ∧ t = { s with before := b }

/-- One step leaves two states alike. -/
theorem Alike.step {s t : Scan} (h : Alike s t) (c : Char) (next : List Char) :
    Alike (s.step c next) (t.step c next) := by
  obtain ⟨b, hb, rfl⟩ := h
  unfold Scan.step
  split
  · exact ⟨[], .inl rfl, rfl⟩
  · split
    · exact ⟨b, hb, rfl⟩
    · unfold readChar
      dsimp only
      split
      · exact ⟨b, hb, rfl⟩
      · have hbefore := hb.cons c
        rw [hb.isRawMark_eq]
        -- No other branch asks for the characters before, and every branch adds the same one to them.
        repeat' split
        all_goals exact ⟨c :: b, hbefore, rfl⟩

theorem Alike.run {s t : Scan} (h : Alike s t) (piece rest : List Char) :
    Alike (s.run piece rest) (t.run piece rest) := by
  induction piece generalizing s t with
  | nil => exact h
  | cons c piece ih => exact ih (h.step c _)

/-- States that are alike have read the same lines. -/
theorem Alike.lines_eq {s t : Scan} (h : Alike s t) : s.lines = t.lines := by
  obtain ⟨b, hb, rfl⟩ := h
  unfold lines
  rw [if_congr hb.eq_nil_iff rfl rfl]
  rfl

/-! ### Line comments -/

/-- Behind a line comment nothing is read up to the end of the line. -/
theorem run_of_ended {s : Scan} (hs : s.ended = true) {piece : List Char} (hpiece : '\n' ∉ piece)
    (rest : List Char) : s.run piece rest = s := by
  induction piece with
  | nil => rfl
  | cons c piece ih =>
    have hc : c ≠ '\n' := fun h => hpiece (h ▸ List.mem_cons_self)
    have hstep : s.step c (piece ++ rest) = s := by
      rw [step, if_neg hc, readChar, if_pos hs]
      split <;> rfl
    rw [run, hstep, ih fun h => hpiece (List.mem_cons_of_mem c h)]

/-- **A line comment** leaves the same state behind, whatever it holds. -/
theorem run_lineComment {s : Scan} (hs : s.InCode) {body : List Char} (hbody : '\n' ∉ body)
    (rest : List Char) :
    s.run ('/' :: '/' :: body) rest = { s with ended := true, before := '/' :: s.before } := by
  obtain ⟨hmode, hskip, hended⟩ := hs
  -- The second slash ends the line for the reader; what follows is passed over up to the line feed.
  have hopen : s.step '/' ('/' :: body ++ rest) = { s with ended := true, before := '/' :: s.before } := by
    simp [step, readChar, hmode, hskip, hended]
  rw [run, hopen]
  refine run_of_ended rfl ?_ rest
  intro h
  rcases List.mem_cons.mp h with h | h
  · cases h
  · exact hbody h

/-! ### Block comments -/

/-- A character of a comment leaves nothing that can be seen. -/
theorem visible_readChar_of_comment {s : Scan} (hmode : s.mode.IsComment) (hended : s.ended = false)
    (c : Char) (next : List Char) : (s.readChar c next).visible = s.visible := by
  cases hskip : s.skip with
  | succ k =>
    rw [readChar_skip hended c next hskip]
    rfl
  | zero =>
    -- It may open a comment, close one or do neither.
    match hlevel : s.mode, hmode with
    | .comment level, _ =>
      rw [readChar_comment hended c next hskip hlevel]
      repeat' split
      all_goals rfl

/-- The end of a line in a comment is seen as the end of a line in code. -/
theorem visible_endLine_of_comment {s : Scan} (hmode : s.mode.IsComment) :
    s.endLine.visible = s.visible.endLine := by
  match hlevel : s.mode, hmode with
  | .comment level, _ =>
    unfold endLine
    rw [hlevel]
    rfl

/-- A step inside a comment shows nothing but the end of a line. -/
theorem visible_step_of_comment {s : Scan} (hmode : s.mode.IsComment) (hended : s.ended = false)
    (c : Char) (next : List Char) :
    (s.step c next).visible = if c = '\n' then s.visible.endLine else s.visible := by
  unfold step
  split
  · exact visible_endLine_of_comment hmode
  · split
    · rfl
    · exact visible_readChar_of_comment hmode hended c next

/-- **What a comment shows**: the line feeds of its body end lines, and that is all. -/
theorem visible_run_of_comment {s : Scan} (hended : s.ended = false) {body rest : List Char}
    (h : s.StaysIn Mode.IsComment body rest) :
    (s.run body rest).visible = Scan.endLine^[body.count '\n'] s.visible := by
  -- By induction on the body, where each step is seen as the end of a line or not at all.
  induction body generalizing s with
  | nil => rfl
  | cons c body ih =>
    have hstep := visible_step_of_comment h.1 hended c (body ++ rest)
    have hended' : (s.step c (body ++ rest)).ended = false := by
      have hvisible : (s.step c (body ++ rest)).ended = (s.step c (body ++ rest)).visible.ended := rfl
      rw [hvisible, hstep]
      split
      · rfl
      · exact hended
    rw [run, ih hended' h.2, hstep, List.count_cons]
    by_cases hc : c = '\n'
    · rw [if_pos hc, if_pos (beq_iff_eq.mpr hc), Function.iterate_succ_apply]
    · rw [if_neg hc, if_neg (fun h => hc (beq_iff_eq.mp h)), Nat.add_zero]

/-- Text without marks stays in the comment. -/
theorem run_comment_of_no_marks {s : Scan} {level : Nat} (hmode : s.mode = .comment level)
    (hskip : s.skip = 0) (hended : s.ended = false) {body : List Char} (hstar : '*' ∉ body)
    (hslash : '/' ∉ body) (rest : List Char) :
    s.StaysIn Mode.IsComment body rest ∧ (s.run body rest).mode = .comment level ∧
      (s.run body rest).skip = 0 := by
  have hcomment : s.mode.IsComment := by
    rw [hmode]
    trivial
  induction body generalizing s with
  | nil => exact ⟨hcomment, hmode, hskip⟩
  | cons c body ih =>
    have hc : c ≠ '*' := fun h => hstar (h ▸ List.mem_cons_self)
    have hc' : c ≠ '/' := fun h => hslash (h ▸ List.mem_cons_self)
    -- Neither the end of a line nor any other character ends the comment.
    have hstep : (s.step c (body ++ rest)).mode = .comment level ∧
        (s.step c (body ++ rest)).skip = 0 ∧ (s.step c (body ++ rest)).ended = false := by
      unfold step
      split
      · unfold endLine
        rw [hmode]
        exact ⟨rfl, rfl, rfl⟩
      · split
        · exact ⟨hmode, hskip, hended⟩
        · rw [readChar_comment hended c _ hskip hmode, if_neg (fun h => hc h.1), if_neg (fun h => hc' h.1)]
          exact ⟨hmode, hskip, hended⟩
    have hrest := ih hstep.1 hstep.2.1 hstep.2.2 (fun h => hstar (List.mem_cons_of_mem c h))
      (fun h => hslash (List.mem_cons_of_mem c h)) (by rw [hstep.1]; trivial)
    exact ⟨⟨hcomment, hrest.1⟩, hrest.2⟩

/-- The mark that opens a comment in code. -/
theorem run_openComment {s : Scan} (hs : s.InCode) (rest : List Char) :
    s.run ['/', '*'] rest = { s with mode := .comment 1, before := '*' :: '/' :: s.before } := by
  obtain ⟨hmode, hskip, hended⟩ := hs
  simp [run, step, readChar, hmode, hskip, hended]

/-- The mark that closes the only comment that is open. -/
theorem run_closeComment {s : Scan} (hmode : s.mode = .comment 1) (hskip : s.skip = 0)
    (hended : s.ended = false) (rest : List Char) :
    s.run ['*', '/'] rest = { s.visible with before := '/' :: '*' :: s.before } := by
  simp [run, step, readChar, visible, hmode, hskip, hended]

/-! ### Literals -/

/-- A step that stays in a literal shows nothing. -/
theorem visible_step_of_literal {s : Scan} {q : Char} (hmode : s.mode.IsLiteral q) {c : Char}
    {next : List Char} (hstays : (s.step c next).mode.IsLiteral q) :
    (s.step c next).visible = s.visible := by
  -- The step stays in the literal, which rules out all branches that leave it.
  match hliteral : s.mode, hmode with
  | .literal quote false raw, hquote =>
    unfold step at hstays ⊢
    split
    next hc =>
      -- The literal does not run over the end of the line.
      rw [if_pos hc, endLine, hliteral] at hstays
      exact hstays.elim
    next hc =>
      rw [if_neg hc] at hstays
      split
      · rfl
      next hreturn =>
        rw [if_neg hreturn] at hstays
        cases hended : s.ended with
        | true =>
          rw [readChar, if_pos hended]
        | false =>
          cases hskip : s.skip with
          | succ k =>
            rw [readChar_skip hended c next hskip]
            rfl
          | zero =>
            rw [readChar_literal hended c next hskip hliteral] at hstays ⊢
            split
            · rfl
            next hescape =>
              rw [if_neg hescape] at hstays
              split
              next hclose =>
                rw [if_pos hclose] at hstays
                exact hstays.elim
              next => rfl

/-- **The body of a literal shows nothing.** -/
theorem visible_run_of_literal {s : Scan} {q : Char} {body rest : List Char}
    (h : s.StaysIn (Mode.IsLiteral q) body rest) : (s.run body rest).visible = s.visible := by
  induction body generalizing s with
  | nil => rfl
  | cons c body ih =>
    rw [run, ih h.2, visible_step_of_literal h.1 h.2.start]

/-- Text without quotes and backslashes stays in the literal. -/
theorem run_literal_of_no_marks {s : Scan} {q : Char} {raw : Bool} (hq : IsQuote q)
    (hmode : s.mode = .literal q false raw) (hskip : s.skip = 0) (hended : s.ended = false)
    {body : List Char} (hbody : ∀ c ∈ body, ¬IsQuote c ∧ c ≠ '\\' ∧ c ≠ '\n') (rest : List Char) :
    s.StaysIn (Mode.IsLiteral q) body rest ∧ (s.run body rest).skip = 0 := by
  have hliteral : s.mode.IsLiteral q := by
    rw [hmode]
    rfl
  induction body generalizing s with
  | nil => exact ⟨hliteral, hskip⟩
  | cons c body ih =>
    obtain ⟨hquote, hescape, hfeed⟩ := hbody c List.mem_cons_self
    have hc : c ≠ q := fun h => hquote (h ▸ hq)
    -- Such a character neither escapes anything nor closes the literal.
    have hstep : (s.step c (body ++ rest)).mode = .literal q false raw ∧
        (s.step c (body ++ rest)).skip = 0 ∧ (s.step c (body ++ rest)).ended = false := by
      rw [step, if_neg hfeed]
      split
      · exact ⟨hmode, hskip, hended⟩
      · rw [readChar_literal hended c _ hskip hmode, if_neg (fun h => hescape h.1), if_neg (fun h => hc h.1)]
        exact ⟨hmode, hskip, hended⟩
    have hrest := ih hstep.1 hstep.2.1 hstep.2.2 (fun d hd => hbody d (List.mem_cons_of_mem c hd))
      (by rw [hstep.1]; rfl)
    exact ⟨⟨hliteral, hrest.1⟩, hrest.2⟩

/-- The quote that opens a literal in code. -/
theorem step_openLiteral {s : Scan} (hs : s.InCode) {q : Char} (hq : IsQuote q) (next : List Char) :
    s.step q next =
      { s with
        mode := .literal q (twoMore q next) (isRawMark s.before)
        skip := if twoMore q next then 2 else 0
        before := q :: s.before
        code := s.code ++ [q] } := by
  obtain ⟨hmode, hskip, hended⟩ := hs
  rcases hq with rfl | rfl <;> simp [step, readChar, hmode, hskip, hended]

/-- The quote that closes a literal of one line. -/
theorem step_closeLiteral {s : Scan} {q : Char} (hq : IsQuote q) (hmode : s.mode.IsLiteral q)
    (hskip : s.skip = 0) (hended : s.ended = false) (next : List Char) :
    s.step q next = { s.visible with code := s.visible.code ++ [q], before := q :: s.before } := by
  match hliteral : s.mode, hmode with
  | .literal _ false raw, rfl =>
    rcases hq with rfl | rfl <;> simp [step, readChar, visible, hliteral, hskip, hended]

/-- A literal of one line does not hold its own quote, backslashes aside: its body does not start with
it. -/
theorem StaysIn.ne_quote {s : Scan} {q c : Char} (hq : IsQuote q) (hskip : s.skip = 0)
    (hended : s.ended = false) {body rest : List Char}
    (h : s.StaysIn (Mode.IsLiteral q) (c :: body) rest) : c ≠ q := by
  rintro rfl
  have hnext := h.2.start
  rw [step_closeLiteral hq h.1 hskip hended] at hnext
  exact hnext

/-! ### Behind the place -/

/-- What stays in a mode over two pieces does so over the first. -/
theorem StaysIn.append_left {M : Mode → Prop} {s : Scan} {p q rest : List Char}
    (h : s.StaysIn M (p ++ q) rest) : s.StaysIn M p (q ++ rest) := by
  induction p generalizing s with
  | nil => exact h.start
  | cons c p ih =>
    refine ⟨h.1, ih ?_⟩
    rw [← List.append_assoc]
    exact h.2

/-- The ends of lines start no line comment. -/
theorem ended_iterate_endLine {s : Scan} (h : s.ended = false) (k : Nat) :
    (Scan.endLine^[k] s).ended = false := by
  cases k with
  | zero => exact h
  | succ k =>
    rw [Function.iterate_succ_apply']
    rfl

/-- No line comment starts inside a block comment. -/
theorem ended_run_of_comment {s : Scan} (hended : s.ended = false) {body rest : List Char}
    (h : s.StaysIn Mode.IsComment body rest) : (s.run body rest).ended = false := by
  have hvisible : (s.run body rest).visible.ended = false := by
    rw [visible_run_of_comment hended h]
    exact ended_iterate_endLine (s := s.visible) hended _
  exact hvisible

/-- At the end of a text inside a comment, the last line has no characters exactly if the text ends with
a line feed. -/
theorem before_run_eq_nil_iff {s : Scan} (hbefore : s.before ≠ []) (hended : s.ended = false)
    {body : List Char} (h : s.StaysIn Mode.IsComment body []) :
    (s.run body []).before = [] ↔ body.getLast? = some '\n' := by
  -- The last character decides: only a line feed forgets what was before.
  rcases List.eq_nil_or_concat body with rfl | ⟨front, c, rfl⟩
  · simp [run, hbefore]
  · rw [List.concat_eq_append] at h ⊢
    have hfront := ended_run_of_comment hended h.append_left
    rw [run_append, List.getLast?_concat, run, run, List.append_nil]
    by_cases hc : c = '\n'
    · subst hc
      exact ⟨fun _ => rfl, fun _ => rfl⟩
    · have hreturn : ¬(c = '\r' ∧ ([] : List Char).head? = some '\n') := fun h => by cases h.2
      rw [List.append_nil] at hfront
      rw [List.nil_append, step_eq_readChar _ hc hreturn, before_readChar, hfront]
      simp [hc]

end Scan

/-! ### Hidden changes -/

/-- A comment that is open is closed behind a body: the state stays inside comments while the body is
read, and one comment is open behind it. -/
structure Scan.ClosesComment (s : Scan) (body rest : List Char) : Prop where
  inside : s.StaysIn Mode.IsComment body rest
  one_open : (s.run body rest).mode = .comment 1
  free : (s.run body rest).skip = 0

/-- A literal of one line is closed behind a body: the state stays inside the literal while the body is
read, and its last character escapes nothing. -/
structure Scan.ClosesLiteral (q : Char) (s : Scan) (body rest : List Char) : Prop where
  inside : s.StaysIn (Mode.IsLiteral q) body rest
  free : (s.run body rest).skip = 0

open Scan (IsQuote)

/-- **A change that the reading of code does not see.** -/
inductive HiddenChange : List Char → List Char → Prop
  /-- Other text behind the mark of a line comment, on the same line. -/
  | lineComment {pre old new post : List Char}
      (inCode : (Scan.after pre ('/' :: '/' :: (old ++ post))).InCode)
      (old_line : '\n' ∉ old) (new_line : '\n' ∉ new) :
      HiddenChange (pre ++ '/' :: '/' :: (old ++ post)) (pre ++ '/' :: '/' :: (new ++ post))
  /-- Another body of a block comment that is closed, with as many lines and without marks. -/
  | blockComment {pre old new post : List Char}
      (inCode : (Scan.after pre ('/' :: '*' :: (old ++ '*' :: '/' :: post))).InCode)
      (closes : (Scan.after (pre ++ ['/', '*']) (old ++ '*' :: '/' :: post)).ClosesComment old
        ('*' :: '/' :: post))
      (feeds : new.count '\n' = old.count '\n') (no_star : '*' ∉ new) (no_slash : '/' ∉ new) :
      HiddenChange (pre ++ '/' :: '*' :: (old ++ '*' :: '/' :: post))
        (pre ++ '/' :: '*' :: (new ++ '*' :: '/' :: post))
  /-- Another body of a block comment that is never closed, with as many lines and without marks: it ends
  with a line feed exactly if the old one does. -/
  | openComment {pre old new : List Char}
      (inCode : (Scan.after pre ('/' :: '*' :: old)).InCode)
      (inside : (Scan.after (pre ++ ['/', '*']) old).StaysIn Mode.IsComment old [])
      (feeds : new.count '\n' = old.count '\n') (no_star : '*' ∉ new) (no_slash : '/' ∉ new)
      (last : new.getLast? = some '\n' ↔ old.getLast? = some '\n') :
      HiddenChange (pre ++ '/' :: '*' :: old) (pre ++ '/' :: '*' :: new)
  /-- Another body of a literal of one line. -/
  | literal {pre old new post : List Char} {q : Char} (quote : IsQuote q)
      (inCode : (Scan.after pre (q :: (old ++ q :: post))).InCode)
      (closes : (Scan.after (pre ++ [q]) (old ++ q :: post)).ClosesLiteral q old (q :: post))
      (old_ne : old ≠ []) (new_ne : new ≠ [])
      (no_marks : ∀ c ∈ new, ¬IsQuote c ∧ c ≠ '\\' ∧ c ≠ '\n') :
      HiddenChange (pre ++ q :: (old ++ q :: post)) (pre ++ q :: (new ++ q :: post))

namespace Scan

open SourceLine (twoMore)

/-- **Two texts with a common start** that look the same from there show the same lines if what follows
does. -/
theorem lines_after_append {pre x y : List Char} (hhead : x.head? = y.head?)
    (htwo : ∀ q, IsQuote q → twoMore q x = twoMore q y)
    (h : ((after pre x).run x []).lines = ((after pre x).run y []).lines) :
    (after (pre ++ x) []).lines = (after (pre ++ y) []).lines := by
  have hpre : after pre x = after pre y := run_congr_rest proper_start hhead htwo pre
  rw [after_append, after_append, List.append_nil, List.append_nil, ← hpre]
  exact h

/-- The same for texts that go on with a mark of comments. -/
theorem lines_after_slash {pre x y : List Char}
    (h : ((after pre ('/' :: x)).run ('/' :: x) []).lines = ((after pre ('/' :: x)).run ('/' :: y) []).lines) :
    (after (pre ++ '/' :: x) []).lines = (after (pre ++ '/' :: y) []).lines := by
  refine lines_after_append ?_ ?_ h
  · rfl
  · intro q hq
    rw [twoMore_slash hq, twoMore_slash hq]

/-- Two states that have passed the same character last, which belongs to no word. -/
theorem Alike.of_before (s : Scan) {a : Char} (ha : Text.isIdentifier a = false) (l l' : List Char) :
    Alike { s with before := a :: l } { s with before := a :: l' } :=
  ⟨a :: l', .inr ⟨[], a, l, l', ha, rfl, rfl⟩, rfl⟩

/-- **Another line comment** gives the same lines. -/
theorem lines_of_lineComment {pre old new post : List Char}
    (inCode : (after pre ('/' :: '/' :: (old ++ post))).InCode) (old_line : '\n' ∉ old)
    (new_line : '\n' ∉ new) :
    (after (pre ++ '/' :: '/' :: (old ++ post)) []).lines
      = (after (pre ++ '/' :: '/' :: (new ++ post)) []).lines := by
  have hsplit : ∀ body, '/' :: '/' :: (body ++ post) = ('/' :: '/' :: body) ++ post := fun _ => rfl
  refine lines_after_slash ?_
  generalize after pre ('/' :: '/' :: (old ++ post)) = s at inCode
  rw [hsplit, hsplit, run_append, run_append, run_lineComment inCode old_line,
    run_lineComment inCode new_line]

/-- **A comment that is closed** leaves alike states behind, whatever its body holds. -/
theorem ClosesComment.alike {t : Scan} {old new post : List Char}
    (closes : t.ClosesComment old ('*' :: '/' :: post)) (hmode : t.mode = .comment 1)
    (hskip : t.skip = 0) (hended : t.ended = false) (feeds : new.count '\n' = old.count '\n')
    (no_star : '*' ∉ new) (no_slash : '/' ∉ new) :
    Alike (t.run (old ++ '*' :: '/' :: post) []) (t.run (new ++ '*' :: '/' :: post) []) := by
  have hplain := run_comment_of_no_marks hmode hskip hended no_star no_slash ('*' :: '/' :: post)
  -- Both bodies are seen as the same number of line ends.
  have hvisible : (t.run old ('*' :: '/' :: post)).visible = (t.run new ('*' :: '/' :: post)).visible := by
    rw [visible_run_of_comment hended closes.inside, visible_run_of_comment hended hplain.1, feeds]
  have hended_old := ended_run_of_comment hended closes.inside
  have hended_new := ended_run_of_comment hended hplain.1
  have hclose : '*' :: '/' :: post = ['*', '/'] ++ post := rfl
  rw [run_append t old, run_append t new, List.append_nil, hclose, run_append _ ['*', '/'],
    run_append _ ['*', '/'], List.append_nil, ← hclose]
  refine Alike.run ?_ _ _
  rw [run_closeComment closes.one_open closes.free hended_old,
    run_closeComment hplain.2.1 hplain.2.2 hended_new, hvisible]
  exact .of_before _ (by decide +kernel) _ _

/-- **Another block comment** gives the same lines. -/
theorem lines_of_blockComment {pre old new post : List Char}
    (inCode : (after pre ('/' :: '*' :: (old ++ '*' :: '/' :: post))).InCode)
    (closes : (after (pre ++ ['/', '*']) (old ++ '*' :: '/' :: post)).ClosesComment old
      ('*' :: '/' :: post))
    (feeds : new.count '\n' = old.count '\n') (no_star : '*' ∉ new) (no_slash : '/' ∉ new) :
    (after (pre ++ '/' :: '*' :: (old ++ '*' :: '/' :: post)) []).lines
      = (after (pre ++ '/' :: '*' :: (new ++ '*' :: '/' :: post)) []).lines := by
  have hopen : ∀ next, '/' :: '*' :: next = ['/', '*'] ++ next := fun _ => rfl
  -- Both texts are read alike up to the comment, so only the reading of the comment is compared.
  rw [after_append, ← hopen, run_openComment inCode] at closes
  refine lines_after_slash ?_
  rw [hopen (old ++ _), hopen (new ++ _), run_append, run_append _ ['/', '*'], ← hopen,
    run_openComment inCode, run_openComment inCode]
  exact (closes.alike rfl inCode.2.1 inCode.2.2 feeds no_star no_slash).lines_eq

/-- **A comment that is never closed** shows the same lines, whatever its body holds. -/
theorem lines_run_of_comment {t : Scan} {old new : List Char}
    (inside : t.StaysIn Mode.IsComment old []) (hmode : t.mode = .comment 1) (hskip : t.skip = 0)
    (hended : t.ended = false) (hbefore : t.before ≠ []) (feeds : new.count '\n' = old.count '\n')
    (no_star : '*' ∉ new) (no_slash : '/' ∉ new)
    (last : new.getLast? = some '\n' ↔ old.getLast? = some '\n') :
    (t.run old []).lines = (t.run new []).lines := by
  have hplain := run_comment_of_no_marks hmode hskip hended no_star no_slash []
  -- What can be seen of a comment are its line feeds, and of them there are as many.
  have hvisible : (t.run old []).visible = (t.run new []).visible := by
    rw [visible_run_of_comment hended inside, visible_run_of_comment hended hplain.1, feeds]
  -- Whether a line is left to be completed depends on the last character alone.
  have hnil : (t.run old []).before = [] ↔ (t.run new []).before = [] := by
    rw [before_run_eq_nil_iff hbefore hended inside, before_run_eq_nil_iff hbefore hended hplain.1, last]
  have hcomplete : (t.run old []).visible.complete = (t.run new []).visible.complete := by rw [hvisible]
  have hend : (t.run old []).endLine.visible.complete = (t.run new []).endLine.visible.complete := by
    rw [visible_endLine_of_comment inside.stop, visible_endLine_of_comment hplain.1.stop, hvisible]
  exact if_congr hnil hcomplete hend

/-- **Another comment without an end** gives the same lines, if both end with a line feed or neither does. -/
theorem lines_of_openComment {pre old new : List Char}
    (inCode : (after pre ('/' :: '*' :: old)).InCode)
    (inside : (after (pre ++ ['/', '*']) old).StaysIn Mode.IsComment old [])
    (feeds : new.count '\n' = old.count '\n') (no_star : '*' ∉ new) (no_slash : '/' ∉ new)
    (last : new.getLast? = some '\n' ↔ old.getLast? = some '\n') :
    (after (pre ++ '/' :: '*' :: old) []).lines = (after (pre ++ '/' :: '*' :: new) []).lines := by
  have hopen : ∀ next, '/' :: '*' :: next = ['/', '*'] ++ next := fun _ => rfl
  -- Both texts are read alike up to the comment, which then holds all that is left.
  rw [after_append, ← hopen, run_openComment inCode] at inside
  refine lines_after_slash ?_
  rw [hopen old, hopen new, run_append, run_append _ ['/', '*'], ← hopen, run_openComment inCode,
    run_openComment inCode]
  exact lines_run_of_comment inside rfl inCode.2.1 inCode.2.2 (List.cons_ne_nil _ _) feeds no_star
    no_slash last

/-- **A literal of one line** leaves alike states behind, whatever its body holds. -/
theorem ClosesLiteral.alike {t : Scan} {q : Char} (hq : IsQuote q) {old new post : List Char}
    (closes : t.ClosesLiteral q old (q :: post)) {raw : Bool} (hmode : t.mode = .literal q false raw)
    (hskip : t.skip = 0) (hended : t.ended = false)
    (no_marks : ∀ c ∈ new, ¬IsQuote c ∧ c ≠ '\\' ∧ c ≠ '\n') :
    Alike (t.run (old ++ q :: post) []) (t.run (new ++ q :: post) []) := by
  have hplain := run_literal_of_no_marks hq hmode hskip hended no_marks (q :: post)
  -- Neither body is seen at all.
  have hold := visible_run_of_literal closes.inside
  have hnew := visible_run_of_literal hplain.1
  have hended_old : (t.run old (q :: post)).visible.ended = false := by
    rw [hold]
    exact hended
  have hended_new : (t.run new (q :: post)).visible.ended = false := by
    rw [hnew]
    exact hended
  rw [run_append t old, run_append t new, List.append_nil, run, run, List.append_nil]
  refine Alike.run ?_ _ _
  rw [step_closeLiteral hq closes.inside.stop closes.free hended_old,
    step_closeLiteral hq hplain.1.stop hplain.2 hended_new, hold, hnew]
  exact .of_before { t.visible with code := t.visible.code ++ [q] } hq.isIdentifier_eq _ _

/-- **Another literal** gives the same lines. -/
theorem lines_of_literal {pre old new post : List Char} {q : Char} (quote : IsQuote q)
    (inCode : (after pre (q :: (old ++ q :: post))).InCode)
    (closes : (after (pre ++ [q]) (old ++ q :: post)).ClosesLiteral q old (q :: post))
    (old_ne : old ≠ []) (new_ne : new ≠ [])
    (no_marks : ∀ c ∈ new, ¬IsQuote c ∧ c ≠ '\\' ∧ c ≠ '\n') :
    (after (pre ++ q :: (old ++ q :: post)) []).lines
      = (after (pre ++ q :: (new ++ q :: post)) []).lines := by
  obtain ⟨a, old, rfl⟩ := List.exists_cons_of_ne_nil old_ne
  obtain ⟨b, new, rfl⟩ := List.exists_cons_of_ne_nil new_ne
  have hb : b ≠ q := fun h => (no_marks b List.mem_cons_self).1 (h ▸ quote)
  have hnew : twoMore q (b :: new ++ q :: post) = false := by
    rw [List.cons_append, twoMore_cons, beq_false_of_ne hb]
    rfl
  have hopen : after (pre ++ [q]) (a :: old ++ q :: post)
      = (after pre (q :: (a :: old ++ q :: post))).step q (a :: old ++ q :: post) := after_append pre [q] _
  rw [hopen] at closes
  -- The literal is one of one line, so its quote is not the first of three.
  have hold : twoMore q (a :: old ++ q :: post) = false := by
    have hmode := closes.inside.start
    rw [step_openLiteral inCode quote] at hmode
    cases htwo : twoMore q (a :: old ++ q :: post) with
    | false => rfl
    | true =>
      rw [htwo] at hmode
      exact hmode.elim
  -- So both literals are entered by the same step.
  have hsame : (after pre (q :: (a :: old ++ q :: post))).step q (a :: old ++ q :: post)
      = (after pre (q :: (a :: old ++ q :: post))).step q (b :: new ++ q :: post) := by
    rw [step_openLiteral inCode quote, step_openLiteral inCode quote, hold, hnew]
  have hstep := step_openLiteral inCode quote (a :: old ++ q :: post)
  rw [hold] at hstep
  have ha : a ≠ q := closes.inside.ne_quote quote (by rw [hstep]; rfl) (by rw [hstep]; exact inCode.2.2)
  -- What stands before the literal looks at its quote only.
  refine lines_after_append ?_ ?_ ?_
  · rfl
  · intro r _
    by_cases hr : q = r
    · subst hr
      simp [twoMore_cons, ha, hb]
    · simp [twoMore_cons, beq_false_of_ne hr]
  · rw [run, run, List.append_nil, List.append_nil, ← hsame]
    exact (closes.alike quote (by rw [hstep]) (by rw [hstep]; rfl) (by rw [hstep]; exact inCode.2.2)
      no_marks).lines_eq

end Scan

/-- **A hidden change leaves the lines as they are**, but for the text as it stands. -/
theorem map_bare_ofSource_of_hiddenChange {source source' : List Char} (h : HiddenChange source source') :
    (SourceLine.ofSource source).map SourceLine.bare = (SourceLine.ofSource source').map SourceLine.bare := by
  rw [SourceLine.map_bare_ofSource, SourceLine.map_bare_ofSource]
  -- One lemma for each kind of change.
  cases h with
  | lineComment inCode old_line new_line =>
    exact Scan.lines_of_lineComment inCode old_line new_line
  | blockComment inCode closes feeds no_star no_slash =>
    exact Scan.lines_of_blockComment inCode closes feeds no_star no_slash
  | openComment inCode inside feeds no_star no_slash last =>
    exact Scan.lines_of_openComment inCode inside feeds no_star no_slash last
  | literal quote inCode closes old_ne new_ne no_marks =>
    exact Scan.lines_of_literal quote inCode closes old_ne new_ne no_marks

end CodeAtlas
