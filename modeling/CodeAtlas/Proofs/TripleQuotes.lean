import CodeAtlas.Proofs.HiddenText
import Mathlib.Algebra.Group.Nat.Even
import Mathlib.Data.List.DropRight
import Mathlib.Data.List.Induction

/-!
# Where a literal in triple quotes ends

A literal that three double quotes open runs over line ends up to the next three double quotes. In Kotlin it
is a raw string: a backslash in it is a character like all others, so the first three quotes close it, whatever
stands before them. The scan knows raw strings as well, but it tells them by an `r` before the quotes, which is
how Dart marks them. In all other literals a backslash hides the character behind it, also if that is a quote.

`tripleQuotes_close` says what comes of it, for every body without quotes. If the number of backslashes at the
end of the body is even, the literal is closed and the body leaves no trace but its line ends. If it is odd, the
last backslash hides the first of the three quotes, the other two close nothing, and the text is read as if one
quote were missing: the literal goes on and takes in what follows (`backslash_takes_in_class`).

The number of backslashes matters by its parity alone, and only at the end of the body, because it is what the
scan still has to skip when it comes to the quotes (`InTriple.skip_run`).
-/

namespace CodeAtlas

namespace Scan

open SourceLine (isRawMark twoMore)

/-- Three double quotes. -/
def tripleQuote : List Char := ['"', '"', '"']

/-- The number of backslashes at the end of a text. -/
def trailingBackslashes (b : List Char) : Nat :=
  (b.rtakeWhile (· == '\\')).length

/-! ### Before the literal -/

/-- A double quote ahead makes no difference to the character before it, unless that is one as well. -/
theorem step_quote_ahead (s : Scan) {c : Char} (hc : c ≠ '"') (rest : List Char) :
    s.step c ('"' :: rest) = s.step c [] := by
  -- What is ahead is looked at for two more of the same quote, a line feed, a slash and a star.
  have htwo : ∀ q, q ≠ '"' → twoMore q ('"' :: rest) = twoMore q [] := by
    intro q hq
    rw [twoMore_cons, beq_false_of_ne (Ne.symm hq)]
    rfl
  have hquote : ∀ q triple, (c = q ∧ (triple = false ∨ twoMore q ('"' :: rest) = true)) ↔
      (c = q ∧ (triple = false ∨ twoMore q [] = true)) := by
    intro q triple
    refine and_congr_right ?_
    rintro rfl
    rw [htwo c hc]
  have hhead : '"' ≠ '\n' ∧ '"' ≠ '/' ∧ '"' ≠ '*' := by decide
  unfold step readChar
  simp only [List.head?_cons, List.head?_nil, Option.some.injEq, reduceCtorEq, and_false, if_false,
    hhead, hquote, htwo c hc]

/-- **A piece of text is read the same way before a double quote and at the end of a text**, unless it ends
with a double quote itself. -/
theorem run_quote_ahead {s : Scan} (hs : s.Proper) {p : List Char} (hp : p.getLast? ≠ some '"')
    (rest : List Char) : s.run p ('"' :: rest) = s.run p [] := by
  rcases List.eq_nil_or_concat p with rfl | ⟨front, c, rfl⟩
  · rfl
  · rw [List.concat_eq_append] at hp ⊢
    have hc : c ≠ '"' := by
      rintro rfl
      exact hp (List.getLast?_concat ..)
    -- From farther away, only the character before the quote is seen.
    have htwo : ∀ q, IsQuote q → twoMore q (c :: '"' :: rest) = twoMore q [c] := by
      intro q _
      rw [twoMore_cons, twoMore_cons]
      by_cases hq : c = q
      · subst hq
        simp [Ne.symm hc]
      · simp [hq]
    have hhead : (c :: '"' :: rest).head? = [c].head? := rfl
    have hfront : s.run front (c :: '"' :: rest) = s.run front [c] := run_congr_rest hs hhead htwo front
    rw [run_append, run_append]
    dsimp only [List.cons_append, List.nil_append, run]
    rw [hfront, step_quote_ahead _ hc]

/-- A quote in code starts a raw literal only if an `r` stands directly before it. -/
theorem isRawMark_after {p : List Char} (inCode : (after p []).InCode) (hp : p.getLast? ≠ some 'r') :
    isRawMark (after p []).before = false := by
  rcases List.eq_nil_or_concat p with rfl | ⟨front, c, rfl⟩
  · rfl
  · rw [List.concat_eq_append] at hp inCode ⊢
    have hc : c ≠ 'r' := by
      rintro rfl
      exact hp (List.getLast?_concat ..)
    rw [after_append] at inCode ⊢
    dsimp only [run, List.cons_append, List.nil_append] at inCode ⊢
    by_cases hfeed : c = '\n'
    · rw [step, if_pos hfeed]
      rfl
    · rw [step_eq_readChar _ hfeed (by simp)] at inCode ⊢
      rw [before_readChar]
      split
      next hended =>
        -- In a line comment the state would not be in code.
        rw [readChar, if_pos hended] at inCode
        exact absurd inCode.2.2 (by simp [hended])
      next => simp [isRawMark, hc]

/-! ### Inside the literal -/

/-- **Inside a literal in triple quotes** in which backslashes count. -/
structure InTriple (s : Scan) : Prop where
  mode : s.mode = .literal '"' true false
  ended : s.ended = false

/-- Three quotes open a literal. -/
theorem run_openTriple {s : Scan} (hs : s.InCode) (hraw : isRawMark s.before = false) (rest : List Char) :
    s.run tripleQuote rest =
      { s with
        mode := .literal '"' true false
        before := '"' :: '"' :: '"' :: s.before
        code := s.code ++ ['"'] } := by
  obtain ⟨hmode, hskip, hended⟩ := hs
  simp [tripleQuote, run, step, readChar, twoMore, hmode, hskip, hended, hraw]

/-- A character inside the literal shows nothing but the end of a line. -/
theorem InTriple.step {s : Scan} (hs : s.InTriple) {c : Char} (hc : c ≠ '"') (next : List Char) :
    (s.step c next).InTriple ∧
      (s.step c next).visible = if c = '\n' then s.visible.endLine else s.visible := by
  unfold Scan.step
  split
  · unfold endLine
    rw [hs.mode]
    exact ⟨⟨rfl, rfl⟩, rfl⟩
  · split
    · exact ⟨hs, rfl⟩
    -- A hidden character is passed; any other one can only hide the next or be passed too.
    · cases hskip : s.skip with
      | succ k =>
        rw [readChar_skip hs.ended c next hskip]
        exact ⟨⟨hs.mode, hs.ended⟩, rfl⟩
      | zero =>
        rw [readChar_literal hs.ended c next hskip hs.mode, if_neg (fun h => hc h.1 : ¬(c = '"' ∧ _))]
        split
        · exact ⟨⟨hs.mode, hs.ended⟩, rfl⟩
        · exact ⟨⟨hs.mode, hs.ended⟩, rfl⟩

/-- **What the body of a literal shows**: its line feeds end lines, and that is all. -/
theorem InTriple.run {s : Scan} (hs : s.InTriple) {b : List Char} (hb : '"' ∉ b) (rest : List Char) :
    (s.run b rest).InTriple ∧ (s.run b rest).visible = Scan.endLine^[b.count '\n'] s.visible := by
  -- Along the body: each line feed ends a line, and nothing else is seen.
  induction b generalizing s with
  | nil => exact ⟨hs, rfl⟩
  | cons c b ih =>
    have hc : c ≠ '"' := fun h => hb (h ▸ List.mem_cons_self)
    obtain ⟨hstep, hvisible⟩ := hs.step hc (b ++ rest)
    obtain ⟨hrun, hrest⟩ := ih hstep fun h => hb (List.mem_cons_of_mem c h)
    refine ⟨hrun, ?_⟩
    rw [Scan.run, hrest, hvisible, List.count_cons]
    by_cases hfeed : c = '\n'
    · rw [if_pos hfeed, if_pos (beq_iff_eq.mpr hfeed), Function.iterate_succ_apply]
    · rw [if_neg hfeed, if_neg (fun h => hfeed (beq_iff_eq.mp h)), Nat.add_zero]

/-- A backslash that is not hidden itself hides the next character of the line. -/
theorem InTriple.skip_step {s : Scan} (hs : s.InTriple) (hskip : s.skip ≤ 1) {c : Char} (hc : c ≠ '"')
    (hfeed : c ≠ '\n') {next : List Char} (hnext : next.head? ≠ some '\n') :
    (s.step c next).skip = if c = '\\' ∧ s.skip = 0 then 1 else 0 := by
  rw [step_eq_readChar s hfeed fun h => hnext h.2]
  obtain hzero | hone := Nat.le_one_iff_eq_zero_or_eq_one.mp hskip
  · rw [readChar_literal hs.ended c next hzero hs.mode, if_neg (fun h => hc h.1 : ¬(c = '"' ∧ _))]
    by_cases hescape : c = '\\' <;> simp [hescape, hzero]
  · rw [readChar_skip hs.ended c next hone]
    simp [hone]

/-- **What is hidden at the end of the body**: the next character, if the number of backslashes at its end is
odd. -/
theorem InTriple.skip_run {s : Scan} (hs : s.InTriple) (hskip : s.skip = 0) {b : List Char} (hb : '"' ∉ b)
    {rest : List Char} (hrest : rest.head? ≠ some '\n') :
    (s.run b rest).skip = trailingBackslashes b % 2 := by
  -- From the end of the body, since only the backslashes there count.
  induction b using List.reverseRecOn generalizing rest with
  | nil => simpa [Scan.run, trailingBackslashes] using hskip
  | append_singleton b c ih =>
    have hb' : '"' ∉ b := fun h => hb (List.mem_append_left _ h)
    have hc : c ≠ '"' := fun h => hb (h ▸ List.mem_append_right _ List.mem_cons_self)
    -- The last character is read in the state that the rest of the body leaves.
    have hlast : s.run (b ++ [c]) rest = (s.run b (c :: rest)).step c rest := run_append s b [c] rest
    have hnone : c ≠ '\\' → trailingBackslashes (b ++ [c]) = 0 := by
      intro hescape
      simp [trailingBackslashes, hescape]
    rw [hlast]
    by_cases hfeed : c = '\n'
    · -- At the end of a line nothing stays hidden.
      subst hfeed
      rw [hnone (by decide)]
      rfl
    · have hbefore : (s.run b (c :: rest)).skip = trailingBackslashes b % 2 := ih hb' (by simpa using hfeed)
      rw [(hs.run hb' _).1.skip_step (by omega) hc hfeed hrest, hbefore]
      by_cases hescape : c = '\\'
      · subst hescape
        have hmore : trailingBackslashes (b ++ ['\\']) = trailingBackslashes b + 1 := by
          simp [trailingBackslashes, List.rtakeWhile_concat_pos]
        rw [hmore]
        simp only [true_and]
        split <;> omega
      · rw [hnone hescape, if_neg fun h => hescape h.1]

/-! ### The closing quotes -/

/-- The state behind a literal that is closed. -/
def closed (s : Scan) : Scan :=
  { s.visible with code := s.code ++ ['"'] }

/-- The state inside a literal that goes on. -/
def goingOn (s : Scan) : Scan :=
  { s.visible with mode := .literal '"' true false }

/-- A state that has passed a quote and is like `t` in all else. -/
def PastQuote (t s : Scan) : Prop :=
  ∃ l, s = { t with before := '"' :: l }

/-- Three quotes of which none is hidden close the literal. -/
theorem pastQuote_closeTriple {s : Scan} (hs : s.InTriple) (hskip : s.skip = 0) (rest : List Char) :
    PastQuote s.closed (s.run tripleQuote rest) := by
  refine ⟨'"' :: '"' :: s.before, ?_⟩
  simp [tripleQuote, run, step, readChar, closed, visible, twoMore, hs.mode, hs.ended, hskip]

/-- Two more quotes do not follow where one does not. -/
theorem twoMore_of_head?_ne {q : Char} {next : List Char} (h : next.head? ≠ some q) :
    twoMore q next = false := by
  cases next with
  | nil => rfl
  | cons c next =>
    have hc : c ≠ q := by simpa using h
    rw [twoMore_cons, beq_false_of_ne hc]
    rfl

/-- Two quotes close nothing. -/
theorem pastQuote_twoQuotes {s : Scan} (hs : s.InTriple) (hskip : s.skip = 0) {rest : List Char}
    (hrest : rest.head? ≠ some '"') : PastQuote s.goingOn (s.run ['"', '"'] rest) := by
  have hlast : twoMore '"' rest = false := twoMore_of_head?_ne hrest
  have hfirst : twoMore '"' ('"' :: rest) = false := by simp [twoMore_cons, hrest]
  refine ⟨'"' :: s.before, ?_⟩
  simp [run, step, readChar, goingOn, visible, hs.mode, hs.ended, hskip, hlast, hfirst]

/-- Three quotes of which the first one is hidden close nothing either. -/
theorem pastQuote_hiddenTriple {s : Scan} (hs : s.InTriple) (hskip : s.skip = 1) {rest : List Char}
    (hrest : rest.head? ≠ some '"') : PastQuote s.goingOn (s.run tripleQuote rest) := by
  have hhidden : s.step '"' (['"', '"'] ++ rest) = { s with skip := 0, before := '"' :: s.before } := by
    simp [step, readChar, hs.ended, hskip]
  have hsame : InTriple { s with skip := 0, before := '"' :: s.before } := ⟨hs.mode, hs.ended⟩
  rw [tripleQuote, run, hhidden]
  exact pastQuote_twoQuotes hsame rfl hrest

/-- **What was before a quote that has been passed does not matter** for the lines of a text. -/
theorem PastQuote.map_bare_eq {t : Scan} {x y q : List Char} (hx : PastQuote t (after x q))
    (hy : PastQuote t (after y q)) :
    (SourceLine.ofSource (x ++ q)).map SourceLine.bare = (SourceLine.ofSource (y ++ q)).map SourceLine.bare := by
  obtain ⟨l, hx⟩ := hx
  obtain ⟨l', hy⟩ := hy
  have hquote : Text.isIdentifier '"' = false := IsQuote.isIdentifier_eq (.inl rfl)
  rw [SourceLine.map_bare_ofSource, SourceLine.map_bare_ofSource, after_append, after_append,
    List.append_nil, hx, hy]
  exact ((Alike.of_before t hquote l l').run q []).lines_eq

/-! ### The whole literal -/

/-- The line feeds of a text. -/
def feeds (b : List Char) : List Char :=
  List.replicate (b.count '\n') '\n'

theorem count_feeds (b : List Char) : (feeds b).count '\n' = b.count '\n' :=
  List.count_replicate_self

theorem quote_not_mem_feeds (b : List Char) : '"' ∉ feeds b := by
  simp [feeds]

theorem trailingBackslashes_feeds (b : List Char) : trailingBackslashes (feeds b) = 0 := by
  simp [trailingBackslashes, feeds, List.rtakeWhile]

/-- The state behind three quotes that open a literal after `p`. -/
def behindOpening (p : List Char) : Scan :=
  { after p [] with
    mode := .literal '"' true false
    before := '"' :: '"' :: '"' :: (after p []).before
    code := (after p []).code ++ ['"'] }

section Literal

variable {p b q : List Char} (inCode : (after p []).InCode) (hr : p.getLast? ≠ some 'r')
  (hquote : p.getLast? ≠ some '"')
include inCode hr hquote

/-- The state behind the opening quotes. -/
theorem after_openTriple (rest : List Char) : after (p ++ tripleQuote) rest = behindOpening p := by
  have hp : after p (tripleQuote ++ rest) = after p [] := run_quote_ahead proper_start hquote _
  rw [after_append, hp, run_openTriple inCode (isRawMark_after inCode hr)]
  rfl

/-- **The state behind the body of a literal**, before a quote. -/
theorem after_tripleBody (hb : '"' ∉ b) (rest : List Char) :
    (after (p ++ tripleQuote ++ b) ('"' :: rest)).InTriple ∧
      (after (p ++ tripleQuote ++ b) ('"' :: rest)).skip = trailingBackslashes b % 2 ∧
      (after (p ++ tripleQuote ++ b) ('"' :: rest)).visible =
        Scan.endLine^[b.count '\n'] (behindOpening p).visible := by
  have hinside : (behindOpening p).InTriple := ⟨rfl, inCode.2.2⟩
  obtain ⟨hrun, hvisible⟩ := hinside.run hb ('"' :: rest)
  rw [after_append, after_openTriple inCode hr hquote]
  exact ⟨hrun, hinside.skip_run inCode.2.1 hb (by simp), hvisible⟩

/-- Behind an even number of backslashes, three quotes lead back into code. -/
theorem pastQuote_of_even (hb : '"' ∉ b) (heven : Even (trailingBackslashes b)) (q : List Char) :
    PastQuote (Scan.endLine^[b.count '\n'] (behindOpening p).visible).closed
      (after (p ++ tripleQuote ++ b ++ tripleQuote) q) := by
  obtain ⟨hinside, hskip, hvisible⟩ := after_tripleBody inCode hr hquote hb ('"' :: '"' :: q)
  rw [Nat.even_iff.mp heven] at hskip
  rw [after_append, ← hvisible]
  exact pastQuote_closeTriple hinside hskip q

/-- Behind an odd number of backslashes, they do not. -/
theorem pastQuote_of_not_even (hb : '"' ∉ b) (hodd : ¬Even (trailingBackslashes b))
    (hq : q.head? ≠ some '"') :
    PastQuote (Scan.endLine^[b.count '\n'] (behindOpening p).visible).goingOn
      (after (p ++ tripleQuote ++ b ++ tripleQuote) q) := by
  obtain ⟨hinside, hskip, hvisible⟩ := after_tripleBody inCode hr hquote hb ('"' :: '"' :: q)
  rw [Nat.not_even_iff.mp hodd] at hskip
  rw [after_append, ← hvisible]
  exact pastQuote_hiddenTriple hinside hskip hq

/-- Two quotes behind line feeds do not, either. -/
theorem pastQuote_feeds (b : List Char) (hq : q.head? ≠ some '"') :
    PastQuote (Scan.endLine^[b.count '\n'] (behindOpening p).visible).goingOn
      (after (p ++ tripleQuote ++ feeds b ++ ['"', '"']) q) := by
  obtain ⟨hinside, hskip, hvisible⟩ := after_tripleBody inCode hr hquote (quote_not_mem_feeds b) ('"' :: q)
  rw [trailingBackslashes_feeds] at hskip
  rw [count_feeds] at hvisible
  rw [after_append, ← hvisible]
  exact pastQuote_twoQuotes hinside hskip hq

end Literal

/-- A literal that goes on is not left. -/
theorem PastQuote.not_inCode {t s : Scan} (h : PastQuote t.goingOn s) : ¬s.InCode := by
  obtain ⟨l, rfl⟩ := h
  exact fun hcode => nomatch hcode.1

theorem PastQuote.inCode {t s : Scan} (h : PastQuote t.closed s) (hended : t.ended = false) : s.InCode := by
  obtain ⟨l, rfl⟩ := h
  exact ⟨rfl, rfl, hended⟩

end Scan

open Scan (tripleQuote trailingBackslashes feeds)

/-- **Three quotes close a literal in triple quotes if an even number of backslashes stands before them**, and
only then. If they do, the lines are those of a literal that holds nothing but the line feeds of the body.
If they do not, the lines are those of a text in which one of the three quotes is missing. -/
theorem tripleQuotes_close (p b q : List Char) (inCode : (Scan.after p []).InCode)
    (hr : p.getLast? ≠ some 'r') (hquote : p.getLast? ≠ some '"') (hb : '"' ∉ b)
    (hq : q.head? ≠ some '"') :
    ((Scan.after (p ++ tripleQuote ++ b ++ tripleQuote) q).InCode ↔ Even (trailingBackslashes b)) ∧
      (Even (trailingBackslashes b) →
        (SourceLine.ofSource (p ++ tripleQuote ++ b ++ tripleQuote ++ q)).map SourceLine.bare =
          (SourceLine.ofSource (p ++ tripleQuote ++ feeds b ++ tripleQuote ++ q)).map SourceLine.bare) ∧
      (¬Even (trailingBackslashes b) →
        (SourceLine.ofSource (p ++ tripleQuote ++ b ++ tripleQuote ++ q)).map SourceLine.bare =
          (SourceLine.ofSource (p ++ tripleQuote ++ feeds b ++ ['"', '"'] ++ q)).map SourceLine.bare) := by
  refine ⟨⟨fun hcode => ?_, fun heven => ?_⟩, fun heven => ?_, fun hodd => ?_⟩
  · by_contra hodd
    exact (Scan.pastQuote_of_not_even inCode hr hquote hb hodd hq).not_inCode hcode
  · refine (Scan.pastQuote_of_even inCode hr hquote hb heven q).inCode ?_
    exact Scan.ended_iterate_endLine (s := (Scan.behindOpening p).visible) inCode.2.2 _
  -- The body of line feeds is closed as well, and comes to the same state.
  · have hfeeds : Even (trailingBackslashes (feeds b)) := by
      rw [Scan.trailingBackslashes_feeds]
      exact Even.zero
    have hempty := Scan.pastQuote_of_even inCode hr hquote (Scan.quote_not_mem_feeds b) hfeeds q
    rw [Scan.count_feeds] at hempty
    exact (Scan.pastQuote_of_even inCode hr hquote hb heven q).map_bare_eq hempty
  · exact (Scan.pastQuote_of_not_even inCode hr hquote hb hodd hq).map_bare_eq
      (Scan.pastQuote_feeds inCode hr hquote b hq)

/-- A pattern over three lines that ends with two backslashes. -/
theorem tripleQuotes_close_pattern :
    let p := "val s = ".toList
    let b := "\\d+\nclass Inside \x7b\n\\\\".toList
    let q := "\nclass Outside".toList
    ((Scan.after p []).InCode ∧ p.getLast? ≠ some 'r' ∧ p.getLast? ≠ some '"' ∧ '"' ∉ b ∧
        q.head? ≠ some '"') ∧
      (Scan.after (p ++ tripleQuote ++ b ++ tripleQuote) q).InCode ∧
      (SourceLine.ofSource (p ++ tripleQuote ++ b ++ tripleQuote ++ q)).map SourceLine.bare =
        (SourceLine.ofSource (p ++ tripleQuote ++ feeds b ++ tripleQuote ++ q)).map SourceLine.bare := by
  intro p b q
  have hp : (Scan.after p []).InCode ∧ p.getLast? ≠ some 'r' ∧ p.getLast? ≠ some '"' := by decide +kernel
  have hbq : '"' ∉ b ∧ q.head? ≠ some '"' := by decide +kernel
  have heven : Even (trailingBackslashes b) := by decide +kernel
  -- The number of backslashes is even, so the literal closes and its lines show nothing.
  obtain ⟨hcode, hlines, -⟩ := tripleQuotes_close p b q hp.1 hp.2.1 hp.2.2 hbq.1 hbq.2
  exact ⟨⟨hp.1, hp.2.1, hp.2.2, hbq⟩, hcode.2 heven, hlines heven⟩

/-- **A path that ends with a backslash**: the literal takes in the class behind it. -/
theorem backslash_takes_in_class :
    let p := "val s = ".toList
    let b := "C:\\".toList
    let q := "\nclass A \x7b\n\x7d\n".toList
    let view (l : SourceLine) := (l.code, l.depth, l.depthAfter)
    ((Scan.after p []).InCode ∧ p.getLast? ≠ some 'r' ∧ p.getLast? ≠ some '"' ∧ '"' ∉ b ∧
        q.head? ≠ some '"') ∧
      ¬(Scan.after (p ++ tripleQuote ++ b ++ tripleQuote) q).InCode ∧
      ((SourceLine.ofSource (p ++ tripleQuote ++ b ++ tripleQuote ++ q)).drop 1).map view
        = [([], 0, 0), ([], 0, 0)] ∧
      ((SourceLine.ofSource (p ++ tripleQuote ++ feeds b ++ tripleQuote ++ q)).drop 1).map view
        = [("class A \x7b".toList, 0, 1), (['}'], 1, 0)] := by
  decide +kernel

end CodeAtlas
