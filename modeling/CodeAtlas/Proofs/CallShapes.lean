import CodeAtlas.Proofs.Legible
import CodeAtlas.Source.Fragment
import Mathlib.Data.List.Forall2
import Mathlib.Data.List.TakeWhile

/-!
# Calls by their shape

`Fragment.calls` finds calls in code of which nothing else is known, so what counts as a call is a matter of
shape: an identifier with a parenthesis behind it. This module says that the calls of a text are those of this
shape, all of them and in order, and what their qualifiers are.

The identifiers of a text come first. An `Occurrence` cuts the text in three, and it is an identifier if the
middle is a run of identifier characters that cannot be made longer (`IsRun`). Reading from the left, the
reader is always inside of such a run or in front of where one can start: the character before the run is in
no identifier. So at the end of a run one identifier starts where the run starts, and every other one starts
behind the character that ended the run (`isRun_iff`). This is the step of the induction by which `runsFrom`
lists each identifier once (`mem_runsFrom`) and from left to right (`pairwise_runsFrom`).

The calls are the identifiers that are shaped like one (`callsFrom_eq`), and what a call is qualified by is
read off the text before it, from the right (`qualifiedBy_iff`).
-/

namespace CodeAtlas.Fragment

open Text

/-! ### Identifiers -/

/-- **A place in a text**: what stands there, and the text before and after it. -/
structure Occurrence where
  before : List Char
  name : List Char
  after : List Char

/-- **An identifier of a text**: a run of identifier characters with no such character on either side. -/
structure IsRun (text : List Char) (o : Occurrence) : Prop where
  eq : text = o.before ++ (o.name ++ o.after)
  ne_nil : o.name ≠ []
  chars : ∀ c ∈ o.name, isIdentifier c = true
  before_stops : StopsAt isIdentifier o.before.reverse
  after_stops : StopsAt isIdentifier o.after

/-- The identifiers of the rest of a text; `run` is the identifier being read and `before` the text before it,
both reversed. -/
def runsFrom (before run : List Char) : List Char → List Occurrence
  | [] => if run = [] then [] else [⟨before.reverse, run.reverse, []⟩]
  | c :: rest =>
    if isIdentifier c then runsFrom before (c :: run) rest
    else if run = [] then runsFrom (c :: before) [] rest
    else ⟨before.reverse, run.reverse, c :: rest⟩ :: runsFrom (c :: (run ++ before)) [] rest

/-- **A character that is in no identifier stands behind a run**, where the run and what follows it start with
the text up to that character. So the run and the character that ends it stand before it, or end with it. -/
theorem exists_mark_of_run {run s y r : List Char} {d : Char} (hrun : ∀ c ∈ run, isIdentifier c = true)
    (hd : isIdentifier d = false) (h : run ++ s = y ++ [d] ++ r) :
    ∃ c ∈ s.head?, run ++ [c] <+: y ++ [d] := by
  have hnotMem : d ∉ run := fun hmem => by
    rw [hrun d hmem] at hd
    cases hd
  -- The mark lies behind the run: within it there are identifier characters only.
  rcases List.append_eq_append_iff.1 h with ⟨z, hz, hs⟩ | ⟨z, hz, -⟩
  · cases z with
    | nil =>
      rw [List.append_nil] at hz
      exact absurd (hz ▸ List.mem_append_right y List.mem_cons_self) hnotMem
    | cons c z =>
      refine ⟨c, by rw [hs]; rfl, z, ?_⟩
      rw [hz, List.append_assoc, List.singleton_append]
  · exact absurd (hz ▸ List.mem_append_left z (List.mem_append_right y List.mem_cons_self)) hnotMem

section Runs

variable {before run : List Char} (hbefore : StopsAt isIdentifier before)
  (hrun : ∀ c ∈ run, isIdentifier c = true)

include hbefore hrun

/-- **Where an identifier can start** that does not start before a run: with the run, or behind the character
that ends it. -/
theorem isRun_iff {s : List Char} (hs : StopsAt isIdentifier s) {o : Occurrence} :
    IsRun (before.reverse ++ (run.reverse ++ s)) o ∧ before.reverse <+: o.before ↔
      run ≠ [] ∧ o = ⟨before.reverse, run.reverse, s⟩ ∨
        ∃ c ∈ s.head?, IsRun (before.reverse ++ (run.reverse ++ s)) o ∧
          (c :: (run ++ before)).reverse <+: o.before := by
  have hrun' : ∀ c ∈ run.reverse, isIdentifier c = true := fun c hc => hrun c (List.mem_reverse.1 hc)
  have hmark (c : Char) : (c :: (run ++ before)).reverse = before.reverse ++ (run.reverse ++ [c]) := by simp
  constructor
  · rintro ⟨h, x, hx⟩
    -- What stands between the start of the run and the identifier is `x`.
    have htext : run.reverse ++ s = x ++ (o.name ++ o.after) := by
      have heq := h.eq
      rw [← hx, List.append_assoc] at heq
      exact List.append_cancel_left heq
    rcases List.eq_nil_or_concat x with rfl | ⟨y, d, rfl⟩
    · -- The identifier starts with the run, and both are as long as they can be.
      obtain ⟨hname, hafter⟩ := legible_run isIdentifier _ _ _ _ hrun' h.chars hs h.after_stops htext
      refine .inl ⟨fun hnil => h.ne_nil ?_, ?_⟩
      · rw [← hname, hnil]
        rfl
      · rw [List.append_nil] at hx
        rw [hname, hafter, hx]
    · -- What stands right before the identifier is in no identifier, so the run has ended by then.
      rw [List.concat_eq_append] at htext hx
      have hd : isIdentifier d = false := h.before_stops d (by simp [← hx])
      obtain ⟨c, hc, hprefix⟩ := exists_mark_of_run hrun' hd htext
      refine .inr ⟨c, hc, h, ?_⟩
      rw [hmark, ← hx]
      exact (List.prefix_append_right_inj _).2 hprefix
  -- Conversely, the run itself is an identifier if there is one.
  · rintro (⟨hne, rfl⟩ | ⟨c, -, h, hprefix⟩)
    · refine ⟨⟨rfl, mt List.reverse_eq_nil_iff.1 hne, hrun', ?_, hs⟩, List.prefix_rfl⟩
      rwa [List.reverse_reverse]
    · rw [hmark] at hprefix
      exact ⟨h, (List.prefix_append _ _).trans hprefix⟩

/-- **Each identifier of a text is listed.** The induction is along the text: a run that goes on is read
further, and one that ends is listed. -/
theorem mem_runsFrom {s : List Char} {o : Occurrence} :
    o ∈ runsFrom before run s ↔
      IsRun (before.reverse ++ (run.reverse ++ s)) o ∧ before.reverse <+: o.before := by
  -- By induction on the text that is left, with the case split of the reader: the run grows, or it ends.
  induction s generalizing before run with
  | nil =>
    rw [isRun_iff hbefore hrun (s := []) nofun, runsFrom]
    split
    next hnil => simp [hnil]
    next hne => simp [hne]
  | cons c s ih =>
    rw [runsFrom]
    split
    next hc =>
      -- The run grows by the character, and the text stays the same.
      have hlonger : ∀ d ∈ c :: run, isIdentifier d = true := List.forall_mem_cons.2 ⟨hc, hrun⟩
      rw [ih hbefore hlonger, List.reverse_cons, List.append_assoc, List.singleton_append]
    next hc =>
      have hstop : StopsAt isIdentifier (c :: s) := by
        rintro d ⟨⟩
        exact Bool.eq_false_iff.2 hc
      -- Behind the character that ends the run the reading starts anew.
      have hbehind : StopsAt isIdentifier (c :: (run ++ before)) := hstop
      have hnil : ∀ d ∈ ([] : List Char), isIdentifier d = true := nofun
      have hrest := ih hbehind hnil
      have htext : (c :: (run ++ before)).reverse ++ ([].reverse ++ s)
          = before.reverse ++ (run.reverse ++ c :: s) := by simp
      rw [htext] at hrest
      rw [isRun_iff hbefore hrun hstop]
      split
      next hnil =>
        rw [hnil, List.nil_append] at hrest
        simp [hrest, hnil]
      next hne => simp [hrest, hne]

/-- The identifiers are listed from left to right. -/
theorem pairwise_runsFrom (s : List Char) :
    (runsFrom before run s).Pairwise fun a b => a.before.length < b.before.length := by
  -- By the same induction, where the identifiers that follow start behind the character that was read.
  induction s generalizing before run with
  | nil =>
    rw [runsFrom]
    split <;> simp
  | cons c s ih =>
    rw [runsFrom]
    split
    next hc => exact ih hbefore (List.forall_mem_cons.2 ⟨hc, hrun⟩)
    next hc =>
      have hbehind (before : List Char) : StopsAt isIdentifier (c :: before) := by
        rintro d ⟨⟩
        exact Bool.eq_false_iff.2 hc
      have hnil : ∀ d ∈ ([] : List Char), isIdentifier d = true := nofun
      split
      next => exact ih (hbehind before) hnil
      next =>
        -- The identifiers behind the run start behind the character that ends it.
        refine List.pairwise_cons.2 ⟨fun o ho => ?_, ih (hbehind _) hnil⟩
        obtain ⟨-, hprefix⟩ := (mem_runsFrom (hbehind _) hnil).1 ho
        have hlength := hprefix.length_le
        simp only [List.length_reverse, List.length_cons, List.length_append] at hlength ⊢
        omega

end Runs

/-! ### Qualifiers -/

/-- A text ends with a run of identifier characters that cannot be made longer; the run may be empty. -/
structure EndsWithRun (front name : List Char) : Prop where
  chars : ∀ c ∈ name, isIdentifier c = true
  stops : StopsAt isIdentifier front.reverse

/-- **What an identifier is qualified by**, by the text before it: nothing if no dot stands right before it,
and else the run before the dot, or before the question mark that stands before the dot. -/
inductive QualifiedBy : (before : List Char) → Option (List Char) → Prop
  | none {before : List Char} (h : before.getLast? ≠ some '.') : QualifiedBy before none
  | dot {front name : List Char} (h : EndsWithRun front name) (hmark : (front ++ name).getLast? ≠ some '?') :
      QualifiedBy (front ++ name ++ ['.']) (some name)
  | safeDot {front name : List Char} (h : EndsWithRun front name) :
      QualifiedBy (front ++ name ++ ['?', '.']) (some name)

/-- The run at the end of a text is what is read of it from the right. -/
theorem EndsWithRun.takeWhile_reverse {front name : List Char} (h : EndsWithRun front name) :
    ((front ++ name).reverse.takeWhile isIdentifier).reverse = name := by
  have hname : ∀ c ∈ name.reverse, isIdentifier c = true := fun c hc => h.chars c (List.mem_reverse.1 hc)
  rw [List.reverse_append, (span_run hname h.stops).1, List.reverse_reverse]

/-- Every text ends with a run. -/
theorem exists_endsWithRun (s : List Char) :
    ∃ front, s.reverse = front ++ (s.takeWhile isIdentifier).reverse ∧
      EndsWithRun front (s.takeWhile isIdentifier).reverse := by
  refine ⟨(s.dropWhile isIdentifier).reverse, ?_, ?_, ?_⟩
  · rw [← List.reverse_append, List.takeWhile_append_dropWhile]
  · exact fun c hc => List.mem_takeWhile_imp (List.mem_reverse.1 hc)
  · rw [List.reverse_reverse]
    exact stopsAt_dropWhile _ _

/-- A dot with no question mark before it: the qualifier is the run before the dot. -/
theorem qualifierOf_dot {s : List Char} (h : s.head? ≠ some '?') :
    qualifierOf ('.' :: s) = some (s.takeWhile isIdentifier).reverse := by
  rw [qualifierOf]
  rintro r rfl
  exact h rfl

/-- Without a dot there is no qualifier. -/
theorem qualifierOf_of_head?_ne {s : List Char} (h : s.head? ≠ some '.') : qualifierOf s = none := by
  rw [qualifierOf]
  · rintro r rfl
    exact h rfl
  · rintro r rfl
    exact h rfl

/-- **The qualifier of an identifier** is read off the text before it. -/
theorem qualifiedBy_iff {before : List Char} {q : Option (List Char)} :
    QualifiedBy before q ↔ q = qualifierOf before.reverse := by
  constructor
  · intro h
    -- Each shape of the text before an identifier fixes the first characters of its reverse.
    cases h with
    | none h =>
      rw [qualifierOf_of_head?_ne]
      rwa [List.head?_reverse]
    | @dot front name h hmark =>
      have hnext : (front ++ name).reverse.head? ≠ some '?' := by
        rwa [List.head?_reverse]
      rw [List.reverse_append, List.reverse_singleton, List.singleton_append, qualifierOf_dot hnext,
        h.takeWhile_reverse]
    | @safeDot front name h =>
      rw [List.reverse_append]
      exact congrArg some h.takeWhile_reverse.symm
  · rintro rfl
    -- The marks before the identifier are looked at from the right.
    obtain ⟨s, rfl⟩ : ∃ s, before = s.reverse := ⟨before.reverse, before.reverse_reverse.symm⟩
    rw [List.reverse_reverse]
    by_cases hdot : s.head? = some '.'
    · obtain ⟨s, rfl⟩ := List.head?_eq_some_iff.1 hdot
      by_cases hmark : s.head? = some '?'
      · obtain ⟨s, rfl⟩ := List.head?_eq_some_iff.1 hmark
        obtain ⟨front, hs, h⟩ := exists_endsWithRun s
        have htext : ('.' :: '?' :: s).reverse
            = front ++ (s.takeWhile isIdentifier).reverse ++ ['?', '.'] := by
          rw [← hs]
          simp
        rw [htext]
        exact .safeDot h
      · obtain ⟨front, hs, h⟩ := exists_endsWithRun s
        have htext : ('.' :: s).reverse = front ++ (s.takeWhile isIdentifier).reverse ++ ['.'] := by
          rw [← hs, List.reverse_cons]
        rw [htext, qualifierOf_dot hmark]
        refine .dot h ?_
        rwa [← hs, List.getLast?_reverse]
    · rw [qualifierOf_of_head?_ne hdot]
      refine .none ?_
      rwa [List.getLast?_reverse]

/-! ### Calls -/

/-- **An identifier is shaped like a call**: apart from spaces a parenthesis comes next, and the name starts
with no digit and is none of the words to skip. -/
structure IsCall (skip : List (List Char)) (o : Occurrence) : Prop where
  opens : ∃ n rest, o.after = List.replicate n ' ' ++ '(' :: rest
  no_digit : StopsAt isAsciiDigit o.name
  notMem : o.name ∉ skip

/-- Whether an identifier is listed among the calls. -/
def isListed (skip : List (List Char)) (o : Occurrence) : Bool :=
  opens o.after && !(o.name.head?.any isAsciiDigit) && !skip.contains o.name

/-- A call opens with a parenthesis, apart from spaces. -/
theorem opens_iff {s : List Char} : opens s = true ↔ ∃ n rest, s = List.replicate n ' ' ++ '(' :: rest := by
  have hspaces (n : Nat) : ∀ c ∈ List.replicate n ' ', (c == ' ') = true := fun c hc => by
    rw [List.eq_of_mem_replicate hc]
    rfl
  unfold opens
  rw [beq_iff_eq, List.head?_eq_some_iff]
  constructor
  · rintro ⟨rest, hrest⟩
    refine ⟨(s.takeWhile (· == ' ')).length, rest, ?_⟩
    -- What is skipped is spaces only.
    have hreplicate : s.takeWhile (· == ' ') = List.replicate (s.takeWhile (· == ' ')).length ' ' :=
      List.eq_replicate_iff.2 ⟨rfl, fun c hc => beq_iff_eq.1 (List.mem_takeWhile_imp (p := (· == ' ')) hc)⟩
    rw [← hreplicate, ← hrest, List.takeWhile_append_dropWhile]
  · rintro ⟨n, rest, rfl⟩
    have hparen : StopsAt (· == ' ') ('(' :: rest) := by
      rintro c ⟨⟩
      rfl
    exact ⟨rest, (span_run (hspaces n) hparen).2⟩

/-- The test of the reader is the shape of a call. -/
theorem isListed_iff {skip : List (List Char)} {o : Occurrence} : isListed skip o = true ↔ IsCall skip o := by
  have hdigit : (!(o.name.head?.any isAsciiDigit)) = true ↔ StopsAt isAsciiDigit o.name := by
    rw [Bool.not_eq_true', Option.any_eq_false]
    rfl
  have hskip : (!skip.contains o.name) = true ↔ o.name ∉ skip := by
    rw [Bool.not_eq_true', ← Bool.not_eq_true, List.contains_iff_mem]
  unfold isListed
  rw [Bool.and_eq_true, Bool.and_eq_true, opens_iff, hdigit, hskip]
  exact ⟨fun ⟨⟨hopens, hno⟩, hmem⟩ => ⟨hopens, hno, hmem⟩, fun h => ⟨⟨h.opens, h.no_digit⟩, h.notMem⟩⟩

/-- **The calls are the identifiers that are shaped like one.** -/
theorem callsFrom_eq (skip : List (List Char)) (before run s : List Char) :
    callsFrom skip before run s
      = ((runsFrom before run s).filter (isListed skip)).map fun o =>
        (qualifierOf o.before.reverse, o.name) := by
  -- Both readers go through the text in step, so the induction is on the text that is left.
  induction s generalizing before run with
  | nil =>
    rw [runsFrom]
    split <;> rfl
  | cons c s ih =>
    rw [callsFrom, runsFrom]
    split
    next => exact ih before (c :: run)
    next =>
      -- The next character is none of identifiers: a run ends here, unless there is none.
      dsimp only
      by_cases hrun : run = []
      · rw [hrun, if_neg fun h => h.1 rfl, if_pos rfl]
        exact ih (c :: before) []
      · -- The run has ended, and it is listed if its shape is that of a call.
        have hlisted : (run.reverse ≠ [] ∧ opens (c :: s) = true ∧
            (!run.reverse.head?.any isAsciiDigit) = true ∧ (!skip.contains run.reverse) = true) ↔
            isListed skip ⟨before.reverse, run.reverse, c :: s⟩ = true := by
          simp [isListed, hrun, and_assoc]
        rw [if_neg hrun, List.filter_cons, ih (c :: (run ++ before)) []]
        split
        next h =>
          rw [if_pos (hlisted.1 h), List.map_cons, List.reverse_reverse]
        next h => rw [if_neg (mt hlisted.2 h)]

/-- **The calls of a text are its identifiers that are shaped like a call**, from left to right, each with
what it is qualified by. -/
theorem calls_exact (text : List Char) (skip : List (List Char)) :
    ∃ found : List Occurrence,
      found.Pairwise (fun a b => a.before.length < b.before.length) ∧
        (∀ o, o ∈ found ↔ IsRun text o ∧ IsCall skip o) ∧
        List.Forall₂ (fun o call => call.2 = o.name ∧ QualifiedBy o.before call.1) found
          (calls text skip) := by
  -- The reader starts in front of the text, with no run begun.
  have hnil : ∀ c ∈ ([] : List Char), isIdentifier c = true := nofun
  have hstart : StopsAt isIdentifier [] := nofun
  refine ⟨(runsFrom [] [] text).filter (isListed skip), ?_, fun o => ?_, ?_⟩
  · exact (pairwise_runsFrom hstart hnil text).filter _
  · rw [List.mem_filter, mem_runsFrom hstart hnil, isListed_iff]
    simp
  · unfold calls
    rw [callsFrom_eq, List.forall₂_map_right_iff]
    exact List.forall₂_same.2 fun o _ => ⟨rfl, qualifiedBy_iff.2 rfl⟩

/-- A qualifier behind a question mark, one that is empty, a number and a word to skip. -/
example : calls "repo?.save (u) + .init() + 2f(x) + if (ok)".toList ["if".toList]
    = [(some "repo".toList, "save".toList), (some [], "init".toList)] := by
  decide +kernel

end CodeAtlas.Fragment
