import CodeAtlas.Proofs.Legible
import CodeAtlas.Proofs.Parentheses

/-!
# Leading annotations

What `Fragment.stripAnnotations` takes off the front of a text, said of the text alone. A text that starts
with annotations is white space, then one `AnnotationGroup` after another, then a rest (`Reads`): a group is
its mark, its name, its arguments if it has some, and the white space behind it. What makes this more than a
way of cutting is that every piece is as long as it can be and that the arguments end where they are closed
(`IsArguments`), so a text has one reading only.

One annotation is looked at from both sides. What is dropped behind a name are arguments
(`exists_isArguments`), and arguments are dropped (`dropArguments_append`). Both directions of
`stripAnnotations_eq_iff_reads` repeat this for each annotation: the first one along the recursion, the second
one along the list of groups. The recursion has a bound on the number of annotations, and the bound is the
length of the text, which each annotation makes shorter; so what ends the recursion is the text.
-/

namespace CodeAtlas.Fragment

open Text

/-! ### One annotation -/

/-- **An annotation as it is written**, with the white space behind it. -/
structure AnnotationGroup where
  name : List Char
  /-- The arguments with their parentheses and the white space before them; empty if there are none. -/
  arguments : List Char := []
  gap : List Char := []

/-- The text of an annotation. -/
def AnnotationGroup.text (g : AnnotationGroup) : List Char :=
  '@' :: (g.name ++ (g.arguments ++ g.gap))

/-- The name by which an annotation is listed: the last part of its name. -/
def AnnotationGroup.listed (g : AnnotationGroup) : List Char :=
  afterLast '.' (afterLast ':' g.name)

/-- **The arguments of an annotation**, by what stands behind them: there are none, unless a parenthesis comes
next; they end with the parenthesis that closes them; and if nothing closes them, they take all of the
text. -/
inductive IsArguments : (arguments behind : List Char) → Prop
  | none {behind : List Char} (h : (trimStart behind).head? ≠ some '(') : IsArguments [] behind
  | closed {gap inner behind : List Char} (hgap : ∀ c ∈ gap, isBlank c = true)
      (h : Balanced '(' ')' inner) : IsArguments (gap ++ '(' :: (inner ++ [')'])) behind
  | unclosed {gap body : List Char} (hgap : ∀ c ∈ gap, isBlank c = true)
      (h : ∀ inner rest, body = inner ++ ')' :: rest → ¬Balanced '(' ')' inner) :
      IsArguments (gap ++ '(' :: body) []

/-- **An annotation stands before a text**: its name, its arguments and the white space behind it are as long
as they can be. -/
structure AnnotationGroup.Before (g : AnnotationGroup) (behind : List Char) : Prop where
  name_ne_nil : g.name ≠ []
  name_chars : ∀ c ∈ g.name, isAnnotationChar c = true
  name_stops : StopsAt isAnnotationChar (g.arguments ++ (g.gap ++ behind))
  arguments : IsArguments g.arguments (g.gap ++ behind)
  blank_gap : ∀ c ∈ g.gap, isBlank c = true
  gap_stops : StopsAt isBlank behind

/-- White space before a parenthesis does not count. -/
theorem dropArguments_blank_append {gap : List Char} (hgap : ∀ c ∈ gap, isBlank c = true) (s : List Char) :
    dropArguments (gap ++ '(' :: s) = ((closing? ('(' :: s)).map (·.2)).getD [] := by
  have hparen : StopsAt isBlank ('(' :: s) := by
    rintro c ⟨⟩
    decide
  have htrim : trimStart (gap ++ '(' :: s) = '(' :: s := (span_run hgap hparen).2
  unfold dropArguments
  rw [htrim]
  rfl

/-- **Arguments are dropped**, and nothing behind them is. -/
theorem dropArguments_append {arguments behind : List Char} (h : IsArguments arguments behind) :
    dropArguments (arguments ++ behind) = behind := by
  -- Without arguments the text stays; else the parenthesis behind the gap is closed or it is not.
  cases h with
  | none h => exact if_neg h
  | @closed gap inner _ hgap h =>
    have htext : gap ++ '(' :: (inner ++ [')']) ++ behind = gap ++ '(' :: (inner ++ ')' :: behind) := by
      simp
    rw [htext, dropArguments_blank_append hgap, closing?_cons_eq_some_iff.2 ⟨inner, rfl, rfl, h⟩]
    rfl
  | @unclosed gap body hgap h =>
    rw [List.append_nil, dropArguments_blank_append hgap, closing?_cons_eq_none_iff.2 h]
    rfl

/-- **What is dropped behind the name of an annotation are its arguments.** -/
theorem exists_isArguments (text : List Char) :
    ∃ arguments, text = arguments ++ dropArguments text ∧ IsArguments arguments (dropArguments text) := by
  -- There are arguments only if a parenthesis comes next, and then it is closed or it is not.
  by_cases hopen : (trimStart text).head? = some '('
  · obtain ⟨inside, hbody⟩ := List.head?_eq_some_iff.1 hopen
    have hgap : ∀ c ∈ text.takeWhile isBlank, isBlank c = true := fun _ => List.mem_takeWhile_imp
    have htext : text = text.takeWhile isBlank ++ '(' :: inside := by
      rw [← hbody]
      exact List.takeWhile_append_dropWhile.symm
    have hdrop := dropArguments_blank_append hgap inside
    rw [← htext] at hdrop
    cases hclosing : closing? ('(' :: inside) with
    | none =>
      rw [hclosing] at hdrop
      rw [hdrop]
      exact ⟨_, htext.trans (List.append_nil _).symm, .unclosed hgap (closing?_cons_eq_none_iff.1 hclosing)⟩
    | some r =>
      rw [hclosing] at hdrop
      obtain ⟨inner, -, hinside, hbalanced⟩ := closing?_cons_eq_some_iff.1 hclosing
      refine ⟨text.takeWhile isBlank ++ '(' :: (inner ++ [')']), ?_, .closed hgap hbalanced⟩
      calc text = text.takeWhile isBlank ++ '(' :: (inner ++ ')' :: r.2) := by rw [← hinside]; exact htext
        _ = text.takeWhile isBlank ++ '(' :: (inner ++ [')']) ++ dropArguments text := by
          rw [hdrop]
          simp
  · have hdrop : dropArguments text = text := if_neg hopen
    rw [hdrop]
    exact ⟨[], rfl, .none hopen⟩

namespace AnnotationGroup

/-- An annotation in front of a text, piece by piece. -/
theorem text_append (g : AnnotationGroup) (behind : List Char) :
    g.text ++ behind = '@' :: (g.name ++ (g.arguments ++ (g.gap ++ behind))) := by
  simp [text]

/-- **What one annotation takes of a text** is a group before what it leaves. -/
theorem exists_of_mark {rest : List Char} (hname : rest.takeWhile isAnnotationChar ≠ []) :
    ∃ g : AnnotationGroup,
      '@' :: rest = g.text ++ trimStart (dropArguments (rest.dropWhile isAnnotationChar)) ∧
      g.Before (trimStart (dropArguments (rest.dropWhile isAnnotationChar))) := by
  have hrest : rest.takeWhile isAnnotationChar ++ rest.dropWhile isAnnotationChar = rest :=
    List.takeWhile_append_dropWhile
  have hstop : StopsAt isAnnotationChar (rest.dropWhile isAnnotationChar) := stopsAt_dropWhile _ _
  -- The name is as long as it can be; arguments and a gap may follow.
  obtain ⟨arguments, hbehind, harguments⟩ := exists_isArguments (rest.dropWhile isAnnotationChar)
  generalize dropArguments (rest.dropWhile isAnnotationChar) = behind at hbehind harguments ⊢
  have hgap : behind.takeWhile isBlank ++ trimStart behind = behind := List.takeWhile_append_dropWhile
  refine ⟨⟨rest.takeWhile isAnnotationChar, arguments, behind.takeWhile isBlank⟩, ?_, ?_⟩
  · rw [text_append, hgap, ← hbehind, hrest]
  · refine ⟨hname, fun _ => List.mem_takeWhile_imp, ?_, ?_, fun _ => List.mem_takeWhile_imp, ?_⟩
    · rwa [hgap, ← hbehind]
    · rwa [hgap]
    · exact stopsAt_dropWhile _ _

variable {g : AnnotationGroup} {behind : List Char}

/-- **A group is taken as one annotation**: its name is read, and what is left is what it stands before. -/
theorem Before.taken (h : g.Before behind) :
    (g.name ++ (g.arguments ++ (g.gap ++ behind))).takeWhile isAnnotationChar = g.name ∧
      trimStart (dropArguments ((g.name ++ (g.arguments ++ (g.gap ++ behind))).dropWhile isAnnotationChar))
        = behind := by
  obtain ⟨htake, hdrop⟩ := span_run h.name_chars h.name_stops
  rw [htake, hdrop, dropArguments_append h.arguments]
  exact ⟨rfl, (span_run h.blank_gap h.gap_stops).2⟩

end AnnotationGroup

/-! ### All of them -/

/-- The text of some annotations that follow each other. -/
def groupsText (groups : List AnnotationGroup) : List Char :=
  groups.flatMap AnnotationGroup.text

/-- **Annotations that stand before a rest**, each of them before the next one, and the rest starts with
none. -/
def Leading : (groups : List AnnotationGroup) → (rest : List Char) → Prop
  | [], rest => Stripped rest
  | g :: groups, rest => g.Before (groupsText groups ++ rest) ∧ Leading groups rest

/-- **The text is white space, some annotations and a rest.** -/
structure Reads (text : List Char) (groups : List AnnotationGroup) (rest : List Char) : Prop where
  eq : trimStart text = groupsText groups ++ rest
  leading : Leading groups rest

/-- **The annotations of a text are taken one by one.** -/
theorem stripUpTo_groups {groups : List AnnotationGroup} {rest : List Char} (h : Leading groups rest)
    {n : Nat} (hn : (groupsText groups ++ rest).length ≤ n) :
    stripUpTo n (groupsText groups ++ rest) = (groups.map AnnotationGroup.listed, rest) := by
  -- Along the list: the first annotation is taken off as a whole, and what is left is shorter.
  induction groups generalizing n with
  | nil => exact stripUpTo_of_stripped h n
  | cons g groups ih =>
    obtain ⟨hbefore, hleading⟩ := h
    have htext : groupsText (g :: groups) ++ rest
        = '@' :: (g.name ++ (g.arguments ++ (g.gap ++ (groupsText groups ++ rest)))) := by
      rw [← AnnotationGroup.text_append]
      exact List.append_assoc _ _ _
    obtain ⟨hname, hbehind⟩ := hbefore.taken
    rw [htext] at hn ⊢
    cases n with
    | zero => exact absurd hn (Nat.not_succ_le_zero _)
    | succ n =>
      have hlength : (groupsText groups ++ rest).length ≤ n := by
        simp only [List.length_cons, List.length_append] at hn ⊢
        omega
      rw [stripUpTo]
      dsimp only
      rw [hname, hbehind, if_neg hbefore.name_ne_nil, ih hleading hlength]
      rfl

/-- **What is taken off a text are annotations.** -/
theorem exists_groups {n : Nat} {text : List Char} (h : text.length ≤ n) :
    ∃ groups, text = groupsText groups ++ (stripUpTo n text).2 ∧ Leading groups (stripUpTo n text).2 := by
  -- Along the recursion of the reader: each round finds the next annotation.
  fun_induction stripUpTo n text with
  | case1 text => exact ⟨[], rfl, stripUpTo_stripped h⟩
  | case2 n rest full hname => exact ⟨[], rfl, fun rest' hrest => by cases hrest; exact hname⟩
  | case3 n rest full hname name r ih =>
    obtain ⟨g, hg, hbefore⟩ := AnnotationGroup.exists_of_mark hname
    have hlength := (afterAnnotation_suffix rest).length_le
    rw [List.length_cons] at h
    obtain ⟨groups, hgroups, hleading⟩ := ih (by omega)
    refine ⟨g :: groups, ?_, hgroups ▸ hbefore, hleading⟩
    calc '@' :: rest
        = g.text ++ trimStart (dropArguments (rest.dropWhile isAnnotationChar)) := hg
      _ = g.text ++ (groupsText groups ++ r.2) := congrArg (g.text ++ ·) hgroups
      _ = groupsText (g :: groups) ++ r.2 := (List.append_assoc _ _ _).symm
  | case4 n text hno => exact ⟨[], rfl, fun rest hrest => absurd hrest (hno rest)⟩

/-- Behind the white space of the last annotation there is no more. -/
theorem Leading.stopsAt {groups : List AnnotationGroup} {rest : List Char} (h : Leading groups rest)
    (hfirst : StopsAt isBlank (groupsText groups ++ rest)) : StopsAt isBlank rest := by
  induction groups with
  | nil => exact hfirst
  | cons g groups ih => exact ih h.2 h.1.gap_stops

/-- **Annotations are read in one way only**: the reading of a text is what is taken off it. -/
theorem stripAnnotations_eq_iff_reads {text rest : List Char} {names : List (List Char)} :
    stripAnnotations text = (names, rest) ↔
      ∃ groups, Reads text groups rest ∧ names = groups.map AnnotationGroup.listed := by
  -- One direction reads the text; the other one is given a reading and runs along it.
  constructor
  · intro h
    obtain ⟨groups, htext, hleading⟩ := exists_groups (Nat.le_refl (trimStart text).length)
    have hstrip : stripUpTo (trimStart text).length (trimStart text) = (names, rest) := h
    have hgroups := stripUpTo_groups hleading (Nat.le_of_eq (congrArg List.length htext.symm))
    rw [← htext, hstrip] at hgroups
    rw [hstrip] at htext hleading
    exact ⟨groups, ⟨htext, hleading⟩, congrArg Prod.fst hgroups⟩
  · rintro ⟨groups, ⟨htext, hleading⟩, rfl⟩
    unfold stripAnnotations
    dsimp only
    rw [htext]
    exact stripUpTo_groups hleading (Nat.le_refl _)

/-- **The cuts at parentheses and annotations are exact.** For a parenthesis that opens somewhere in a text,
the offset that is found is the least one at which the parentheses are balanced again, and none is found
exactly if there is none. Taking the leading annotations off a text leaves an end of it that starts neither
with white space nor with an annotation; and the text has one reading as annotations before a rest, in which
the rest is what is left and the annotations are as many as were listed. -/
theorem cuts_exact (text : List Char) :
    (∀ open_, StandsAt '(' text open_ →
      (∀ close, matchingParen text open_ = some close ↔ IsLeast {n | ClosesAt text open_ n} close) ∧
        (matchingParen text open_ = none ↔ ∀ close, ¬ClosesAt text open_ close)) ∧
    let r := stripAnnotations text
    r.2 <:+ text ∧ StopsAt isBlank r.2 ∧ stripAnnotations r.2 = ([], r.2) ∧
      (∃ groups, Reads text groups r.2) ∧
      ∀ groups rest, Reads text groups rest →
        rest = r.2 ∧ r.1 = groups.map AnnotationGroup.listed ∧ r.1.length = groups.length := by
  refine ⟨fun open_ => matchingParen_least, ?_⟩
  intro r
  obtain ⟨groups, hreads, -⟩ := stripAnnotations_eq_iff_reads.1 (rfl : stripAnnotations text = (r.1, r.2))
  have hfirst : StopsAt isBlank (groupsText groups ++ r.2) := hreads.eq ▸ stopsAt_dropWhile _ _
  have hstops : StopsAt isBlank r.2 := hreads.leading.stopsAt hfirst
  have hagain : stripAnnotations r.2 = ([], r.2) := by
    -- The rest is its own reading, without any annotation.
    refine stripAnnotations_eq_iff_reads.2 ⟨[], ⟨?_, stripAnnotations_stripped text⟩, rfl⟩
    exact (span_run (a := []) nofun hstops).2
  refine ⟨stripAnnotations_suffix text, hstops, hagain, ⟨groups, hreads⟩, fun groups' rest hreads' => ?_⟩
  -- Any reading is the one that is found, since the reader would find each of them.
  have hstrip : r = (groups'.map AnnotationGroup.listed, rest) :=
    stripAnnotations_eq_iff_reads.2 ⟨groups', hreads', rfl⟩
  have hnames : r.1 = groups'.map AnnotationGroup.listed := congrArg Prod.fst hstrip
  refine ⟨(congrArg Prod.snd hstrip).symm, hnames, ?_⟩
  rw [hnames, List.length_map]

/-- Two annotations, the second one with arguments that nothing closes, in a text with characters of two
bytes. -/
theorem cuts_exact_twoAnnotations :
    let text := " @ü:Json (x(é)) @B(c".toList
    (StandsAt '(' text 10 ∧ IsLeast {n | ClosesAt text 10 n} 16) ∧
      (StandsAt '(' text 20 ∧ ∀ close, ¬ClosesAt text 20 close) ∧
      ∃ groups, Reads text groups [] ∧ groups.map AnnotationGroup.listed = ["Json".toList, "B".toList] := by
  intro text
  obtain ⟨hparens, -, -, -, ⟨groups, hreads⟩, hunique⟩ := cuts_exact text
  have hfirst : StandsAt '(' text 10 := ⟨" @ü:Json ".toList, "x(é)) @B(c".toList, by decide, by decide⟩
  have hsecond : StandsAt '(' text 20 := ⟨" @ü:Json (x(é)) @B".toList, ['c'], by decide, by decide⟩
  -- What the program reads is evaluated, and the general statement says what that means.
  have hclosed : matchingParen text 10 = some 16 := by decide
  have hunclosed : matchingParen text 20 = none := by decide
  have hstrip : stripAnnotations text = (["Json".toList, "B".toList], []) := by decide +kernel
  obtain ⟨-, hnames, -⟩ := hunique groups _ hreads
  rw [hstrip] at hreads hnames
  exact ⟨⟨hfirst, ((hparens 10 hfirst).1 16).1 hclosed⟩, ⟨hsecond, (hparens 20 hsecond).2.1 hunclosed⟩,
    groups, hreads, hnames.symm⟩

end CodeAtlas.Fragment
