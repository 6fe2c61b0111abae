import CodeAtlas.Proofs.WaitingAnnotations
import CodeAtlas.Proofs.Words

/-!
# Annotations before a directive

A directive (a package, an import, a library, an export or a part) leaves the annotations waiting that stand
before it. So they go on to what is declared behind it: `attached_behind_directive`.

The proof follows the reading of the lines. One line does the same whatever annotations wait
(`Dialect.Handles.declares_readLine`), so two readings that differ in them go on alike: as long as they
wait, nothing that is added depends on them, one line takes them or drops them, and from then on the
readings agree in all that they add (`Dialect.Handles.readLines_waiting`, with
`Dialect.Handles.readLines_settled` for what follows that line). The lines of annotations before a directive
put them among those that wait (`Dialect.reached_annotationLines`), and the directive leaves them there
(`Dialect.Handles.reached_directive`).
-/

namespace CodeAtlas

open Text

/-! ### Lines and their annotations -/

namespace SourceLine

/-- The annotations at the start of a line. -/
def annotations (l : SourceLine) : List String :=
  (Fragment.stripAnnotations l.code).1.map String.ofList

/-- What a line holds behind its annotations. -/
def declaring (l : SourceLine) : List Char :=
  trim (Fragment.stripAnnotations l.code).2

/-- **A line of annotations alone**, or a blank one, at the top of a file. -/
structure AnnotationsOnly (l : SourceLine) : Prop where
  depth : l.depth = 0
  declaring : l.declaring = []

/-- A blank line has no annotations. -/
theorem annotations_of_isBlank {l : SourceLine} (h : l.isBlank = true) : l.annotations = [] := by
  have hcode : trimStart l.code = [] := trimStart_of_blank fun c hc => List.all_eq_true.1 h c hc
  rw [annotations, Fragment.stripAnnotations, hcode]
  rfl

end SourceLine

namespace Outline

variable {o : Outline}

/-- Bodies that are left were below the top of the file as well. -/
theorem Deep.leaveTo (ho : o.Deep) (depth : Nat) : (o.leaveTo depth).Deep :=
  fun b hb => ho b ((List.dropWhile_sublist _).subset hb)

/-- At the top of a file no body is open. -/
theorem Deep.bodies_leaveTo_zero (ho : o.Deep) : (o.leaveTo 0).bodies = [] :=
  List.dropWhile_eq_nil_iff.2 fun b hb => decide_eq_true (ho b hb)

/-- To leave the same bodies again leaves nothing. -/
theorem leaveTo_leaveTo (o : Outline) (depth : Nat) : (o.leaveTo depth).leaveTo depth = o.leaveTo depth := by
  have hbodies := List.dropWhile_idempotent (p := fun b : OpenBody => decide (depth < b.depth)) (l := o.bodies)
  unfold leaveTo
  rw [hbodies]

/-- Outside of all bodies declarations stand at depth zero. -/
theorem memberDepth_of_bodies (h : o.bodies = []) : o.memberDepth = 0 := by
  rw [memberDepth, h]
  rfl

end Outline

/-! ### Readings that differ in what waits -/

/-- **What is read from some lines, as a function of the annotations that wait before them.** At most one of
the lines declares something with them, and with those that join them in between. -/
structure Attachment (lines : List SourceLine) where
  before : Declarations
  between : List String
  added : List String → Declarations
  after : Declarations
  one_line : added = (fun _ => {}) ∨ ∃ l ∈ lines, AnnotatedOn l.number added

namespace Attachment

variable {lines : List SourceLine}

/-- The declarations that are read where the annotations `w` wait. -/
def facts (t : Attachment lines) (w : List String) : Declarations :=
  (t.before.append (t.added (w ++ t.between))).append t.after

/-- Nothing is read. -/
def none : Attachment lines where
  before := {}
  between := []
  added _ := {}
  after := {}
  one_line := .inl rfl

/-- The first line declares something with the annotations, and what follows does not depend on them. -/
def here {line : SourceLine} {added : List String → Declarations} (h : AnnotatedOn line.number added)
    (own : List String) (after : Declarations) : Attachment (line :: lines) where
  before := {}
  between := own
  added := added
  after := after
  one_line := .inr ⟨line, List.mem_cons_self, h⟩

/-- A line before the lines adds declarations and has annotations of its own. -/
def later (t : Attachment lines) (d : Declarations) (own : List String) (line : SourceLine) :
    Attachment (line :: lines) where
  before := d.append t.before
  between := own ++ t.between
  added := t.added
  after := t.after
  one_line := t.one_line.imp_right fun ⟨l, hl, hadded⟩ => ⟨l, List.mem_cons_of_mem line hl, hadded⟩

/-- Where nothing is read there are no declarations. -/
theorem facts_none (w : List String) : (none : Attachment lines).facts w = {} := rfl

/-- The first line declares something with what waits before it and what it has itself. -/
theorem facts_here {line : SourceLine} {added : List String → Declarations}
    (h : AnnotatedOn line.number added) (own : List String) (after : Declarations) (w : List String) :
    (here h own after : Attachment (line :: lines)).facts w = (added (w ++ own)).append after := rfl

/-- A line that declares nothing with the annotations passes them on, with its own behind them. -/
theorem facts_later (t : Attachment lines) (d : Declarations) (own : List String) (line : SourceLine)
    (w : List String) : (t.later d own line).facts w = d.append (t.facts (w ++ own)) := by
  simp only [facts, later, Declarations.append_assoc, List.append_assoc]

end Attachment

namespace Dialect

/-- **A dialect whose lines handle the annotations that wait**, and whose directives leave them. -/
structure Handles (d : Dialect) (directive : List Char → Prop) : Prop where
  declare : ∀ (code : List Char) (line : SourceLine) (rest : List SourceLine) {o : Outline}, o.Deep →
    Declares line.number fun f a => d.declare code line rest (o.resume f a)
  directive : ∀ {code : List Char} (line : SourceLine) (rest : List SourceLine) {o : Outline},
    directive code → o.bodies = [] →
      (d.declare code line rest o).1.annotations = o.annotations ∧ (d.declare code line rest o).2 = 0

variable {d : Dialect} {directive : List Char → Prop} {o : Outline}

/-- **One line read**: its own annotations join those that wait, and then it acts on all of them. -/
theorem Handles.declares_readLine (hd : d.Handles directive) (line : SourceLine) (rest : List SourceLine)
    (ho : o.Deep) :
    ∃ own act, Declares line.number act ∧
      ∀ f a, d.readLine line rest (o.resume f a) = act f (a ++ own) := by
  have hdeep := ho.leaveTo line.depth
  have hleave (f : Declarations) (a : List String) :
      (o.resume f a).leaveTo line.depth = (o.leaveTo line.depth).resume f a := rfl
  -- The branches are those of `readLine`; each of them is taken whatever waits.
  by_cases hblank : line.isBlank = true
  · refine ⟨[], _, (Acts.resume hdeep).declares 0, fun f a => ?_⟩
    rw [readLine, hleave, List.append_nil]
    exact if_pos hblank
  -- A line at the depth of members declares something, any other one is part of a body.
  by_cases hdepth : line.depth = (o.leaveTo line.depth).memberDepth
  · by_cases hcode : line.declaring = []
    · refine ⟨line.annotations, _, (Acts.resume hdeep).declares 0, fun f a => ?_⟩
      rw [readLine, hleave]
      exact (if_neg hblank).trans ((if_neg (not_not.2 hdepth)).trans (if_pos hcode))
    · refine ⟨line.annotations, _, hd.declare line.declaring line rest hdeep, fun f a => ?_⟩
      rw [readLine, hleave]
      exact (if_neg hblank).trans ((if_neg (not_not.2 hdepth)).trans (if_neg hcode))
  · refine ⟨[], _, ((Acts.resume hdeep).addCalls (d.bodyCalls line)).declares 0, fun f a => ?_⟩
    rw [readLine, hleave, List.append_nil]
    exact (if_neg hblank).trans (if_pos hdepth)

/-- **Once nothing that differs is waiting**, what is read is added to whatever was there. -/
theorem Handles.readLines_settled (hd : d.Handles directive) (skip : Nat) (lines : List SourceLine)
    (ho : o.Deep) (a : List String) :
    ∃ r later, ∀ f,
      d.readLines skip lines (o.resume f a) = Outline.resume r (f.append later) r.annotations := by
  -- By induction on the lines, for all annotations: each line may leave others behind.
  induction lines generalizing skip o a with
  | nil =>
    refine ⟨o.resume {} a, {}, fun f => ?_⟩
    rw [readLines, Declarations.append_empty]
    rfl
  | cons line rest ih =>
    cases skip with
    | succ skip => exact ih skip ho a
    | zero =>
      obtain ⟨own, act, ⟨clears, taken, out, ⟨next, added, he⟩, hact⟩, hread⟩ :=
        hd.declares_readLine line rest ho
      obtain ⟨r, later, hr⟩ := ih taken he.deep (if clears then [] else a ++ own)
      refine ⟨r, (added (a ++ own)).append later, fun f => ?_⟩
      rw [readLines, hread, hact, he.act_eq, ← Declarations.append_assoc]
      exact hr _

/-- **What becomes of the annotations that wait before some lines**: of all that is read from there on, only
what one of the lines declares depends on them. -/
theorem Handles.readLines_waiting (hd : d.Handles directive) (skip : Nat) (lines : List SourceLine)
    (ho : o.Deep) :
    ∃ (t : Attachment lines) (r : Outline), ∀ f w, ∃ left,
      d.readLines skip lines (o.resume f w) = r.resume (f.append (t.facts w)) left := by
  -- By induction on the lines, as long as the annotations wait; when a line clears them, `readLines_settled`
  -- covers the rest.
  induction lines generalizing skip o with
  | nil =>
    refine ⟨.none, o, fun f w => ⟨w, ?_⟩⟩
    rw [readLines, Attachment.facts_none, Declarations.append_empty]
  | cons line rest ih =>
    cases skip with
    | succ skip =>
      -- The line was read with an earlier one.
      obtain ⟨t, r, hr⟩ := ih skip ho
      refine ⟨t.later {} [] line, r, fun f w => ?_⟩
      obtain ⟨left, hleft⟩ := hr f w
      refine ⟨left, hleft.trans ?_⟩
      rw [t.facts_later, List.append_nil]
      rfl
    | zero =>
      obtain ⟨own, act, ⟨clears, taken, out, ⟨next, added, he⟩, hact⟩, hread⟩ :=
        hd.declares_readLine line rest ho
      cases clears with
      | false =>
        -- The line leaves them waiting, with its own annotations behind them.
        obtain ⟨t, r, hr⟩ := ih taken he.deep
        refine ⟨t.later (added []) own line, r, fun f w => ?_⟩
        obtain ⟨left, hleft⟩ := hr (f.append (added [])) (w ++ own)
        refine ⟨left, ?_⟩
        rw [readLines, hread, hact, he.act_eq, he.kept rfl, t.facts_later, ← Declarations.append_assoc]
        exact hleft
      | true =>
        -- The line takes them or drops them, and no later line sees them.
        obtain ⟨r, after, hr⟩ := hd.readLines_settled taken rest he.deep []
        refine ⟨.here he.annotated own after, r, fun f w => ⟨r.annotations, ?_⟩⟩
        rw [readLines, hread, hact, he.act_eq, Attachment.facts_here, ← Declarations.append_assoc]
        exact hr _

/-! ### The lines before a directive -/

/-- What follows some lines is found behind them. -/
theorem drop_add_length {lines block tail : List SourceLine} {i : Nat} (h : lines.drop i = block ++ tail) :
    lines.drop (i + block.length) = tail := by
  rw [← List.drop_drop, h, List.drop_left]

/-- To skip lines is to drop them. -/
theorem readLines_eq_drop (d : Dialect) (skip : Nat) (lines : List SourceLine) (o : Outline) :
    d.readLines skip lines o = d.readLines 0 (lines.drop skip) o := by
  induction lines generalizing skip with
  | nil =>
    rw [List.drop_nil]
    cases skip <;> rfl
  | cons line rest ih =>
    cases skip with
    | zero => rfl
    | succ skip => exact ih skip

/-- The outline of a file is what is read from a state on that the reading reaches. -/
theorem readLines_of_reached {lines : List SourceLine} {s : Nat × Outline} (h : d.Reached lines s) :
    d.readLines 0 lines {} = d.readLines 0 (lines.drop s.1) s.2 := by
  induction h with
  | refl => rfl
  | tail _ hturn ih =>
    cases hturn with
    | @read i line rest o hdrop =>
      have hrest : lines.drop (i + 1) = rest := @drop_add_length lines [line] rest i hdrop
      rw [ih, hdrop, readLines, readLines_eq_drop, ← List.drop_drop, hrest]

/-- All bodies that are open in a reading are deeper than the file. -/
theorem Handles.deep_of_reached (hd : d.Handles directive) {lines : List SourceLine} {s : Nat × Outline}
    (h : d.Reached lines s) : s.2.Deep := by
  -- By induction on the turns of the reader. No line opens a body at depth zero.
  induction h with
  | refl => exact fun b hb => absurd hb List.not_mem_nil
  | tail _ hturn ih =>
    cases hturn with
    | @read i line rest o hdrop =>
      obtain ⟨own, act, ⟨clears, taken, out, ⟨next, added, he⟩, hact⟩, hread⟩ :=
        hd.declares_readLine line rest ih
      have hline : d.readLine line rest o = _ := hread o.facts o.annotations
      rw [hline, hact, he.act_eq]
      exact he.deep

/-- A line leaves the bodies that end before it, whether they have been left already or not. -/
theorem readLine_leaveTo (d : Dialect) (line : SourceLine) (rest : List SourceLine) (o : Outline) :
    d.readLine line rest (o.leaveTo line.depth) = d.readLine line rest o := by
  rw [readLine, readLine, Outline.leaveTo_leaveTo]

/-- **A line of annotations** adds them to those that wait. -/
theorem readLine_annotationLine (d : Dialect) {line : SourceLine} (h : line.AnnotationsOnly)
    (rest : List SourceLine) (ho : o.Deep) :
    d.readLine line rest o = ((o.leaveTo 0).resume o.facts (o.annotations ++ line.annotations), 0) := by
  rw [readLine, h.depth]
  by_cases hblank : line.isBlank = true
  · rw [SourceLine.annotations_of_isBlank hblank, List.append_nil]
    exact if_pos hblank
  · have hdepth : ¬0 ≠ (o.leaveTo 0).memberDepth :=
      not_not.2 (Outline.memberDepth_of_bodies ho.bodies_leaveTo_zero).symm
    exact (if_neg hblank).trans ((if_neg hdepth).trans (if_pos h.declaring))

/-- **Lines of annotations** add all of theirs, one turn for each line. -/
theorem reached_annotationLines {lines block tail : List SourceLine} {i : Nat}
    (hblock : ∀ l ∈ block, l.AnnotationsOnly) (hdrop : lines.drop i = block ++ tail) (ho : o.Deep)
    (h : d.Reached lines (i, o)) :
    ∃ o', d.Reached lines (i + block.length, o') ∧
      o'.leaveTo 0 = (o.leaveTo 0).resume o.facts (o.annotations ++ block.flatMap SourceLine.annotations) := by
  -- Without a line of annotations no turn is made, so no body has been left yet.
  -- By induction on the lines of annotations, each of which is one turn.
  induction block generalizing i o with
  | nil =>
    refine ⟨o, h, ?_⟩
    rw [List.flatMap_nil, List.append_nil]
    rfl
  | cons l block ih =>
    have hturn : d.Turn lines (i, o) _ := .read o hdrop
    rw [readLine_annotationLine d (hblock l List.mem_cons_self) _ ho] at hturn
    have hrest : lines.drop (i + 1) = block ++ tail := @drop_add_length lines [l] (block ++ tail) i hdrop
    have hdeep : ((o.leaveTo 0).resume o.facts (o.annotations ++ l.annotations)).Deep := ho.leaveTo 0
    have hothers : ∀ m ∈ block, m.AnnotationsOnly := fun m hm => hblock m (List.mem_cons_of_mem l hm)
    obtain ⟨o', hreached, ho'⟩ := ih hothers hrest hdeep (h.tail hturn)
    refine ⟨o', ?_, ho'.trans ?_⟩
    · rw [List.length_cons, Nat.add_comm block.length 1, ← Nat.add_assoc]
      exact hreached
    · have hleave := congrArg (Outline.resume · o.facts
        (o.annotations ++ l.annotations ++ block.flatMap SourceLine.annotations)) (o.leaveTo_leaveTo 0)
      rw [List.flatMap_cons, ← List.append_assoc]
      exact hleave

theorem readLines_leaveTo (d : Dialect) (line : SourceLine) (rest : List SourceLine) (o : Outline) :
    d.readLines 0 (line :: rest) (o.leaveTo line.depth) = d.readLines 0 (line :: rest) o := by
  rw [readLines, readLines, readLine_leaveTo]

/-- What is read of a file from lines of annotations on, before a line at the top of the file. -/
theorem readLines_annotationLines {lines block post : List SourceLine} {line : SourceLine} {i : Nat}
    (hblock : ∀ l ∈ block, l.AnnotationsOnly) (hline : line.depth = 0)
    (hdrop : lines.drop i = block ++ line :: post) (ho : o.Deep) (h : d.Reached lines (i, o)) :
    d.readLines 0 lines {} = d.readLines 0 (line :: post)
      ((o.leaveTo 0).resume o.facts (o.annotations ++ block.flatMap SourceLine.annotations)) := by
  obtain ⟨o', hreached, ho'⟩ := reached_annotationLines hblock hdrop ho h
  have hrest : lines.drop (i + block.length) = line :: post := drop_add_length hdrop
  rw [readLines_of_reached hreached, hrest, ← readLines_leaveTo, hline, ho']

/-- **A directive** keeps the annotations that wait, and its own join them. -/
theorem Handles.readLine_directive (hd : d.Handles directive) {line : SourceLine} (hline : line.depth = 0)
    (hdirective : directive line.declaring) (rest : List SourceLine) (hbodies : o.bodies = []) :
    (d.readLine line rest o).1.annotations = o.annotations ++ line.annotations ∧
      (d.readLine line rest o).2 = 0 := by
  have hleave : (o.leaveTo line.depth).bodies = [] := by
    rw [Outline.leaveTo, hbodies]
    rfl
  -- With no body open, a line at depth zero is one that declares.
  have hdepth : ¬line.depth ≠ (o.leaveTo line.depth).memberDepth := by
    rw [hline, not_not]
    exact (Outline.memberDepth_of_bodies (hline ▸ hleave)).symm
  rw [readLine]
  dsimp only
  rw [if_neg hdepth]
  split
  next hblank =>
    rw [SourceLine.annotations_of_isBlank hblank, List.append_nil]
    exact ⟨rfl, rfl⟩
  next =>
    split
    · exact ⟨rfl, rfl⟩
    · exact hd.directive line rest hdirective
        (o := { o.leaveTo line.depth with annotations := o.annotations ++ line.annotations }) hleave

/-- **Behind a directive** the annotations of the lines before it wait. -/
theorem Handles.reached_directive (hd : d.Handles directive) {lines block post : List SourceLine}
    {line : SourceLine} {i : Nat} (hblock : ∀ l ∈ block, l.AnnotationsOnly) (hline : line.depth = 0)
    (hdirective : directive line.declaring) (hdrop : lines.drop i = block ++ line :: post) (ho : o.Deep)
    (h : d.Reached lines (i, o)) :
    ∃ next, d.Reached lines (i + block.length + 1, next) ∧
      next.annotations = o.annotations ++ block.flatMap SourceLine.annotations ++ line.annotations := by
  obtain ⟨o', hreached, ho'⟩ := reached_annotationLines hblock hdrop ho h
  have hrest : lines.drop (i + block.length) = line :: post := drop_add_length hdrop
  have hread : d.readLine line post o' = d.readLine line post (o'.leaveTo 0) := by
    rw [← readLine_leaveTo, hline]
  -- All bodies have been left before the directive.
  have hbodies : (o'.leaveTo 0).bodies = [] := by
    rw [ho']
    exact ho.bodies_leaveTo_zero
  obtain ⟨hannotations, htaken⟩ := hd.readLine_directive hline hdirective post hbodies
  have hturn : d.Turn lines (i + block.length, o') _ := .read o' hrest
  rw [hread, htaken] at hturn
  refine ⟨_, hreached.tail hturn, ?_⟩
  rw [hannotations, ho']
  rfl

end Dialect

/-- The dialect of Kotlin handles annotations, and its directives leave them. -/
theorem Kotlin.handles_dialect : Kotlin.dialect.Handles Kotlin.IsDirective where
  declare code _ _ _ ho := Kotlin.declares_declare code ho
  directive _ _ _ h _ := Kotlin.declare_of_isDirective h _

theorem Dart.handles_dialect : Dart.dialect.Handles Dart.IsDirective where
  declare code _ _ _ ho := Dart.declares_declare code ho
  directive _ _ _ h hbodies := Dart.declare_of_isDirective h hbodies

/-! ### What becomes of the annotations before a directive -/

/-- **The languages that are read line by line.** -/
inductive LineLanguage where
  | kotlin
  | dart

namespace LineLanguage

/-- How the lines of the language are read. -/
def dialect : LineLanguage → Dialect
  | .kotlin => Kotlin.dialect
  | .dart => Dart.dialect

/-- Whether some code is a directive. -/
def IsDirective : LineLanguage → List Char → Prop
  | .kotlin => Kotlin.IsDirective
  | .dart => Dart.IsDirective

theorem handles_dialect (language : LineLanguage) : language.dialect.Handles language.IsDirective := by
  cases language
  · exact Kotlin.handles_dialect
  · exact Dart.handles_dialect

end LineLanguage

/-- **What is read of a file from a directive on**: of all that, only what one line behind the directive
declares depends on the annotations that wait before it. -/
theorem Dialect.Handles.readLines_directive {d : Dialect} {directive : List Char → Prop}
    (hd : d.Handles directive) {line : SourceLine} (hline : line.depth = 0)
    (hdirective : directive line.declaring) (post : List SourceLine) {o : Outline} (hbodies : o.bodies = []) :
    ∃ (t : Attachment post) (r : Outline), ∀ f w, ∃ left,
      d.readLines 0 (line :: post) (o.resume f w) = r.resume (f.append (t.facts w)) left := by
  have ho : o.Deep := fun b hb => by
    rw [hbodies] at hb
    cases hb
  obtain ⟨own, act, ⟨clears, taken, out, ⟨next, added, he⟩, hact⟩, hread⟩ := hd.declares_readLine line post ho
  -- The directive does not clear what waits: it would do so whatever it is.
  have hclears : clears = false := by
    have hkept := (hd.readLine_directive hline hdirective post (o := o.resume {} [""]) hbodies).1
    rw [hread, hact, he.act_eq] at hkept
    cases clears with
    | false => rfl
    | true => exact absurd hkept (List.cons_ne_nil _ _).symm
  subst hclears
  obtain ⟨t, r, hr⟩ := hd.readLines_waiting taken post he.deep
  refine ⟨{ t with before := (added []).append t.before, between := own ++ t.between }, r, fun f w => ?_⟩
  obtain ⟨left, hleft⟩ := hr (f.append (added [])) (w ++ own)
  refine ⟨left, ?_⟩
  rw [readLines, hread, hact, he.act_eq, he.kept rfl]
  refine hleft.trans (congrArg (Outline.resume r · left) ?_)
  simp only [Attachment.facts, Declarations.append_assoc, List.append_assoc]

/-- **Annotations before a directive are those of what is declared behind it.** Two files differ only in
the lines of annotations before a directive, for example because these are blank in one of them. Behind the
directive the annotations still wait, with all that waited before. What is read of the two files differs at
most in the annotations of what one line behind the directive declares, and there it differs just as these
lines do. -/
theorem attached_behind_directive (language : LineLanguage) {source source' : List Char}
    {pre block block' post : List SourceLine} {line : SourceLine} {o : Outline}
    (hlines : SourceLine.ofSource source = pre ++ (block ++ line :: post))
    (hlines' : SourceLine.ofSource source' = pre ++ (block' ++ line :: post))
    (hreached : language.dialect.Reached (SourceLine.ofSource source) (pre.length, o))
    (hreached' : language.dialect.Reached (SourceLine.ofSource source') (pre.length, o))
    (hblock : ∀ l ∈ block, l.AnnotationsOnly) (hblock' : ∀ l ∈ block', l.AnnotationsOnly)
    (hdepth : line.depth = 0) (hdirective : language.IsDirective line.declaring) :
    (∃ next, language.dialect.Reached (SourceLine.ofSource source) (pre.length + block.length + 1, next) ∧
        next.annotations
          = o.annotations ++ block.flatMap SourceLine.annotations ++ line.annotations) ∧
      (language.dialect.outline source).scope = (language.dialect.outline source').scope ∧
      (language.dialect.outline source).scopeLine = (language.dialect.outline source').scopeLine ∧
      ∃ t : Attachment post,
        (language.dialect.outline source).facts
          = o.facts.append (t.facts (o.annotations ++ block.flatMap SourceLine.annotations)) ∧
        (language.dialect.outline source').facts
          = o.facts.append (t.facts (o.annotations ++ block'.flatMap SourceLine.annotations)) := by
  have hd := language.handles_dialect
  have ho : o.Deep := hd.deep_of_reached hreached
  -- What is read behind the directive depends on what waits there in one place only.
  obtain ⟨t, r, hr⟩ := hd.readLines_directive hdepth hdirective post ho.bodies_leaveTo_zero
  have hdrop : (SourceLine.ofSource source).drop pre.length = block ++ line :: post := by
    rw [hlines, List.drop_left]
  have hdrop' : (SourceLine.ofSource source').drop pre.length = block' ++ line :: post := by
    rw [hlines', List.drop_left]
  -- Both files are read alike from the directive on, with other annotations waiting.
  obtain ⟨left, hleft⟩ := hr o.facts (o.annotations ++ block.flatMap SourceLine.annotations)
  obtain ⟨left', hleft'⟩ := hr o.facts (o.annotations ++ block'.flatMap SourceLine.annotations)
  have houtline := (Dialect.readLines_annotationLines hblock hdepth hdrop ho hreached).trans hleft
  have houtline' := (Dialect.readLines_annotationLines hblock' hdepth hdrop' ho hreached').trans hleft'
  refine ⟨hd.reached_directive hblock hdepth hdirective hdrop ho hreached, ?_⟩
  unfold Dialect.outline
  rw [houtline, houtline']
  exact ⟨rfl, rfl, t, rfl, rfl⟩

/-- A line at the top of a file without comments and strings. -/
def SourceLine.plain (number : Nat) (text : String) : SourceLine where
  number := number
  code := text.toList
  raw := text.toList
  depth := 0
  depthAfter := 0

/-- A package directive with an annotation before it and a class behind it, and the same file with the line
of the annotation blank. -/
theorem attached_behind_packageDirective :
    (∃ next, Kotlin.dialect.Reached (SourceLine.ofSource "@A\npackage p\nclass C\n".toList) (2, next) ∧
        next.annotations = ["A"]) ∧
      (Kotlin.dialect.outline "@A\npackage p\nclass C\n".toList).scope
        = (Kotlin.dialect.outline "\npackage p\nclass C\n".toList).scope ∧
      (Kotlin.dialect.outline "@A\npackage p\nclass C\n".toList).scopeLine
        = (Kotlin.dialect.outline "\npackage p\nclass C\n".toList).scopeLine ∧
      ∃ t : Attachment [SourceLine.plain 3 "class C"],
        (Kotlin.dialect.outline "@A\npackage p\nclass C\n".toList).facts = t.facts ["A"] ∧
        (Kotlin.dialect.outline "\npackage p\nclass C\n".toList).facts = t.facts [] :=
  @attached_behind_directive .kotlin _ _ [] [.plain 1 "@A"] [.plain 1 ""] [.plain 3 "class C"]
    (.plain 2 "package p") {} (by decide +kernel) (by decide +kernel) .refl .refl
    (fun l hl => by
      rw [List.mem_singleton.1 hl]
      exact ⟨rfl, by decide +kernel⟩)
    (fun l hl => by
      rw [List.mem_singleton.1 hl]
      exact ⟨rfl, by decide +kernel⟩)
    rfl (.inl (by decide +kernel))

/-- **An annotation of the file becomes one of a class**: in Kotlin one that stands before the package
directive, in Dart one that stands before the library directive. Without its line the class has none. -/
theorem fileAnnotation_reaches_class :
    (Kotlin.dialect.outline "@file:JvmName(\"Util\")\npackage p\n\nclass A\n".toList).facts.types.map
        (fun t => (t.name, t.annotations)) = [("A", ["JvmName"])] ∧
      (Kotlin.dialect.outline "\npackage p\n\nclass A\n".toList).facts.types.map
        (fun t => (t.name, t.annotations)) = [("A", [])] ∧
      (Dart.dialect.outline "@JS()\nlibrary foo;\n\nclass A \x7b\x7d\n".toList).facts.types.map
        (fun t => (t.name, t.annotations)) = [("A", ["JS"])] ∧
      (Dart.dialect.outline "\nlibrary foo;\n\nclass A \x7b\x7d\n".toList).facts.types.map
        (fun t => (t.name, t.annotations)) = [("A", [])] := by
  decide +kernel

end CodeAtlas
