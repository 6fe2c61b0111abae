import CodeAtlas.Proofs.HiddenText
import CodeAtlas.Source.Kotlin

/-!
# Kotlin is read off the code

Of a line, the reader of Kotlin sees its number, its code and its depths. The line as it stands is used in
one place only, as the text of an import. So the record of a text is a function of its bare lines, but for
the texts of its imports (`Kotlin.record_withoutStatements`), and a change that the bare lines do not show
(`HiddenChange`) leaves the record as it is: `unchanged_of_hiddenChange`. What a comment or a literal holds
cannot declare anything, call anything or move anything.

The line feed at the end of a file is no exception to make up: a comment that is never closed reaches to
the end of the file, and if its last line feed moves, the file has a line more or a line less. This is
why `HiddenChange.openComment` asks for the last character, and `lastLineFeed_counts` shows that it has to.
-/

namespace CodeAtlas

/-! ### Bare lines -/

namespace SourceLine

theorem map_bare_eq_nil_or (p : Prop) (lines : List SourceLine) :
    (p ∨ lines.map bare = []) ↔ (p ∨ lines = []) :=
  or_congr Iff.rfl List.map_eq_nil_iff

/-- What a header reads of its lines is their code. -/
theorem headerLines_map_bare (n : Nat) (open_ : Int) (lines : List SourceLine) :
    headerLines n open_ (lines.map bare) = headerLines n open_ lines := by
  induction lines generalizing n open_ with
  | nil => rfl
  | cons l rest ih =>
    cases n with
    | zero => rfl
    | succ n =>
      rw [List.map_cons, headerLines, headerLines, ih]
      exact if_congr (map_bare_eq_nil_or _ rest) rfl rfl

@[simp]
theorem header_map_bare (lines : List SourceLine) : header (lines.map bare) = header lines := by
  rw [header, headerLines_map_bare]
  rfl

/-- Where a block closes is told by depths. -/
theorem closingOffset_map_bare (base : Nat) (lines : List SourceLine) :
    closingOffset base (lines.map bare) = closingOffset base lines := by
  induction lines with
  | nil => rfl
  | cons l rest ih =>
    rw [List.map_cons, closingOffset, closingOffset, ih]
    exact if_congr (map_bare_eq_nil_or _ rest) rfl rfl

@[simp]
theorem blockEnd_map_bare (lines : List SourceLine) (headerEnd : Nat) :
    blockEnd (lines.map bare) headerEnd = blockEnd lines headerEnd := by
  simp only [blockEnd, List.head?_map, ← List.map_drop, closingOffset_map_bare, Option.map_map]
  rfl

/-- Bare lines keep their numbers. -/
@[simp]
theorem numberAt_map_bare (lines : List SourceLine) (offset : Nat) :
    numberAt (lines.map bare) offset = numberAt lines offset := by
  unfold numberAt
  rw [List.getElem?_map, List.getLast?_map, Option.map_map]
  cases lines[offset]? <;> rfl

end SourceLine

/-- A body is entered with the same extent over bare lines. -/
@[simp]
theorem Outline.enter_map_bare (o : Outline) (lines : List SourceLine) (headerEnd : Nat)
    (body : Nat → OpenBody) :
    o.enter (lines.map SourceLine.bare) headerEnd body = o.enter lines headerEnd body := by
  unfold Outline.enter
  rw [List.head?_map, List.getElem?_map]
  cases lines.head? with
  | none => rfl
  | some first => cases lines[headerEnd]? <;> rfl

/-! ### Records without the texts of imports -/

/-- An import without its text. -/
def ImportDecl.withoutStatement (d : ImportDecl) : ImportDecl :=
  { d with statement := "" }

/-- Declarations without the texts of imports. -/
def Declarations.withoutStatements (d : Declarations) : Declarations :=
  { d with imports := d.imports.map ImportDecl.withoutStatement }

/-- A record without the texts of imports. -/
def SourceRecord.withoutStatements : SourceRecord → SourceRecord
  | .java package line facts => .java package line facts.withoutStatements
  | .kotlin package line facts => .kotlin package line facts.withoutStatements
  | .dart library line facts => .dart library line facts.withoutStatements
  | .python module doc facts => .python module doc facts.withoutStatements

/-- An outline without the texts of imports. -/
def Outline.withoutStatements (o : Outline) : Outline :=
  { o with facts := o.facts.withoutStatements }

namespace Outline

/-- An import may be stripped of its text before it is added or after. -/
theorem addImport_withoutStatements (o : Outline) (d : ImportDecl) :
    (o.addImport d).withoutStatements = o.withoutStatements.addImport d.withoutStatement := by
  unfold withoutStatements addImport Declarations.withoutStatements
  simp

/-- To enter a body does not look at imports. -/
theorem enter_withoutStatements (o : Outline) (lines : List SourceLine) (headerEnd : Nat)
    (body : Nat → OpenBody) :
    (o.enter lines headerEnd body).withoutStatements = o.withoutStatements.enter lines headerEnd body := by
  unfold Outline.enter
  split
  · split <;> rfl
  · rfl

end Outline

/-! ### Kotlin -/

namespace Kotlin

open SourceLine (bare)

/-- What a bare line declares in an outline without texts of imports is what the line declares, without
them. -/
def Unseen (r r' : Outline × Nat) : Prop :=
  r' = (r.1.withoutStatements, r.2)

/-- Two readings that decide alike. -/
theorem Unseen.ite {p p' : Prop} [Decidable p] [Decidable p'] (hp : p ↔ p') {a a' b b' : Outline × Nat}
    (ha : Unseen a a') (hb : Unseen b b') : Unseen (if p then a else b) (if p' then a' else b') := by
  by_cases h : p
  · rw [if_pos h, if_pos (hp.mp h)]
    exact ha
  · rw [if_neg h, if_neg (fun h' => h (hp.mpr h'))]
    exact hb

theorem lineCalls_bare (line : SourceLine) : lineCalls line.bare = lineCalls line := rfl

theorem lineDecisions_bare (line : SourceLine) : lineDecisions line.bare = lineDecisions line := rfl

variable (line : SourceLine) (rest : List SourceLine) (o : Outline)

/-- What a type declares is read off the code. -/
theorem declareType_bare :
    Unseen (declareType line rest o) (declareType line.bare (rest.map bare) o.withoutStatements) := by
  -- All that is asked of the lines has been answered for bare lines above.
  have hlines : line.bare :: rest.map bare = (line :: rest).map bare := rfl
  unfold Unseen declareType
  rw [hlines]
  simp only [SourceLine.header_map_bare, SourceLine.blockEnd_map_bare, SourceLine.numberAt_map_bare,
    Outline.enter_map_bare]
  split
  · rfl
  · split
    · rfl
    · rw [Outline.enter_withoutStatements]
      rfl

theorem declareFunction_bare :
    Unseen (declareFunction line rest o) (declareFunction line.bare (rest.map bare) o.withoutStatements) := by
  have hlines : line.bare :: rest.map bare = (line :: rest).map bare := rfl
  unfold Unseen declareFunction
  rw [hlines]
  simp only [SourceLine.header_map_bare, SourceLine.blockEnd_map_bare, SourceLine.numberAt_map_bare,
    ← List.map_take, ← List.map_drop, List.flatMap_map, List.foldl_map, lineCalls_bare, lineDecisions_bare]
  split <;> rfl

/-- An import differs in its text only. -/
theorem declareImport_bare (c : Cursor) :
    (declareImport c line o).withoutStatements = declareImport c line.bare o.withoutStatements := by
  rw [declareImport, Outline.addImport_withoutStatements]
  rfl

/-- **What a line declares** does not depend on the text as it stands. -/
theorem declare_bare (code : List Char) :
    Unseen (declare code line rest o) (declare code line.bare (rest.map bare) o.withoutStatements) := by
  -- The branches are those of the reader; each is chosen by the code alone.
  unfold declare
  split
  next => rfl
  next =>
  split
  next c _ => rw [← declareImport_bare]; rfl
  next =>
  split
  next => rfl
  next =>
  split
  next => exact declareType_bare line rest o
  next =>
  split
  next => exact declareFunction_bare line rest o
  next =>
  split
  next => rfl
  next => rfl

/-- **One line**: with bare lines it leaves the outline that it leaves anyway, without the texts of imports. -/
theorem readLine_bare :
    Unseen (dialect.readLine line rest o) (dialect.readLine line.bare (rest.map bare) o.withoutStatements) := by
  rcases hstrip : Fragment.stripAnnotations line.code with ⟨annotations, code⟩
  have hstrip' : Fragment.stripAnnotations line.bare.code = (annotations, code) := hstrip
  unfold Dialect.readLine
  rw [hstrip, hstrip']
  refine .ite Iff.rfl rfl (.ite Iff.rfl rfl (.ite Iff.rfl rfl ?_))
  dsimp only [dialect]
  exact declare_bare line rest { o.leaveTo line.depth with
    annotations := (o.leaveTo line.depth).annotations ++ annotations.map String.ofList } (Text.trim code)

/-- **All lines**: the outline without the texts of imports is that of the bare lines. -/
theorem readLines_bare (skip : Nat) (lines : List SourceLine) (o : Outline) :
    dialect.readLines skip (lines.map bare) o.withoutStatements
      = (dialect.readLines skip lines o).withoutStatements := by
  -- By induction on the lines; lines that a declaration has used up are skipped on both sides.
  induction lines generalizing skip o with
  | nil => cases skip <;> rfl
  | cons line rest ih =>
    cases skip with
    | succ skip =>
      rw [List.map_cons, Dialect.readLines, Dialect.readLines, ih]
    | zero =>
      have hline : dialect.readLine line.bare (rest.map bare) o.withoutStatements = _ :=
        readLine_bare line rest o
      rw [List.map_cons, Dialect.readLines, Dialect.readLines, hline, ih]

/-- **The record of a text is a function of its bare lines**, but for the texts of imports. -/
theorem record_withoutStatements (source : List Char) :
    (record source).withoutStatements =
      let o := dialect.readLines 0 ((SourceLine.ofSource source).map bare) {}
      .kotlin o.scope o.scopeLine o.facts := by
  have hlines : dialect.readLines 0 ((SourceLine.ofSource source).map bare) {}
      = (dialect.outline source).withoutStatements := readLines_bare 0 (SourceLine.ofSource source) {}
  rw [hlines]
  rfl

end Kotlin

/-- **Comments and literals do not influence the reading of Kotlin.** A hidden change leaves the number,
the code and the depths of every line as they are, and the record as well, but for the texts of
imports. -/
theorem unchanged_of_hiddenChange {source source' : List Char} (h : HiddenChange source source') :
    (SourceLine.ofSource source).map SourceLine.bare = (SourceLine.ofSource source').map SourceLine.bare ∧
      (Kotlin.record source).withoutStatements = (Kotlin.record source').withoutStatements := by
  have hlines := map_bare_ofSource_of_hiddenChange h
  refine ⟨hlines, ?_⟩
  rw [Kotlin.record_withoutStatements, Kotlin.record_withoutStatements, hlines]

/-- A class whose header holds a comment with a comment inside it, over two lines. -/
theorem unchanged_of_hiddenChange_nestedComment :
    let source := fun body : List Char =>
      "class A ".toList ++ '/' :: '*' :: (body ++ '*' :: '/' :: "r\"\" \x7b\n fun f() = g()\n\x7d\n".toList)
    let old := " /* class B */ \x7b \"\n\x7d".toList
    let new := "\x7d\x7d\nfun h() = i()".toList
    HiddenChange (source old) (source new) ∧
      (SourceLine.ofSource (source old)).map SourceLine.bare
        = (SourceLine.ofSource (source new)).map SourceLine.bare ∧
      (Kotlin.record (source old)).withoutStatements = (Kotlin.record (source new)).withoutStatements := by
  intro source old new
  have hchange : HiddenChange (source old) (source new) := by
    -- The change lies in a comment that is closed in both texts, with as many line feeds.
    refine .blockComment ?_ ⟨?_, ?_, ?_⟩ ?_ ?_ ?_
    all_goals decide +kernel
  exact ⟨hchange, unchanged_of_hiddenChange hchange⟩

/-- The last line feed of a comment that is never closed does count: with it, a line of the file appears
or disappears, and the class around the comment ends elsewhere. -/
theorem lastLineFeed_counts :
    let pre := "class A \x7b\n".toList
    let old := ['\n']
    let new := ['\n', 'x']
    (Scan.after pre ('/' :: '*' :: old)).InCode ∧
      (Scan.after (pre ++ ['/', '*']) old).StaysIn Mode.IsComment old [] ∧
      new.count '\n' = old.count '\n' ∧ '*' ∉ new ∧ '/' ∉ new ∧
      (SourceLine.ofSource (pre ++ '/' :: '*' :: old)).map SourceLine.bare
        ≠ (SourceLine.ofSource (pre ++ '/' :: '*' :: new)).map SourceLine.bare ∧
      (Kotlin.record (pre ++ '/' :: '*' :: old)).withoutStatements
        ≠ (Kotlin.record (pre ++ '/' :: '*' :: new)).withoutStatements := by
  decide +kernel

end CodeAtlas
