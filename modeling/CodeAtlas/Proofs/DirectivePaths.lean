import CodeAtlas.Proofs.CommentChange
import CodeAtlas.Proofs.DirectiveAnnotations
import CodeAtlas.Proofs.QuotedText

/-!
# Where the paths of directives come from

Of a line, the reader of Dart sees its number, its code and its depths, with one exception: the path of an
import, an export or a part is a literal, and the code of a line has no contents of literals. So the path is
looked for in the line as it stands, and there the comments are, too.

* Which lines are directives, with their words and aliases, is read off the code. It depends on the bodies
  that are open and on the number of lines that each declaration takes, and two texts with the same code
  agree in both until one declaration takes all lines that are left (`Outline.GoesOn`). There is one lemma
  for each kind of declaration, one for a line (`Dart.goesOn_readLine`), and from it the one for the lines of
  a text (`Dart.map_bare_directivesFrom`).
* The path of a directive is the first quoted text of its line as it stands. The imports of a record are what
  the directives declare (`Dart.imports_record`), and no two directives stand on one line, so an entry can be
  found again by its line (`Directive.find?_filterMap_listed?`).

Another body of a comment can therefore reach the paths, and nothing else of a directive:
`Dart.paths_of_commentChange`. It does reach one where a quoted text in a comment stands before the path:
`Dart.path_of_comment`.
-/

namespace CodeAtlas

/-- One line read, by what the line holds behind its annotations. -/
theorem Dialect.readLine_eq (d : Dialect) (line : SourceLine) (rest : List SourceLine) (o : Outline) :
    d.readLine line rest o =
      let o := o.leaveTo line.depth
      if line.isBlank then (o, 0)
      else if line.depth ≠ o.memberDepth then (o.addCalls (d.bodyCalls line), 0)
      else if line.declaring = [] then ({ o with annotations := o.annotations ++ line.annotations }, 0)
      else
        d.declare line.declaring line rest { o with annotations := o.annotations ++ line.annotations } :=
  rfl

/-! ### Readings that go on alike -/

/-- **Two readings of a line go on alike**, with `n` lines behind it: the same bodies are open and as many
lines are taken, or all lines are taken in both. -/
def Outline.GoesOn (n : Nat) (r r' : Outline × Nat) : Prop :=
  r'.1.bodies = r.1.bodies ∧ r'.2 = r.2 ∨ n ≤ r.2 ∧ n ≤ r'.2

/-- Two offsets that agree, or that both lie at a line or behind it. -/
def Near (n a a' : Nat) : Prop :=
  a' = a ∨ n ≤ a ∧ n ≤ a'

/-- What a reader asks of a line before it looks for declarations. -/
theorem SourceLine.asked_of_bare {line line' : SourceLine} (h : line'.bare = line.bare) :
    line'.isBlank = line.isBlank ∧ line'.depth = line.depth ∧ line'.declaring = line.declaring := by
  have hcode : line'.bare.code = line.bare.code := congrArg SourceLine.code h
  have hdepth : line'.bare.depth = line.bare.depth := congrArg SourceLine.depth h
  refine ⟨congrArg Text.isBlankText hcode, hdepth, ?_⟩
  exact congrArg (fun code => Text.trim (Fragment.stripAnnotations code).2) hcode

theorem Outline.leaveTo_of_bodies {o o' : Outline} (h : o'.bodies = o.bodies) (depth : Nat) :
    (o'.leaveTo depth).bodies = (o.leaveTo depth).bodies ∧
      (o'.leaveTo depth).memberDepth = (o.leaveTo depth).memberDepth := by
  unfold memberDepth leaveTo
  rw [h]
  exact ⟨rfl, rfl⟩

/-- Readings that leave the same bodies and take nearly the same lines go on alike. -/
theorem Outline.GoesOn.of_near {n : Nat} {r r' : Outline × Nat} (hbodies : r'.1.bodies = r.1.bodies)
    (htaken : Near n r.2 r'.2) : GoesOn n r r' :=
  htaken.imp_left fun h => ⟨hbodies, h⟩

namespace SourceLine.SameCode

variable {line line' : SourceLine} {rest rest' : List SourceLine}

/-- Over lines with the same code headers end at the same line, or both at the last one. -/
theorem near_header (h : SameCode (line :: rest) (line' :: rest')) :
    Near rest.length (header (line :: rest)).2 (header (line' :: rest')).2 := by
  rcases h.header_cases (List.cons_ne_nil _ _) with heq | ⟨hlength, heq⟩
  · exact .inl (congrArg Prod.snd heq)
  · rw [List.length_cons] at hlength heq
    rw [heq]
    exact .inr ⟨by omega, by omega⟩

/-- So do blocks. -/
theorem near_blockEnd (h : SameCode (line :: rest) (line' :: rest')) :
    Near rest.length (blockEnd (line :: rest) (header (line :: rest)).2)
      (blockEnd (line' :: rest') (header (line' :: rest')).2) := by
  have hend := header_lt_length (List.cons_ne_nil line rest)
  rcases h.near_header with heq | ⟨hle, hle'⟩
  · rw [heq]
    refine (h.blockEnd_cases hend).imp_right fun ⟨hlast, hlast'⟩ => ?_
    rw [List.length_cons] at hlast hlast'
    exact ⟨by omega, by omega⟩
  · -- The header reaches the end, and the block does not end before it.
    exact .inr ⟨Nat.le_trans hle (header_le_blockEnd _ _), Nat.le_trans hle' (header_le_blockEnd _ _)⟩

/-- A body is opened by the same header. -/
theorem bodies_enter {lines lines' : List SourceLine} (h : SameCode lines lines') {o o' : Outline}
    (ho : o'.bodies = o.bodies) {headerEnd : Nat} (hend : headerEnd < lines.length) (body : Nat → OpenBody) :
    (o'.enter lines' headerEnd body).bodies = (o.enter lines headerEnd body).bodies := by
  obtain ⟨last, -, hlines⟩ := h
  -- A body is entered by the bare lines, and these differ behind the last line at most.
  rw [← Outline.enter_map_bare o' lines', hlines, ← Outline.enter_map_bare o lines]
  rw [← List.length_map (f := bare)] at hend
  unfold Outline.enter
  rw [List.getElem?_append_left hend]
  cases hmap : lines.map bare with
  | nil =>
    rw [hmap] at hend
    cases hend
  | cons first more =>
    rw [List.cons_append, List.head?_cons, List.head?_cons]
    cases (first :: more)[headerEnd]? with
    | none => exact ho
    | some l =>
      dsimp only
      split
      · exact congrArg (body (first.depth + 1) :: ·) ho
      · exact ho

end SourceLine.SameCode

/-- To enter a body adds no import. -/
theorem Outline.imports_enter (o : Outline) (lines : List SourceLine) (headerEnd : Nat)
    (body : Nat → OpenBody) : (o.enter lines headerEnd body).facts.imports = o.facts.imports := by
  unfold Outline.enter
  split
  · split <;> rfl
  · rfl

namespace Dart

open Outline (GoesOn)
open SourceLine (SameCode)

section Readings

variable {line line' : SourceLine} {rest rest' : List SourceLine} {o o' : Outline}

/-- Type by type the same body is opened behind the header. -/
theorem goesOn_declareType (head : TypeHead) (h : SameCode (line :: rest) (line' :: rest'))
    (ho : o'.bodies = o.bodies) :
    GoesOn rest.length (declareType head line rest o) (declareType head line' rest' o') := by
  have htaken (line : SourceLine) (rest : List SourceLine) (o : Outline) :
      (declareType head line rest o).2 = (SourceLine.header (line :: rest)).2 := rfl
  have howner : o'.owner = o.owner := congrArg (fun bodies => bodies.head?.map OpenBody.name) ho
  -- The headers are the same, or both take all lines.
  rcases h.header_cases (List.cons_ne_nil line rest) with heq | ⟨hlength, heq⟩
  · refine .inl ⟨?_, by rw [htaken, htaken, heq]⟩
    unfold declareType
    -- The body has the nested name of the type, which is that of the bodies around it.
    simp only [heq, howner, TypeDecl.nestedName]
    refine h.bodies_enter ?_ (SourceLine.header_lt_length (List.cons_ne_nil line rest)) _
    exact ho
  · refine .inr ?_
    rw [List.length_cons] at hlength heq
    rw [htaken, htaken, heq]
    exact ⟨Nat.le_of_succ_le_succ (Nat.le_of_eq hlength.symm), Nat.le_succ _⟩

/-- An alias has no body. -/
theorem bodies_declareAlias (code : List Char) (line : SourceLine) (o : Outline) :
    (declareAlias code line o).bodies = o.bodies := by
  unfold declareAlias
  extract_lets body name
  split <;> rfl

/-- A directive has no body. -/
theorem bodies_declareDirective (word : String) (code : List Char) (line : SourceLine) (o : Outline) :
    (declareDirective word code line o).bodies = o.bodies := by
  unfold declareDirective
  split <;> rfl

/-- Fields have no body. -/
theorem bodies_declareFields (header : List Char) (number headerLine : Nat) (o : Outline) :
    (declareFields header number headerLine o).bodies = o.bodies := by
  unfold declareFields
  split
  · rfl
  · dsimp only
    split <;> rfl

/-- A callable takes the lines of its block and opens no body. -/
theorem goesOn_declareCallable (header : List Char) {n : Nat} {lines lines' : List SourceLine}
    {headerEnd headerEnd' : Nat} (ho : o'.bodies = o.bodies)
    (hblock : Near n (SourceLine.blockEnd lines headerEnd) (SourceLine.blockEnd lines' headerEnd')) :
    GoesOn n (declareCallable header lines headerEnd o) (declareCallable header lines' headerEnd' o') := by
  unfold declareCallable
  split
  · exact .inl ⟨ho, rfl⟩
  · split
    · exact .inl ⟨ho, rfl⟩
    · exact .of_near ho hblock

/-- A member goes on alike, whichever it is. -/
theorem goesOn_declareMember (h : SameCode (line :: rest) (line' :: rest')) (ho : o'.bodies = o.bodies) :
    GoesOn rest.length (declareMember line rest o) (declareMember line' rest' o') := by
  have hdeclaring := h.declaring_header (List.cons_ne_nil line rest)
  have hend := h.near_header
  have hblock := h.near_blockEnd
  rcases hheader : SourceLine.header (line :: rest) with ⟨header, headerEnd⟩
  rcases hheader' : SourceLine.header (line' :: rest') with ⟨header', headerEnd'⟩
  rw [hheader, hheader'] at hdeclaring hend hblock
  -- What the member is depends on the text of the header, which is the same in both readings.
  simp only [declareMember, hheader, hheader', hdeclaring]
  split
  · exact .inl ⟨ho, rfl⟩
  · split
    · exact goesOn_declareCallable _ ho hblock
    · split
      · exact .of_near ho hblock
      · split
        · refine .of_near ?_ hend
          rw [bodies_declareFields, bodies_declareFields, ho]
        · exact .inl ⟨ho, rfl⟩

/-- So does any other declaration. -/
theorem goesOn_declareOther (code : List Char) (h : SameCode (line :: rest) (line' :: rest'))
    (ho : o'.bodies = o.bodies) :
    GoesOn rest.length (declareOther code line rest o) (declareOther code line' rest' o') := by
  -- The branches of the reader are chosen by the code, so both readings take the same one.
  unfold declareOther
  split
  · exact .inl ⟨ho, rfl⟩
  · split
    · split
      · exact .inl ⟨ho, rfl⟩
      · refine .inl ⟨?_, rfl⟩
        rw [bodies_declareDirective, bodies_declareDirective, ho]
    · split
      · refine .inl ⟨?_, rfl⟩
        rw [bodies_declareAlias, bodies_declareAlias, ho]
      · split
        · exact goesOn_declareType _ h ho
        · exact goesOn_declareMember h ho

/-- So does a declaration of any kind. -/
theorem goesOn_declare (code : List Char) (h : SameCode (line :: rest) (line' :: rest'))
    (ho : o'.bodies = o.bodies) :
    GoesOn rest.length (declare code line rest o) (declare code line' rest' o') := by
  unfold declare
  rw [ho]
  split
  · split
    · exact .inl ⟨rfl, rfl⟩
    · exact goesOn_declareOther code h ho
  · exact goesOn_declareOther code h ho

/-- **One line read** in two texts with the same code. -/
theorem goesOn_readLine (h : SameCode (line :: rest) (line' :: rest')) (hline : line'.bare = line.bare)
    (ho : o'.bodies = o.bodies) :
    GoesOn rest.length (dialect.readLine line rest o) (dialect.readLine line' rest' o') := by
  obtain ⟨hblank, hdepth, hdeclaring⟩ := SourceLine.asked_of_bare hline
  obtain ⟨hleave, hmember⟩ := Outline.leaveTo_of_bodies ho line.depth
  rw [Dialect.readLine_eq, Dialect.readLine_eq, hblank, hdepth, hdeclaring]
  dsimp only
  rw [hmember]
  -- What is asked of the line has the same answer in both readings.
  split
  · exact .inl ⟨hleave, rfl⟩
  · split
    · exact .inl ⟨hleave, rfl⟩
    · split
      · exact .inl ⟨hleave, rfl⟩
      · exact goesOn_declare line.declaring h hleave

end Readings

/-! ### Directives -/

/-- **An import, an export or a part**: its word, its alias and its line. -/
structure Directive where
  word : String
  localName : Option String
  line : SourceLine
  deriving DecidableEq

namespace Directive

/-- A directive without the text of its line as it stands. -/
def bare (d : Directive) : Directive :=
  { d with line := d.line.bare }

/-- **The path of a directive**: the first quoted text of its line as it stands. -/
def path? (d : Directive) : Option String :=
  (firstQuoted? d.line.raw).map String.ofList

/-- What a directive adds to the imports: nothing without a path. -/
def declared? (d : Directive) : Option ImportDecl :=
  d.path?.map fun path =>
    { path
      member := some d.word
      localName := d.localName
      wildcard := false
      isStatic := false
      line := d.line.number
      statement := String.ofList (Text.trim d.line.raw) }

end Directive

/-- The directive that some code is. What names a library, this file's own or the one that it belongs to,
has no path. -/
def directiveOf? (code : List Char) (line : SourceLine) : Option Directive :=
  match libraryPattern.match? code, directivePattern.match? code with
  | none, some c =>
    if (c.group? 2).isSome then none
    else some { word := String.ofList (c.group 1), localName := localName? code, line }
  | _, _ => none

/-- **The directive on a line**, if there is one. A line is looked at where declarations stand, and where no
enumeration lists its values. -/
def directiveAt? (line : SourceLine) (o : Outline) : Option Directive :=
  let o := o.leaveTo line.depth
  if line.isBlank then none
  else if line.depth ≠ o.memberDepth then none
  else if line.declaring = [] then none
  else if o.bodies.head?.any (·.listsValues) then none
  else directiveOf? line.declaring line

/-- The directives of some lines, of which the first `skip` have been read already. -/
def directivesFrom : (skip : Nat) → List SourceLine → Outline → List Directive
  | _, [], _ => []
  | skip + 1, _ :: rest, o => directivesFrom skip rest o
  | 0, line :: rest, o =>
    let r := dialect.readLine line rest o
    (directiveAt? line o).toList ++ directivesFrom r.2 rest r.1

/-- **The directives of a source text.** -/
def directives (source : List Char) : List Directive :=
  directivesFrom 0 (SourceLine.ofSource source) {}

/-! ### What directives add -/

section Imports

variable (line : SourceLine) (rest : List SourceLine) (o : Outline)

/-- Fields add no import. -/
theorem imports_declareFields (header : List Char) (number headerLine : Nat) :
    (declareFields header number headerLine o).facts.imports = o.facts.imports := by
  unfold declareFields
  split
  · rfl
  · dsimp only
    split <;> rfl

/-- A callable adds no import. -/
theorem imports_declareCallable (header : List Char) (lines : List SourceLine) (headerEnd : Nat) :
    (declareCallable header lines headerEnd o).1.facts.imports = o.facts.imports := by
  unfold declareCallable
  split
  · rfl
  · split <;> rfl

/-- Neither does a member, whichever it is. -/
theorem imports_declareMember : (declareMember line rest o).1.facts.imports = o.facts.imports := by
  rcases hheader : SourceLine.header (line :: rest) with ⟨header, headerEnd⟩
  simp only [declareMember, hheader]
  -- A callable, fields, or neither, in the order in which the reader tries them.
  split
  · rfl
  · split
    · exact imports_declareCallable o _ _ _
    · split
      · rfl
      · split
        · exact imports_declareFields o _ _ _
        · rfl

theorem imports_declareAlias (code : List Char) :
    (declareAlias code line o).facts.imports = o.facts.imports := by
  unfold declareAlias
  extract_lets body name
  split <;> rfl

theorem imports_declareType (head : TypeHead) :
    (declareType head line rest o).1.facts.imports = o.facts.imports := by
  unfold declareType
  simp only [Outline.imports_enter]
  rfl

/-- A directive adds an import if it has a path. -/
theorem imports_declareDirective (word : String) (code : List Char) :
    (declareDirective word code line o).facts.imports
      = o.facts.imports ++ (Directive.declared? ⟨word, localName? code, line⟩).toList := by
  rw [Directive.declared?, Directive.path?, ← search?_quotedPattern, declareDirective]
  cases quotedPattern.search? line.raw with
  | none => exact (List.append_nil _).symm
  | some c => rfl

/-- Of all other declarations directives alone add imports. -/
theorem imports_declareOther (code : List Char) :
    (declareOther code line rest o).1.facts.imports
      = o.facts.imports ++ ((directiveOf? code line).bind Directive.declared?).toList := by
  have hnone : o.facts.imports = o.facts.imports ++ (none : Option ImportDecl).toList :=
    (List.append_nil _).symm
  unfold declareOther directiveOf?
  -- The patterns are tried in the order of the reader.
  cases libraryPattern.match? code with
  | some c => exact hnone
  | none =>
    cases directivePattern.match? code with
    | some c =>
      dsimp only
      split
      · exact hnone
      · exact imports_declareDirective line o _ code
    | none =>
      refine Eq.trans ?_ hnone
      dsimp only
      split
      · exact imports_declareAlias line o code
      · split
        · exact imports_declareType line rest o _
        · exact imports_declareMember line rest o

/-- **One declaration** adds what its directive declares, if it is one. -/
theorem imports_declare (code : List Char) :
    (declare code line rest o).1.facts.imports = o.facts.imports ++
      ((if o.bodies.head?.any (·.listsValues) then none else directiveOf? code line).bind
        Directive.declared?).toList := by
  unfold declare
  cases o.bodies with
  | nil => exact imports_declareOther line rest o code
  | cons body bodies =>
    rw [List.head?_cons, Option.any_some]
    dsimp only
    -- Inside the body of an enumeration, values may stand where declarations would.
    split
    · exact (List.append_nil _).symm
    · exact imports_declareOther line rest o code

/-- **What a line adds to the imports** is what the directive on it declares. -/
theorem imports_readLine :
    (dialect.readLine line rest o).1.facts.imports
      = o.facts.imports ++ ((directiveAt? line o).bind Directive.declared?).toList := by
  have hnone : o.facts.imports = o.facts.imports ++ (none : Option ImportDecl).toList :=
    (List.append_nil _).symm
  rw [Dialect.readLine_eq]
  -- Both sides ask the same of the line, in the same order.
  unfold directiveAt?
  dsimp only
  split
  · exact hnone
  · split
    · exact hnone
    · split
      · exact hnone
      · exact imports_declare line rest _ line.declaring

/-- **All lines** add what their directives declare. -/
theorem imports_readLines (skip : Nat) (lines : List SourceLine) (o : Outline) :
    (dialect.readLines skip lines o).facts.imports
      = o.facts.imports ++ (directivesFrom skip lines o).filterMap Directive.declared? := by
  -- By induction on the lines, skipped ones included.
  induction lines generalizing skip o with
  | nil => cases skip <;> exact (List.append_nil _).symm
  | cons line rest ih =>
    cases skip with
    | succ skip => exact ih skip o
    | zero =>
      rw [Dialect.readLines, ih, imports_readLine, directivesFrom, List.filterMap_append, List.append_assoc]
      cases directiveAt? line o with
      | none => rfl
      | some d => cases hd : d.declared? <;> simp [hd]

/-- **The imports of a record** are those that its directives declare. -/
theorem imports_record (source : List Char) :
    (record source).facts.imports = (directives source).filterMap Directive.declared? :=
  imports_readLines 0 (SourceLine.ofSource source) {}

end Imports

/-! ### Directives of texts with the same code -/

/-- A directive is told by its code. -/
theorem map_bare_directiveOf? (code : List Char) {line line' : SourceLine} (hline : line'.bare = line.bare) :
    (directiveOf? code line').map Directive.bare = (directiveOf? code line).map Directive.bare := by
  unfold directiveOf?
  split
  · split
    · rfl
    · simp only [Option.map_some, Directive.bare, hline]
  · rfl

/-- So is the directive on a line, as long as the same bodies are open. -/
theorem map_bare_directiveAt? {line line' : SourceLine} {o o' : Outline} (hline : line'.bare = line.bare)
    (ho : o'.bodies = o.bodies) :
    (directiveAt? line' o').map Directive.bare = (directiveAt? line o).map Directive.bare := by
  obtain ⟨hblank, hdepth, hdeclaring⟩ := SourceLine.asked_of_bare hline
  obtain ⟨hleave, hmember⟩ := Outline.leaveTo_of_bodies ho line.depth
  unfold directiveAt?
  rw [hblank, hdepth, hdeclaring]
  dsimp only
  rw [hmember, hleave]
  simp only [apply_ite (Option.map Directive.bare), map_bare_directiveOf? line.declaring hline]

/-- Where all lines have been read, or all but an empty one, there are no directives left. -/
theorem directivesFrom_of_le {lines lines' : List SourceLine} (h : SameCode lines lines') {skip : Nat}
    (hskip : lines.length ≤ skip) (o : Outline) : directivesFrom skip lines' o = [] := by
  -- By induction on the first lines: all of them are skipped, and what the others may have more is blank.
  induction lines generalizing lines' skip with
  | nil =>
    rcases h.code_of_nil with rfl | ⟨b, rfl, hb⟩
    · cases skip <;> rfl
    · cases skip with
      | succ skip => rfl
      | zero =>
        have hblank : b.isBlank = true := by
          rw [SourceLine.isBlank, hb]
          rfl
        have hnone : directiveAt? b o = none := if_pos hblank
        rw [directivesFrom, hnone]
        rfl
  | cons line rest ih =>
    obtain ⟨line', rest', rfl, -, hrest⟩ := h.exists_cons
    cases skip with
    | zero => cases hskip
    | succ skip => exact ih hrest (Nat.le_of_succ_le_succ hskip)

/-- **Which lines are directives**, and all of them but their paths, is read off the code. -/
theorem map_bare_directivesFrom {lines lines' : List SourceLine} (h : SameCode lines lines') (skip : Nat)
    {o o' : Outline} (ho : o'.bodies = o.bodies) :
    (directivesFrom skip lines' o').map Directive.bare = (directivesFrom skip lines o).map Directive.bare := by
  induction lines generalizing lines' skip o o' with
  | nil =>
    rw [directivesFrom_of_le h (Nat.zero_le skip)]
    cases skip <;> rfl
  | cons line rest ih =>
    obtain ⟨line', rest', rfl, hline, hrest⟩ := h.exists_cons
    cases skip with
    | succ skip => exact ih hrest skip ho
    | zero =>
      have hhere : (directiveAt? line' o').toList.map Directive.bare
          = (directiveAt? line o).toList.map Directive.bare := by
        rw [← Option.toList_map, ← Option.toList_map, map_bare_directiveAt? hline ho]
      rw [directivesFrom, directivesFrom, List.map_append, List.map_append, hhere]
      -- Either both readings go on behind the same line, or both have taken all lines.
      rcases goesOn_readLine h hline ho with ⟨hbodies, htaken⟩ | ⟨hall, hall'⟩
      · rw [htaken, ih hrest _ hbodies]
      · rw [directivesFrom_of_le hrest hall', directivesFrom_of_le (.of_map_bare rfl) hall]

/-- A directive knows the line that it was read from. -/
theorem line_of_directiveOf? {code : List Char} {line : SourceLine} {d : Directive}
    (h : directiveOf? code line = some d) : d.line = line := by
  unfold directiveOf? at h
  split at h
  · split at h <;> cases h
    rfl
  · cases h

theorem line_of_directiveAt? {line : SourceLine} {o : Outline} {d : Directive}
    (h : directiveAt? line o = some d) : d.line = line := by
  unfold directiveAt? at h
  simp only [Option.ite_none_left_eq_some] at h
  obtain ⟨-, -, -, -, h⟩ := h
  exact line_of_directiveOf? h

/-- The directives stand on lines of their own, in the order of the lines. -/
theorem lines_directivesFrom_sublist (skip : Nat) (lines : List SourceLine) (o : Outline) :
    ((directivesFrom skip lines o).map (·.line)).Sublist lines := by
  -- By induction on the lines: each has one directive at most.
  induction lines generalizing skip o with
  | nil => cases skip <;> exact .slnil
  | cons line rest ih =>
    cases skip with
    | succ skip => exact (ih skip o).cons line
    | zero =>
      rw [directivesFrom]
      cases hd : directiveAt? line o with
      | none => exact (ih _ _).cons line
      | some d =>
        have hline := line_of_directiveAt? hd
        subst hline
        exact (ih _ _).cons_cons d.line

/-- **No two directives stand on one line.** -/
theorem nodup_numbers_directives (source : List Char) :
    ((directives source).map (·.line.number)).Nodup := by
  have hnumbers : ((SourceLine.ofSource source).map (·.number)).Nodup := by
    rw [(SourceLine.tail_ofSource source).numbered]
    exact List.nodup_range'
  have hsub := (lines_directivesFrom_sublist 0 (SourceLine.ofSource source) {}).map (·.number)
  rw [List.map_map] at hsub
  exact hsub.nodup hnumbers

/-! ### Entries -/

/-- The imports of a source text without their texts: path, member, alias and line. -/
def entries (source : List Char) : List ImportDecl :=
  (record source).facts.imports.map ImportDecl.withoutStatement

/-- The entry of a directive: nothing without a path. -/
def Directive.listed? (d : Directive) : Option ImportDecl :=
  d.declared?.map ImportDecl.withoutStatement

/-- **The entries of a source text** are those of its directives. -/
theorem entries_eq_filterMap (source : List Char) :
    entries source = (directives source).filterMap Directive.listed? := by
  rw [entries, imports_record, List.map_filterMap]
  rfl

namespace Directive

/-- The entry of a directive that is known but for its path. -/
def listedWith? (d : Directive) (path? : Option String) : Option ImportDecl :=
  path?.map fun path =>
    { path, member := some d.word, localName := d.localName, wildcard := false, isStatic := false,
      line := d.line.number, statement := "" }

/-- An entry is put together from the bare directive and its path. -/
theorem listed?_eq (d : Directive) : d.listed? = d.bare.listedWith? d.path? := by
  rw [listed?, declared?, Option.map_map]
  rfl

/-- The path of a directive is that of its entry. -/
theorem path?_eq (d : Directive) : d.path? = d.listed?.map (·.path) := by
  rw [listed?_eq, listedWith?, Option.map_map]
  exact Option.map_id_apply.symm

/-- An entry has the number of the line of its directive. -/
theorem line_of_listed? {d : Directive} {e : ImportDecl} (h : d.listed? = some e) :
    e.line = d.line.number := by
  rw [listed?_eq] at h
  obtain ⟨path, -, rfl⟩ := Option.map_eq_some_iff.mp h
  rfl

/-- **An entry is found by its line** where no two directives stand on one. -/
theorem find?_filterMap_listed? {l : List Directive} (hl : (l.map (·.line.number)).Nodup) {d : Directive}
    (hd : d ∈ l) : (l.filterMap listed?).find? (·.line == d.line.number) = d.listed? := by
  -- By induction on the directives, whose lines are all different.
  induction l with
  | nil => cases hd
  | cons a l ih =>
    rw [List.map_cons, List.nodup_cons] at hl
    obtain ⟨hnew, hl⟩ := hl
    rw [List.filterMap_cons]
    rcases List.mem_cons.mp hd with rfl | hmem
    · cases hentry : d.listed? with
      | none =>
        -- The entries behind belong to other lines.
        refine List.find?_eq_none.mpr fun e he => ?_
        obtain ⟨b, hb, hbe⟩ := List.mem_filterMap.mp he
        rw [beq_iff_eq, line_of_listed? hbe]
        exact fun h => hnew (List.mem_map.mpr ⟨b, hb, h⟩)
      | some e => exact List.find?_cons_of_pos (beq_iff_eq.mpr (line_of_listed? hentry))
    · cases hentry : a.listed? with
      | none => exact ih hl hmem
      | some e =>
        have hother : ¬(e.line == d.line.number) = true := by
          rw [beq_iff_eq, line_of_listed? hentry]
          exact fun h => hnew (List.mem_map.mpr ⟨d, hmem, h.symm⟩)
        exact (List.find?_cons_of_neg (p := fun e : ImportDecl => e.line == d.line.number) hother).trans
          (ih hl hmem)

/-- Directives that agree in what is read off the code have the same entries if their paths agree. -/
theorem map_listed?_eq_iff {l l' : List Directive} (hbare : l.map bare = l'.map bare) :
    l.map listed? = l'.map listed? ↔ l.map path? = l'.map path? := by
  -- Paths are read off entries, and entries are made from paths.
  have hpaths (l : List Directive) : l.map path? = (l.map listed?).map (Option.map (·.path)) := by
    rw [List.map_map]
    exact List.map_congr_left fun d _ => path?_eq d
  have hentries (l : List Directive) : l.map listed? = List.zipWith listedWith? (l.map bare) (l.map path?) := by
    rw [List.zipWith_map, List.zipWith_self]
    exact List.map_congr_left fun d _ => listed?_eq d
  constructor
  · intro h
    rw [hpaths, hpaths, h]
  · intro h
    rw [hentries, hentries, hbare, h]

end Directive

/-- What each directive has listed can be found again in the entries, by its line. -/
theorem map_listed?_directives (source : List Char) :
    (directives source).map Directive.listed? = ((directives source).map (·.line.number)).map fun n =>
      (entries source).find? (·.line == n) := by
  rw [List.map_map, entries_eq_filterMap]
  exact List.map_congr_left fun d hd =>
    (Directive.find?_filterMap_listed? (nodup_numbers_directives source) hd).symm

/-- **Two texts with the same directives but for their paths** have the same entries exactly if the paths
are the same. -/
theorem entries_eq_iff {source source' : List Char}
    (h : (directives source).map Directive.bare = (directives source').map Directive.bare) :
    entries source = entries source' ↔
      (directives source).map Directive.path? = (directives source').map Directive.path? := by
  -- The directives stand on lines of the same numbers.
  have hnumbers : (directives source).map (·.line.number) = (directives source').map (·.line.number) := by
    have hmap := congrArg (List.map fun d : Directive => d.line.number) h
    rwa [List.map_map, List.map_map] at hmap
  rw [← Directive.map_listed?_eq_iff h]
  constructor
  · intro hentries
    rw [map_listed?_directives, map_listed?_directives, hnumbers, hentries]
  · intro hentries
    have hall (text : List Char) : entries text = ((directives text).map Directive.listed?).filterMap id := by
      rw [entries_eq_filterMap, List.filterMap_map]
      rfl
    rw [hall, hall, hentries]

/-- The directives of two texts that differ in a comment are the same, but for the texts of their lines. -/
theorem map_bare_directives {source source' : List Char} (h : CommentChange source source') :
    (directives source).map Directive.bare = (directives source').map Directive.bare := by
  rcases sameCode_of_commentChange h with h | h
  · exact (map_bare_directivesFrom h 0 rfl).symm
  · exact map_bare_directivesFrom h 0 rfl

/-- **Another body of a comment and the paths of directives.** The directives stay as they are, with their
words, aliases and lines, but for the texts of the lines as they stand. The entries of the imports are those
of the directives that have a path, and they stay the same exactly if the paths do. The path of a directive
stays the same where its line differs behind a quoted text, or before the first quote. -/
theorem paths_of_commentChange {source source' : List Char} (h : CommentChange source source') :
    (directives source).map Directive.bare = (directives source').map Directive.bare ∧
      (∀ text, entries text = (directives text).filterMap Directive.listed?) ∧
      (entries source = entries source' ↔
        (directives source).map Directive.path? = (directives source').map Directive.path?) ∧
      ∀ p ∈ (directives source).zip (directives source'), PathApart p.1.line.raw p.2.line.raw →
        p.1.path? = p.2.path? := by
  have hdirectives := map_bare_directives h
  refine ⟨hdirectives, entries_eq_filterMap, entries_eq_iff hdirectives, ?_⟩
  intro p _ hapart
  rw [Directive.path?, Directive.path?, hapart.firstQuoted?_eq]

/-- A comment behind a path, and one between the word of a directive and its path. -/
theorem paths_of_commentChange_trailingComment :
    let source := fun body : List Char =>
      "import /* of */ 'a.dart' as a; ".toList ++ '/' :: '/' :: (body ++ "\npart 'b.dart';\n".toList)
    let old := " 'c.dart'".toList
    let new := " class C \x7b".toList
    CommentChange (source old) (source new) ∧ entries (source old) = entries (source new) ∧
      (entries (source old)).map (·.path) = ["a.dart", "b.dart"] := by
  intro source old new
  have hchange : CommentChange (source old) (source new) := by
    -- Both comments end with their line.
    refine .lineComment ?_ ?_ ?_
    all_goals decide +kernel
  have hpaths := (paths_of_commentChange hchange).2.2.1
  exact ⟨hchange, hpaths.mpr (by decide +kernel), by decide +kernel⟩

/-- **A path is taken from a comment** that stands before it: the line as it stands still holds its
comments, and the first quoted text counts. -/
theorem path_of_comment :
    let source := fun body : List Char =>
      "import ".toList ++ '/' :: '*' :: (body ++ '*' :: '/' :: " 'new.dart';\n".toList)
    let old := " 'old.dart' ".toList
    let new := " ".toList
    CommentChange (source old) (source new) ∧ entries (source old) ≠ entries (source new) ∧
      (entries (source old)).map (·.path) = ["old.dart"] ∧
      (entries (source new)).map (·.path) = ["new.dart"] := by
  intro source old new
  refine ⟨.blockComment ?_ ⟨?_, ?_, ?_⟩ ?_ ?_ ?_, ?_, ?_, ?_⟩
  all_goals decide +kernel

end Dart

end CodeAtlas
