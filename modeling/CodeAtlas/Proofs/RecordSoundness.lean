import CodeAtlas.Proofs.FragmentCuts
import CodeAtlas.Proofs.OutlineSoundness
import CodeAtlas.Proofs.PatternMatch
import CodeAtlas.Source.Kotlin
import CodeAtlas.Source.Dart

/-!
# The records of Kotlin and Dart are sound

Whatever a text holds (brackets that do not balance, literals and comments that are never closed, headers
over many lines, bodies on one line), its reading comes to an end and leaves a sound record. The statement
is `sound_reading`, and `SoundReading` lists what it says of a dialect:

* the loop over the lines ends at the end of the file, and each of its turns goes forward;
* wherever a declaration is read, its header and its block end on lines of the file;
* what patterns and brackets cut off lies inside the text that is cut, and the groups that are asked for
  have taken part in the match;
* the record is sound.

The work is to show that the two dialects are `Steady`. Each function that declares something has one
lemma (`advances_…`, or `sound_…` where it takes no lines), and the lemma is put together from those on
the small operations of `Outline`. Only the order of the calls needs the extent of the declaration: the
calls of a callable stand at the end of its header and on the lines of its block, and the lines of its
block are skipped by the loop, so no call is found twice or too late.
-/

namespace CodeAtlas

open SourceLine (Tail)

variable {n k : Nat} {line : SourceLine} {rest : List SourceLine} {o : Outline}

/-! ### The lines of a declaration -/

/-- The end of a header and the end of a block, for a declaration on the first of some lines. -/
theorem SourceLine.header_le_length_rest {header : List Char} {headerEnd : Nat}
    (hh : SourceLine.header (line :: rest) = (header, headerEnd)) :
    headerEnd ≤ rest.length := by
  have hlt := SourceLine.header_lt_length (List.cons_ne_nil line rest)
  rw [hh, List.length_cons] at hlt
  exact Nat.le_of_lt_succ hlt

/-- A block ends on a line that is left. -/
theorem SourceLine.blockEnd_le_length_rest (line : SourceLine) {headerEnd : Nat}
    (h : headerEnd ≤ rest.length) : SourceLine.blockEnd (line :: rest) headerEnd ≤ rest.length := by
  have hlt : SourceLine.blockEnd (line :: rest) headerEnd < (line :: rest).length :=
    SourceLine.blockEnd_lt_length (Nat.lt_succ_of_le h)
  exact Nat.le_of_lt_succ hlt

/-- The span from the first line to the line at an offset. -/
theorem Span.within_numberAt (ht : Tail n k (line :: rest)) {offset : Nat} (ho : offset ≤ rest.length) :
    (Span.new line.number (SourceLine.numberAt (line :: rest) offset)).Within n :=
  Span.within_new ht.lineWithin (ht.lineWithin_numberAt (Nat.lt_succ_of_le ho)).2

/-- The calls of a callable: those at the end of its header, then those of the lines of its body. -/
theorem SourceLine.Tail.listed_callable (ht : Tail n k (line :: rest)) {headerEnd last : Nat}
    (hheader : headerEnd ≤ last) (hlast : last ≤ rest.length) {tailCalls : List CallSite}
    (htail : ∀ c ∈ tailCalls, c.line = SourceLine.numberAt (line :: rest) headerEnd)
    {f : SourceLine → List CallSite} (hf : ∀ line, ∀ c ∈ f line, c.line = line.number) :
    CallSite.Listed k (k + last + 1) (tailCalls ++
      ((((line :: rest).take (last + 1)).drop (headerEnd + 1)).flatMap f)) := by
  have hlength : last < (line :: rest).length := Nat.lt_succ_of_le hlast
  have hbody := ht.listed_between hf (headerEnd + 1) hlength
  rw [ht.numberAt_eq (Nat.lt_of_le_of_lt hheader hlength)] at htail
  have hhead := (CallSite.Listed.of_forall_eq htail).mono (Nat.le_add_right k headerEnd) (Nat.le_refl _)
  exact hhead.append hbody (by omega) (by omega)

/-- What an optional text gives, if there is one. -/
theorem exists_of_mem_getD_map {α β : Type} {text : Option α} {found : α → List β} {b : β}
    (h : b ∈ (text.map found).getD []) : ∃ a, text = some a ∧ b ∈ found a := by
  cases text with
  | none => cases h
  | some a => exact ⟨a, rfl, h⟩

/-! ### Kotlin -/

namespace Kotlin

/-- The calls of a line stand on it. -/
theorem line_of_mem_lineCalls (line : SourceLine) : ∀ c ∈ lineCalls line, c.line = line.number := by
  intro c hc
  rw [lineCalls] at hc
  split at hc
  · cases hc
  · exact Outline.line_of_mem_callSites hc

/-- A type takes the lines of its header, and its fields lie on its first line. -/
theorem advances_declareType (ht : Tail n k (line :: rest)) (h : o.SoundBefore n k) :
    Advances n k rest (declareType line rest o) := by
  rcases hh : SourceLine.header (line :: rest) with ⟨header, headerEnd⟩
  have hheader := SourceLine.header_le_length_rest hh
  have hlast := SourceLine.blockEnd_le_length_rest line hheader
  rw [declareType, hh]
  dsimp only
  split
  · exact .of_sound h
  · split
    · exact .of_sound h
    next c _ name _ =>
      refine .of_sound_le (Outline.SoundBefore.enter ?_ _ _ ?_) hheader
      · -- The type goes first: the fields of its constructor belong to it.
        refine (h.clearAnnotations.addType ?_ ?_).addFields (o := Outline.addType _ _) ?_ ?_
        -- The span ends where the block does, which lies in the lines that are left.
        · exact Span.within_numberAt ht hlast
        · rfl
        · intro f hf
          obtain ⟨⟨p, keyword⟩, -, rfl⟩ := List.mem_map.mp hf
          exact Span.within_single ht.lineWithin
        · intro f hf owner ho
          obtain ⟨⟨p, keyword⟩, -, rfl⟩ := List.mem_map.mp hf
          cases ho
          exact ⟨_, List.mem_append_right _ List.mem_cons_self, rfl⟩
      · intro depth
        exact ⟨_, List.mem_append_right _ List.mem_cons_self, rfl⟩

/-- A function takes all its lines, and their calls come in order. -/
theorem advances_declareFunction (ht : Tail n k (line :: rest)) (h : o.SoundBefore n k) :
    Advances n k rest (declareFunction line rest o) := by
  rcases hh : SourceLine.header (line :: rest) with ⟨header, headerEnd⟩
  have hheader := SourceLine.header_le_length_rest hh
  have hlast := SourceLine.blockEnd_le_length_rest line hheader
  rw [declareFunction, hh]
  dsimp only
  split
  · exact .of_sound h
  next c _ =>
    -- Calls of the default values are listed first, then those of the lines from the header to the end of the
    -- block, so the lines only go up.
    refine .of_calls ht (h.clearAnnotations.addCallable ?_ rfl) hlast ?_
    · exact Span.within_numberAt ht hlast
    · refine ht.listed_callable (SourceLine.header_le_blockEnd _ _) hlast ?_ line_of_mem_lineCalls
      intro site hsite
      obtain ⟨r, -, hsite⟩ := exists_of_mem_getD_map hsite
      exact Outline.line_of_mem_callSites hsite

/-- **Kotlin declares soundly**, whichever branch a line takes. -/
theorem steady_dialect : dialect.Steady where
  bodyCalls := by
    dsimp only [dialect]
    exact line_of_mem_lineCalls
  declare := by
    intro n k code line rest o ht h
    dsimp only [dialect]
    have hline := ht.lineWithin
    unfold declare
    -- One branch for each form of a line, in the order in which they are tried: the package, an import, an
    -- alias, a type, a function, a property and anything else.
    split
    next => exact .of_sound (h.of_facts_bodies rfl rfl)
    next =>
    split
    next => exact .of_sound (h.addImport hline)
    next =>
    split
    next => exact .of_sound (h.clearAnnotations.addType (Span.within_single hline) rfl)
    next =>
    split
    next => exact advances_declareType ht h
    next =>
    split
    next => exact advances_declareFunction ht h
    next =>
    split
    next =>
      refine .of_lineCalls ht (h.clearAnnotations.addFields ?_ ?_) (line_of_mem_lineCalls line)
      · intro f hf
        rw [List.mem_singleton.mp hf]
        exact Span.within_single hline
      · intro f hf owner ho
        rw [List.mem_singleton.mp hf] at ho
        exact h.owner_listed ho
    next => exact .of_lineCalls ht h.clearAnnotations (line_of_mem_lineCalls line)

end Kotlin

/-! ### Dart -/

namespace Dart

theorem line_of_mem_lineCalls (line : SourceLine) : ∀ c ∈ lineCalls line, c.line = line.number :=
  fun _ hc => Outline.line_of_mem_callSites hc

/-- The values of an enumeration belong to it and stand on the line on which they are read. -/
theorem mem_enumFields {number : Nat} {code : List Char} {owner enumName : String} {f : FieldDecl}
    (hf : f ∈ enumFields number code owner enumName) :
    f.span = Span.single number ∧ f.owner = some owner := by
  obtain ⟨value, -, hvalue⟩ := List.mem_filterMap.mp hf
  obtain ⟨name, -, rfl⟩ := Option.map_eq_some_iff.mp hvalue
  exact ⟨rfl, rfl⟩

/-- A type takes the lines of its header; the values of an enumeration lie on the last of them. -/
theorem advances_declareType (head : TypeHead) (ht : Tail n k (line :: rest)) (h : o.SoundBefore n k) :
    Advances n k rest (declareType head line rest o) := by
  rcases hh : SourceLine.header (line :: rest) with ⟨header, headerEnd⟩
  have hheader := SourceLine.header_le_length_rest hh
  have hlast := SourceLine.blockEnd_le_length_rest line hheader
  have hnumber := ht.lineWithin_numberAt (Nat.lt_succ_of_le hheader)
  rw [declareType, hh]
  dsimp only
  refine .of_sound_le (Outline.SoundBefore.enter ?_ _ _ ?_) hheader
  · refine (h.clearAnnotations.addType (Span.within_numberAt ht hlast) rfl).addFields ?_ ?_
    · intro f hf
      obtain ⟨code, -, hf⟩ := exists_of_mem_getD_map hf
      rw [(mem_enumFields hf).1]
      exact Span.within_single hnumber
    -- The owner of a value is the type that was listed just before.
    · intro f hf owner ho
      obtain ⟨code, -, hf⟩ := exists_of_mem_getD_map hf
      rw [(mem_enumFields hf).2] at ho
      cases ho
      exact ⟨_, List.mem_append_right _ List.mem_cons_self, rfl⟩
  · intro depth
    exact ⟨_, List.mem_append_right _ List.mem_cons_self, rfl⟩

/-- An alias is a type on one line. -/
theorem sound_declareAlias (code : List Char) (ht : Tail n k (line :: rest)) (h : o.SoundBefore n k) :
    (declareAlias code line o).SoundBefore n k := by
  unfold declareAlias
  extract_lets body name
  split
  · exact h
  · exact h.clearAnnotations.addType (Span.within_single ht.lineWithin) rfl

/-- A directive is an import on one line. -/
theorem sound_declareDirective (word : String) (code : List Char) (ht : Tail n k (line :: rest))
    (h : o.SoundBefore n k) : (declareDirective word code line o).SoundBefore n k := by
  rw [declareDirective]
  split
  · exact h
  · exact h.addImport ht.lineWithin

/-- A getter takes the lines of its header and of its block. -/
theorem advances_declareGetter (front : List String) (name : String) {headerEnd : Nat}
    (hheader : headerEnd ≤ rest.length) (ht : Tail n k (line :: rest)) (h : o.SoundBefore n k) :
    Advances n k rest (declareGetter front name (line :: rest) headerEnd o) := by
  have hlast := SourceLine.blockEnd_le_length_rest line hheader
  refine .of_calls ht (h.clearAnnotations.addCallable ?_ rfl) hlast ?_
  · exact Span.within_numberAt ht hlast
  · exact ht.listed_between line_of_mem_lineCalls 0 (Nat.lt_succ_of_le hlast)

/-- Fields take the lines of their header. -/
theorem advances_declareFields (header : List Char) {headerEnd : Nat} (hheader : headerEnd ≤ rest.length)
    (ht : Tail n k (line :: rest)) (h : o.SoundBefore n k) :
    Advances n k rest (declareFields header line.number
      (SourceLine.numberAt (line :: rest) headerEnd) o, headerEnd) := by
  rw [declareFields]
  dsimp only
  split
  · exact .of_sound_le h hheader
  · split
    · exact .of_sound_le h hheader
    · refine .of_calls ht (h.clearAnnotations.addFields ?_ ?_) hheader ?_
      · intro f hf
        obtain ⟨name, -, rfl⟩ := List.mem_map.mp hf
        exact Span.within_single ht.lineWithin
      · intro f hf owner ho
        obtain ⟨name, -, rfl⟩ := List.mem_map.mp hf
        exact h.owner_listed ho
      · -- The calls of the value stand on the last line of the header.
        refine (CallSite.Listed.of_forall_eq (a := k + headerEnd) ?_).mono (Nat.le_add_right _ _)
          (Nat.le_refl _)
        intro c hc
        obtain ⟨r, -, hc⟩ := exists_of_mem_getD_map hc
        rw [Outline.line_of_mem_callSites hc, ht.numberAt_eq (Nat.lt_succ_of_le hheader)]

/-- A callable takes all its lines. -/
theorem advances_declareCallable (header : List Char) {headerEnd : Nat}
    (hheader : headerEnd ≤ rest.length) (ht : Tail n k (line :: rest)) (h : o.SoundBefore n k) :
    Advances n k rest (declareCallable header (line :: rest) headerEnd o) := by
  have hlast := SourceLine.blockEnd_le_length_rest line hheader
  rw [declareCallable]
  split
  · exact .of_sound h
  · dsimp only
    split
    · exact .of_sound h.clearAnnotations
    · refine .of_calls ht (h.clearAnnotations.addCallable ?_ rfl) hlast ?_
      · exact Span.within_numberAt ht hlast
      -- The calls of the header stand on the line where it starts, and those of the lines follow.
      · exact ht.listed_callable (SourceLine.header_le_blockEnd _ _) hlast
          (fun _ hc => Outline.line_of_mem_callSites hc) line_of_mem_lineCalls

/-- Whatever a member turns out to be, it takes lines that are there. -/
theorem advances_declareMember (ht : Tail n k (line :: rest)) (h : o.SoundBefore n k) :
    Advances n k rest (declareMember line rest o) := by
  rcases hh : SourceLine.header (line :: rest) with ⟨header, headerEnd⟩
  have hheader := SourceLine.header_le_length_rest hh
  -- What is no member is passed over, and only its calls are kept.
  have hother : Advances n k rest (o.clearAnnotations.addCalls (lineCalls line), 0) :=
    .of_lineCalls ht h.clearAnnotations (line_of_mem_lineCalls line)
  rw [declareMember, hh]
  dsimp only
  split
  · exact hother
  · split
    · exact advances_declareCallable _ hheader ht h
    · split
      · exact advances_declareGetter _ _ hheader ht h
      · split
        · exact advances_declareFields _ hheader ht h
        · exact hother

/-- So does any other declaration. -/
theorem advances_declareOther (code : List Char) (ht : Tail n k (line :: rest)) (h : o.SoundBefore n k) :
    Advances n k rest (declareOther code line rest o) := by
  unfold declareOther
  split
  next => exact .of_sound (h.of_facts_bodies rfl rfl)
  next =>
  split
  next =>
    -- `part of` leaves the outline as it is; the other directives list what they name.
    split
    · exact .of_sound h
    · exact .of_sound (sound_declareDirective _ code ht h)
  next =>
  split
  next => exact .of_sound (sound_declareAlias code ht h)
  next =>
  split
  next head _ => exact advances_declareType head ht h
  next => exact advances_declareMember ht h

/-- The values of an enumeration keep its body open, under the same name. -/
theorem sound_declareValues {body : OpenBody} {bodies : List OpenBody} (hbodies : o.bodies = body :: bodies)
    (code : List Char) (ht : Tail n k (line :: rest)) (h : o.SoundBefore n k) :
    (declareValues body bodies code line o).SoundBefore n k := by
  have hbody := h.bodies_listed body (by rw [hbodies]; exact List.mem_cons_self)
  have hfields : (o.addFields (enumFields line.number code body.name body.simpleName)).SoundBefore n k := by
    refine h.addFields ?_ ?_
    · intro f hf
      rw [(mem_enumFields hf).1]
      exact Span.within_single ht.lineWithin
    · intro f hf owner ho
      rw [(mem_enumFields hf).2] at ho
      cases ho
      exact hbody
  -- The body on top is replaced by one of the same type.
  refine ⟨hfields.facts, hfields.calls_before, ?_⟩
  intro b hb
  rcases List.mem_cons.mp hb with rfl | hb
  · exact hbody
  · exact h.bodies_listed b (by rw [hbodies]; exact List.mem_cons_of_mem _ hb)

/-- **Dart declares soundly**, inside of an enumeration and elsewhere. -/
theorem steady_dialect : dialect.Steady where
  bodyCalls := by
    dsimp only [dialect]
    exact line_of_mem_lineCalls
  declare := by
    intro n k code line rest o ht h
    dsimp only [dialect]
    unfold declare
    -- The only difference is the body of an enumeration, where values stand before the members.
    split
    next body bodies hbodies =>
      split
      · exact .of_sound (sound_declareValues hbodies code ht h)
      · exact advances_declareOther code ht h
    next => exact advances_declareOther code ht h

end Dart

/-! ### Sound readings -/

/-- The patterns of Kotlin, each with the groups that its readers take for granted. -/
def Kotlin.shapes : List (Pattern × List Nat) :=
  [(packagePattern, [1]), (importPattern, [1]), (aliasPattern, [1, 2]), (typePattern, [1, 2]),
    (functionPattern, [1, 3]), (propertyPattern, [1, 2, 4])]

/-- The patterns of Dart, each with the groups that its readers take for granted. -/
def Dart.shapes : List (Pattern × List Nat) :=
  [(libraryPattern, [1]), (directivePattern, [1]), (quotedPattern, [1]), (classPattern, [1, 2]),
    (mixinPattern, [1]), (extensionPattern, [2]), (enumPattern, [1])]

/-- The groups that are asked for are bound by the patterns of Kotlin. -/
theorem Kotlin.binds_shapes : ∀ shape ∈ shapes, ∀ g ∈ shape.2, shape.1.binds g := by
  decide +kernel

theorem Dart.binds_shapes : ∀ shape ∈ shapes, ∀ g ∈ shape.2, shape.1.binds g := by
  decide +kernel

/-- **A sound reading of a source text**, which has the given patterns and comes to the given record. -/
structure SoundReading (d : Dialect) (shapes : List (Pattern × List Nat)) (source : List Char)
    (record : SourceRecord) : Prop where
  /-- The loop over the lines ends, and the record holds what it has found. -/
  completes : ∃ o, d.Completes (SourceLine.ofSource source) o ∧ record.facts = o.facts
  /-- From every line on, a header and a block end on lines of the file. -/
  offsets : ∀ i < (SourceLine.ofSource source).length,
    let lines := (SourceLine.ofSource source).drop i
    let headerEnd := (SourceLine.header lines).2
    headerEnd ≤ SourceLine.blockEnd lines headerEnd ∧
      i + SourceLine.blockEnd lines headerEnd < (SourceLine.ofSource source).length
  /-- A match ends inside the text in which it is looked for. -/
  matches_inside : ∀ shape ∈ shapes, ∀ text c,
    shape.1.match? text = some c ∨ shape.1.search? text = some c → Pattern.CutsInside text shape.2 c
  /-- Brackets and annotations are cut inside the text. -/
  cuts_inside : ∀ text, Fragment.CutsInside text
  /-- All that the record lists lies in the file and belongs to what the record lists. -/
  sound : record.facts.Sound (Text.lines source).length

theorem SourceLine.length_ofSource (source : List Char) :
    (ofSource source).length = (Text.lines source).length :=
  length_readAll _ _ _ _

/-- Headers and blocks end on lines of the source. -/
theorem SourceLine.offsets_ofSource (source : List Char) {i : Nat} (hi : i < (ofSource source).length) :
    let lines := (ofSource source).drop i
    let headerEnd := (header lines).2
    headerEnd ≤ blockEnd lines headerEnd ∧ i + blockEnd lines headerEnd < (ofSource source).length := by
  intro lines headerEnd
  have hlines : lines ≠ [] := fun hnil => absurd (List.drop_eq_nil_iff.mp hnil) (Nat.not_le.mpr hi)
  have hlt : blockEnd lines headerEnd < lines.length := blockEnd_lt_length (header_lt_length hlines)
  rw [List.length_drop] at hlt
  exact ⟨header_le_blockEnd _ _, by omega⟩

/-- A steady dialect whose patterns bind their groups reads soundly. -/
theorem Dialect.Steady.soundReading {d : Dialect} (hd : d.Steady) {shapes : List (Pattern × List Nat)}
    (hshapes : ∀ shape ∈ shapes, ∀ g ∈ shape.2, shape.1.binds g) {source : List Char}
    {record : SourceRecord} (hrecord : record.facts = (d.outline source).facts) :
    SoundReading d shapes source record where
  completes := ⟨d.outline source, hd.completes_outline source, hrecord⟩
  offsets := fun _ hi => SourceLine.offsets_ofSource source hi
  matches_inside := by
    -- A pattern is matched at the start or searched for, and in both ways its groups are cut from the text.
    intro shape hshape text c hc
    rcases hc with hc | hc
    · exact Pattern.cutsInside_of_match? (hshapes shape hshape) hc
    · exact Pattern.cutsInside_of_search? (hshapes shape hshape) hc
  cuts_inside := Fragment.cutsInside
  sound := by
    rw [hrecord, ← SourceLine.length_ofSource]
    exact hd.sound_outline source

/-- The match of the start of a function ends behind the parenthesis that opens its parameters. -/
theorem Kotlin.exists_eq_of_match?_functionPattern {text : List Char} {c : Cursor}
    (hc : functionPattern.match? text = some c) : ∃ front, text = front ++ '(' :: c.rest := by
  have hmem : c ∈ functionPattern.ends { rest := text } := List.mem_of_mem_head? (Option.mem_def.mpr hc)
  refine (Pattern.at_of_mem_ends (Pattern.at_start text) hmem).exists_eq_append ?_
  exact Pattern.previous_of_mem_ends_all (l := [_, _, _, _, _, _, _]) hmem

/-- **Every source text has a sound reading as Kotlin and a sound reading as Dart.** -/
theorem sound_reading (source : List Char) :
    SoundReading Kotlin.dialect Kotlin.shapes source (Kotlin.record source) ∧
      SoundReading Dart.dialect Dart.shapes source (Dart.record source) ∧
      ∀ text c, Kotlin.functionPattern.match? text = some c → ∃ front, text = front ++ '(' :: c.rest := by
  refine ⟨?_, ?_, ?_⟩
  · exact Kotlin.steady_dialect.soundReading Kotlin.binds_shapes rfl
  · exact Dart.steady_dialect.soundReading Dart.binds_shapes rfl
  · intro text c hc
    exact Kotlin.exists_eq_of_match?_functionPattern hc

end CodeAtlas
