import CodeAtlas.Proofs.RecordSoundness

/-!
# Annotations that wait

Annotations on lines of their own wait in `Outline.annotations` until a line takes them or drops them. What
a line does with them is the same whatever they are: it leaves them waiting, and then nothing that it adds
depends on them, or it clears them, and then they are the annotations of what it declares (`Acts`). Each of
the operations that a reader is made of keeps this form, so it holds of every line of Kotlin
(`Kotlin.declares_declare`) and of Dart (`Dart.declares_declare`).

A package, an import, a library or another directive is a line that leaves annotations waiting
(`Kotlin.declare_of_isDirective`, `Dart.declare_of_isDirective`).
-/

namespace CodeAtlas

/-! ### Declarations and their annotations -/

namespace Declarations

/-- Declarations of one source followed by others. -/
def append (d e : Declarations) : Declarations where
  imports := d.imports ++ e.imports
  types := d.types ++ e.types
  callables := d.callables ++ e.callables
  fields := d.fields ++ e.fields
  calls := d.calls ++ e.calls

theorem append_empty (d : Declarations) : d.append {} = d := by
  simp only [append, List.append_nil]

theorem append_assoc (d e g : Declarations) : (d.append e).append g = d.append (e.append g) := by
  simp only [append, List.append_assoc]

/-- The declarations without their annotations. -/
def bare (d : Declarations) : Declarations :=
  { d with
    types := d.types.map fun t => { t with annotations := [] }
    callables := d.callables.map fun c => { c with annotations := [] }
    fields := d.fields.map fun f => { f with annotations := [] } }

theorem bare_append (d e : Declarations) : (d.append e).bare = d.bare.append e.bare := by
  simp only [bare, append, List.map_append]

end Declarations

/-- **What is declared on a line with the annotations that wait**: apart from them it is always the same,
all types and callables get them, and all of the fields that are not listed in a header. -/
structure AnnotatedOn (line : Nat) (added : List String → Declarations) : Prop where
  bare : ∀ a, (added a).bare = (added []).bare
  types : ∀ a, ∀ t ∈ (added a).types, t.annotations = a ∧ t.span.first = line
  callables : ∀ a, ∀ c ∈ (added a).callables, c.annotations = a ∧ c.span.first = line
  fields : ∀ a, ∀ f ∈ (added a).fields, f.annotations = [] ∨ f.annotations = a ∧ f.span.first = line

namespace AnnotatedOn

variable {line : Nat} {added more : List String → Declarations}

/-- Declarations without annotations. -/
theorem of_bare {d : Declarations} (htypes : d.types = []) (hcallables : d.callables = [])
    (hfields : ∀ f ∈ d.fields, f.annotations = []) : AnnotatedOn line fun _ => d where
  bare _ := rfl
  types _ t ht := by
    rw [htypes] at ht
    cases ht
  callables _ c hc := by
    rw [hcallables] at hc
    cases hc
  fields _ f hf := .inl (hfields f hf)

theorem none : AnnotatedOn line fun _ => {} :=
  of_bare rfl rfl fun _ h => nomatch h

theorem append (h : AnnotatedOn line added) (hmore : AnnotatedOn line more) :
    AnnotatedOn line fun a => (added a).append (more a) where
  bare a := by rw [Declarations.bare_append, Declarations.bare_append, h.bare, hmore.bare]
  types a t ht := (List.mem_append.1 ht).elim (h.types a t) (hmore.types a t)
  callables a c hc := (List.mem_append.1 hc).elim (h.callables a c) (hmore.callables a c)
  fields a f hf := (List.mem_append.1 hf).elim (h.fields a f) (hmore.fields a f)

end AnnotatedOn

/-! ### What a line does -/

/-- The state with other declarations and other annotations that wait. -/
def Outline.resume (o : Outline) (f : Declarations) (a : List String) : Outline :=
  { o with facts := f, annotations := a }

/-- All open bodies are deeper than the file. -/
def Outline.Deep (o : Outline) : Prop :=
  ∀ b ∈ o.bodies, 0 < b.depth

/-- **What an act comes to**, as a function of the declarations so far and of the annotations that wait:
it adds declarations, and it clears the annotations or leaves them. If it leaves them, they do not matter
for what it adds. -/
structure Effect (clears : Bool) (line : Nat) (next : Outline) (added : List String → Declarations)
    (act : Declarations → List String → Outline) : Prop where
  deep : next.Deep
  annotated : AnnotatedOn line added
  kept : clears = false → ∀ a, added a = added []
  act_eq : ∀ f a, act f a = next.resume (f.append (added a)) (if clears then [] else a)

/-- **A way to act on what has been read** that has an effect of this kind. -/
def Acts (clears : Bool) (line : Nat) (act : Declarations → List String → Outline) : Prop :=
  ∃ next added, Effect clears line next added act

namespace Acts

variable {clears : Bool} {line : Nat} {act : Declarations → List String → Outline} {o : Outline}

/-- An act may leave everything as it is. -/
theorem resume (ho : o.Deep) : Acts false line fun f a => o.resume f a :=
  ⟨o, fun _ => {},
    { deep := ho
      annotated := .none
      kept := fun _ _ => rfl
      act_eq := fun f a => by
        rw [Declarations.append_empty]
        rfl }⟩

/-- An act may drop the annotations that wait. -/
theorem clear (h : Acts clears line act) : Acts true line fun f a => (act f a).clearAnnotations := by
  obtain ⟨next, added, h⟩ := h
  -- What was added may depend on the annotations from now on, as they are gone.
  refine ⟨next, added, { h with kept := fun htrue => absurd htrue (by decide), act_eq := fun f a => ?_ }⟩
  rw [h.act_eq]
  rfl

/-- Another state is open than before. -/
theorem move (h : Acts clears line act) (move : Outline → Outline)
    (hmove : ∀ o f a, move (Outline.resume o f a) = (move o).resume f a)
    (hdeep : ∀ o, o.Deep → (move o).Deep) : Acts clears line fun f a => move (act f a) := by
  obtain ⟨next, added, h⟩ := h
  refine ⟨move next, added, { h with deep := hdeep next h.deep, act_eq := fun f a => ?_ }⟩
  rw [h.act_eq, hmove]

/-- Declarations that are added with the annotations that were waiting. -/
theorem add (h : Acts true line act) {more : List String → Declarations} (hmore : AnnotatedOn line more) :
    Acts true line fun f a => (act f a).resume ((act f a).facts.append (more a)) (act f a).annotations := by
  obtain ⟨next, added, h⟩ := h
  refine ⟨next, fun a => (added a).append (more a),
    { deep := h.deep
      annotated := h.annotated.append hmore
      kept := fun htrue => absurd htrue (by decide)
      act_eq := fun f a => ?_ }⟩
  rw [h.act_eq, ← Declarations.append_assoc]
  rfl

/-- Declarations that are added without annotations. -/
theorem addBare (h : Acts clears line act) {more : Declarations} (hmore : AnnotatedOn line fun _ => more) :
    Acts clears line fun f a => (act f a).resume ((act f a).facts.append more) (act f a).annotations := by
  obtain ⟨next, added, h⟩ := h
  refine ⟨next, fun a => (added a).append more,
    { deep := h.deep
      annotated := h.annotated.append hmore
      kept := fun hkept a => by rw [h.kept hkept a]
      act_eq := fun f a => ?_ }⟩
  rw [h.act_eq, ← Declarations.append_assoc]
  rfl

/-- The same act, written in another way. -/
theorem congr (h : Acts clears line act) {act' : Declarations → List String → Outline}
    (heq : ∀ f a, act' f a = act f a) : Acts clears line act' := by
  have hact : act' = act := funext fun f => funext fun a => heq f a
  exact hact ▸ h

/-! #### The operations of the readers -/

/-- An act that has cleared them may add a type with them. -/
theorem addType (h : Acts true line act) {d : Declarations → List String → TypeDecl}
    (hd : ∀ f a, d f a = { d {} [] with annotations := a }) (hline : (d {} []).span.first = line) :
    Acts true line fun f a => (act f a).addType (d f a) := by
  -- What is added is the same type with the annotations put on it, on the line where it starts.
  have hadded : AnnotatedOn line fun a => { types := [d {} a] } :=
    { bare := fun a => by
        rw [hd {} a]
        rfl
      types := fun a t ht => by
        rw [List.mem_singleton.1 ht, hd {} a]
        exact ⟨rfl, hline⟩
      callables := fun _ _ h => nomatch h
      fields := fun _ _ h => nomatch h }
  refine (h.add hadded).congr fun f a => ?_
  rw [(hd f a).trans (hd {} a).symm]
  simp only [Outline.resume, Outline.addType, Declarations.append, List.append_nil]

/-- It may add a callable with them. -/
theorem addCallable (h : Acts true line act) {d : Declarations → List String → CallableDecl}
    (hd : ∀ f a, d f a = { d {} [] with annotations := a }) (hline : (d {} []).span.first = line) :
    Acts true line fun f a => (act f a).addCallable (d f a) := by
  -- As for a type: one callable, which differs in its annotations only.
  have hadded : AnnotatedOn line fun a => { callables := [d {} a] } :=
    { bare := fun a => by
        rw [hd {} a]
        rfl
      types := fun _ _ h => nomatch h
      callables := fun a c hc => by
        rw [List.mem_singleton.1 hc, hd {} a]
        exact ⟨rfl, hline⟩
      fields := fun _ _ h => nomatch h }
  refine (h.add hadded).congr fun f a => ?_
  rw [(hd f a).trans (hd {} a).symm]
  simp only [Outline.resume, Outline.addCallable, Declarations.append, List.append_nil]

/-- It may add fields with them. -/
theorem addAnnotatedFields (h : Acts true line act) {l : Declarations → List String → List FieldDecl}
    (hl : ∀ f a, l f a = (l {} []).map fun x => { x with annotations := a })
    (hline : ∀ x ∈ l {} [], x.span.first = line) :
    Acts true line fun f a => (act f a).addFields (l f a) := by
  -- Several fields may share the annotations, and all of them start on the line.
  have hadded : AnnotatedOn line fun a => { fields := l {} a } :=
    { bare := fun a => by
        rw [hl {} a]
        simp [Declarations.bare]
      types := fun _ _ h => nomatch h
      callables := fun _ _ h => nomatch h
      fields := fun a x hx => by
        have hx : x ∈ l {} a := hx
        rw [hl {} a] at hx
        obtain ⟨y, hy, rfl⟩ := List.mem_map.1 hx
        exact .inr ⟨rfl, hline y hy⟩ }
  refine (h.add hadded).congr fun f a => ?_
  rw [(hl f a).trans (hl {} a).symm]
  simp only [Outline.resume, Outline.addFields, Declarations.append, List.append_nil]

/-- Any act may add fields without annotations. -/
theorem addFields (h : Acts clears line act) {l : Declarations → List String → List FieldDecl}
    (hl : ∀ f a, l f a = l {} []) (hbare : ∀ x ∈ l {} [], x.annotations = []) :
    Acts clears line fun f a => (act f a).addFields (l f a) := by
  have hadded : AnnotatedOn line fun _ => { fields := l {} [] } := .of_bare rfl rfl hbare
  refine (h.addBare hadded).congr fun f a => ?_
  rw [hl f a]
  simp only [Outline.resume, Outline.addFields, Declarations.append, List.append_nil]

/-- Any act may add calls. -/
theorem addCalls (h : Acts clears line act) (l : List CallSite) :
    Acts clears line fun f a => (act f a).addCalls l := by
  have hadded : AnnotatedOn line fun _ => { calls := l } := .of_bare rfl rfl fun _ h => nomatch h
  refine (h.addBare hadded).congr fun f a => ?_
  simp only [Outline.resume, Outline.addCalls, Declarations.append, List.append_nil]

/-- Any act may add an import. -/
theorem addImport (h : Acts clears line act) (d : ImportDecl) :
    Acts clears line fun f a => (act f a).addImport d := by
  have hadded : AnnotatedOn line fun _ => { imports := [d] } := .of_bare rfl rfl fun _ h => nomatch h
  refine (h.addBare hadded).congr fun f a => ?_
  simp only [Outline.resume, Outline.addImport, Declarations.append, List.append_nil]

/-- Any act may open a body. -/
theorem enter (h : Acts clears line act) (lines : List SourceLine) (headerEnd : Nat)
    {body : Declarations → List String → Nat → OpenBody} (hbody : ∀ f a, body f a = body {} [])
    (hdepth : ∀ n, (body {} [] n).depth = n) :
    Acts clears line fun f a => (act f a).enter lines headerEnd (body f a) := by
  -- Which body is open next depends on the lines alone.
  have hmove := h.move (fun o => o.enter lines headerEnd (body {} [])) (fun o f a => ?_) fun o ho => ?_
  · exact hmove.congr fun f a => by rw [hbody f a]
  · unfold Outline.enter
    split
    · split <;> rfl
    · rfl
  · unfold Outline.enter
    split
    next first _ _ _ =>
      split
      · intro b hb
        rcases List.mem_cons.1 hb with rfl | hb
        · rw [hdepth]
          exact Nat.succ_pos first.depth
        · exact ho b hb
      · exact ho
    · exact ho

end Acts

/-- **What a line declares**, as a function of the declarations so far and of the annotations that wait:
an act, and a number of lines that depends on neither. -/
def Declares (line : Nat) (act : Declarations → List String → Outline × Nat) : Prop :=
  ∃ clears taken out, Acts clears line out ∧ ∀ f a, act f a = (out f a, taken)

/-- An act with a number of lines is what a line declares. -/
theorem Acts.declares {clears : Bool} {line : Nat} {act : Declarations → List String → Outline}
    (h : Acts clears line act) (taken : Nat) : Declares line fun f a => (act f a, taken) :=
  ⟨clears, taken, act, h, fun _ _ => rfl⟩

/-! ### Kotlin -/

namespace Kotlin

open Text

variable {line : SourceLine} {rest : List SourceLine} {o : Outline}

/-- A type of Kotlin takes the annotations that wait. -/
theorem declares_declareType (ho : o.Deep) :
    Declares line.number fun f a => declareType line rest (o.resume f a) := by
  rcases hheader : SourceLine.header (line :: rest) with ⟨header, headerEnd⟩
  simp only [declareType, hheader]
  rcases typePattern.match? (Fragment.stripAnnotations header).2 with _ | c
  · exact (Acts.resume ho).declares 0
  dsimp only
  -- A header without a name declares nothing, and the annotations go on waiting.
  rcases typeName? c (wordList (c.group 1)) with _ | name
  · exact (Acts.resume ho).declares 0
  refine Acts.declares (.enter (.addType (.addFields (.clear (.resume ho)) ?_ ?_) ?_ ?_) _ _ ?_ ?_) _
  · exact fun _ _ => rfl
  · -- The properties of the constructor have no annotations.
    intro x hx
    obtain ⟨p, -, rfl⟩ := List.mem_map.1 hx
    rfl
  · exact fun _ _ => rfl
  · rfl
  · exact fun _ _ => rfl
  · exact fun _ => rfl

/-- So does a function. -/
theorem declares_declareFunction (ho : o.Deep) :
    Declares line.number fun f a => declareFunction line rest (o.resume f a) := by
  rcases hheader : SourceLine.header (line :: rest) with ⟨header, headerEnd⟩
  simp only [declareFunction, hheader]
  rcases functionPattern.match? (Fragment.stripAnnotations header).2 with _ | c
  · exact (Acts.resume ho).declares 0
  refine Acts.declares (.addCalls (.addCallable (.clear (.resume ho)) ?_ ?_) _) _
  · exact fun _ _ => rfl
  · rfl

theorem acts_declareAlias (c : Cursor) (code : List Char) (ho : o.Deep) :
    Acts true line.number fun f a => declareAlias c code line (o.resume f a) := by
  unfold declareAlias
  exact .addType (.clear (.resume ho)) (fun _ _ => rfl) rfl

theorem acts_declareProperty (c : Cursor) (ho : o.Deep) :
    Acts true line.number fun f a => declareProperty c line (o.resume f a) := by
  unfold declareProperty
  refine .addCalls (.addAnnotatedFields (.clear (.resume ho)) (fun _ _ => rfl) fun x hx => ?_) _
  rw [List.mem_singleton.1 hx]
  rfl

/-- A package directive leaves the annotations waiting. -/
theorem acts_declarePackage (c : Cursor) (ho : o.Deep) :
    Acts false line.number fun f a => declarePackage c line (o.resume f a) :=
  (Acts.resume ho).move (declarePackage c line) (fun _ _ _ => rfl) fun _ h => h

/-- **A line of Kotlin** takes or drops the annotations that wait, or leaves them. -/
theorem declares_declare (code : List Char) (ho : o.Deep) :
    Declares line.number fun f a => declare code line rest (o.resume f a) := by
  unfold declare
  -- The patterns are tried in this order, and each branch is one of the acts above.
  rcases packagePattern.match? code with _ | c
  · rcases importPattern.match? code with _ | c
    · rcases aliasPattern.match? code with _ | c
      · dsimp only
        by_cases htype : typePattern.startsIn code = true
        · simp only [if_pos htype]
          exact declares_declareType ho
        · simp only [if_neg htype]
          by_cases hfunction : functionPattern.startsIn code = true
          · simp only [if_pos hfunction]
            exact declares_declareFunction ho
          · simp only [if_neg hfunction]
            rcases propertyPattern.match? code with _ | c
            · exact Acts.declares (.addCalls (.clear (.resume ho)) _) 0
            · exact (acts_declareProperty c ho).declares 0
      · exact (acts_declareAlias c code ho).declares 0
    · exact Acts.declares (.addImport (.resume ho) _) 0
  · exact (acts_declarePackage c ho).declares 0

/-- A package directive or an import. -/
def IsDirective (code : List Char) : Prop :=
  (packagePattern.match? code).isSome ∨ (importPattern.match? code).isSome

/-- **A directive leaves the annotations waiting**, and it takes one line. -/
theorem declare_of_isDirective {code : List Char} (h : IsDirective code) (o : Outline) :
    (declare code line rest o).1.annotations = o.annotations ∧ (declare code line rest o).2 = 0 := by
  unfold declare
  split
  next => exact ⟨rfl, rfl⟩
  next hpackage =>
    split
    next => exact ⟨rfl, rfl⟩
    next himport =>
      rw [IsDirective, hpackage, himport] at h
      exact absurd h (by decide)

end Kotlin

/-! ### Dart -/

namespace Dart

open Text

variable {line : SourceLine} {rest : List SourceLine} {o : Outline}

/-- The values of an enumeration have no annotations. -/
theorem annotations_of_mem_enumFields {number : Nat} {code : List Char} {owner enumName : String}
    {f : FieldDecl} (hf : f ∈ enumFields number code owner enumName) : f.annotations = [] := by
  obtain ⟨value, -, hvalue⟩ := List.mem_filterMap.1 hf
  obtain ⟨name, -, rfl⟩ := Option.map_eq_some_iff.1 hvalue
  rfl

/-- A type of Dart takes the annotations that wait. -/
theorem declares_declareType (head : TypeHead) (ho : o.Deep) :
    Declares line.number fun f a => declareType head line rest (o.resume f a) := by
  rcases hheader : SourceLine.header (line :: rest) with ⟨header, headerEnd⟩
  simp only [declareType, hheader]
  refine Acts.declares (.enter (.addFields (.addType (.clear (.resume ho)) ?_ ?_) ?_ ?_) _ _ ?_ ?_) _
  · exact fun _ _ => rfl
  · rfl
  · exact fun _ _ => rfl
  · -- The values of an enumeration have no annotations.
    intro x hx
    obtain ⟨code, -, hx⟩ := exists_of_mem_getD_map hx
    exact annotations_of_mem_enumFields hx
  · exact fun _ _ => rfl
  · exact fun _ => rfl

/-- So does an alias, if it has a name. -/
theorem declares_declareAlias (code : List Char) (ho : o.Deep) :
    Declares line.number fun f a => (declareAlias code line (o.resume f a), 0) := by
  unfold declareAlias
  extract_lets body name
  by_cases hname : name = []
  · -- An alias without a name declares nothing, and the annotations go on waiting.
    simp only [if_pos hname]
    exact (Acts.resume ho).declares 0
  · simp only [if_neg hname]
    refine Acts.declares (.addType (.clear (.resume ho)) ?_ ?_) 0
    · exact fun _ _ => rfl
    · rfl

/-- A directive leaves them waiting. -/
theorem acts_declareDirective (word : String) (code : List Char) (ho : o.Deep) :
    Acts false line.number fun f a => declareDirective word code line (o.resume f a) := by
  unfold declareDirective
  rcases quotedPattern.search? line.raw with _ | c
  · exact .resume ho
  · exact .addImport (.resume ho) _

theorem acts_declareLibrary (c : Cursor) (ho : o.Deep) :
    Acts false line.number fun f a => declareLibrary c line (o.resume f a) :=
  (Acts.resume ho).move (declareLibrary c line) (fun _ _ _ => rfl) fun _ h => h

/-- A getter takes them. -/
theorem declares_declareGetter (front : List String) (name : String) (headerEnd : Nat) (ho : o.Deep) :
    Declares line.number fun f a => declareGetter front name (line :: rest) headerEnd (o.resume f a) := by
  unfold declareGetter
  refine Acts.declares (.addCalls (.addCallable (.clear (.resume ho)) ?_ ?_) _) _
  · exact fun _ _ => rfl
  · rfl

/-- So do fields. -/
theorem declares_declareFields (header : List Char) (headerLine taken : Nat) (ho : o.Deep) :
    Declares line.number fun f a => (declareFields header line.number headerLine (o.resume f a), taken) := by
  unfold declareFields
  rcases Fragment.splitTopLevel (dropEndWhile (· == ';') header) ',' with _ | ⟨first, more⟩
  · exact (Acts.resume ho).declares taken
  dsimp only
  -- Without a name in front of the value there is no field.
  rcases (wordList (trim (before (· == '=') first))).getLast? with _ | name
  · exact (Acts.resume ho).declares taken
  refine Acts.declares (.addCalls (.addAnnotatedFields (.clear (.resume ho)) ?_ ?_) _) _
  · intro f a
    rw [List.map_map]
    rfl
  · intro x hx
    obtain ⟨n, -, rfl⟩ := List.mem_map.1 hx
    rfl

/-- So does a callable, if it has a name. -/
theorem declares_declareCallable (header : List Char) (headerEnd : Nat) (ho : o.Deep) :
    Declares line.number fun f a => declareCallable header (line :: rest) headerEnd (o.resume f a) := by
  unfold declareCallable
  rcases callableName? (wordList (before (· == '(') header)) with _ | ⟨front, written, isOperator⟩
  · exact (Acts.resume ho).declares 0
  dsimp only
  by_cases hname : (!isOperator && !isCallableName written) = true
  · -- A line that only looks like a callable drops the annotations.
    simp only [if_pos hname]
    exact (Acts.clear (.resume ho)).declares 0
  · simp only [if_neg hname]
    refine Acts.declares (.addCalls (.addCallable (.clear (.resume ho)) ?_ ?_) _) _
    · exact fun _ _ => rfl
    · rfl

/-- So does a member, and a line that is none drops them. -/
theorem declares_declareMember (ho : o.Deep) :
    Declares line.number fun f a => declareMember line rest (o.resume f a) := by
  rcases hheader : SourceLine.header (line :: rest) with ⟨header, headerEnd⟩
  -- Three branches end in the same way: the annotations are dropped, and only calls are kept.
  have hother : Declares line.number fun f a =>
      (((o.resume f a).clearAnnotations.addCalls (lineCalls line)), 0) :=
    Acts.declares (.addCalls (.clear (.resume ho)) _) 0
  simp only [declareMember, hheader]
  by_cases hstatement : startsStatement (trim (Fragment.stripAnnotations header).2) = true
  · simp only [if_pos hstatement]
    exact hother
  simp only [if_neg hstatement]
  -- How the header was cut plays no part from here on.
  generalize trim (Fragment.stripAnnotations header).2 = header
  generalize beforeText "=>".toList (before (fun c => c == '\x7b' || c == ';') header) = decl
  by_cases hparen : parenFirst decl = true
  · simp only [if_pos hparen]
    exact declares_declareCallable header headerEnd ho
  simp only [if_neg hparen]
  generalize (wordList decl).takeWhile (· ≠ "get") = front
  rcases (wordList decl).drop (front.length + 1) with _ | ⟨name, more⟩
  · dsimp only
    by_cases hfield : header.getLast? = some ';' ∨ decl.contains '=' = true
    · simp only [if_pos hfield]
      exact declares_declareFields header _ headerEnd ho
    · simp only [if_neg hfield]
      exact hother
  · exact declares_declareGetter front name headerEnd ho

/-- Outside of an enumeration, a line is a directive, an alias, a type or a member. -/
theorem declares_declareOther (code : List Char) (ho : o.Deep) :
    Declares line.number fun f a => declareOther code line rest (o.resume f a) := by
  unfold declareOther
  -- The patterns are tried one after the other, so a later form is only reached when all earlier ones fail.
  rcases libraryPattern.match? code with _ | c
  · rcases directivePattern.match? code with _ | c
    · dsimp only
      by_cases halias : startsWith "typedef ".toList code = true
      · simp only [if_pos halias]
        exact declares_declareAlias code ho
      · simp only [if_neg halias]
        rcases typeHead? code with _ | head
        · exact declares_declareMember ho
        · exact declares_declareType head ho
    · dsimp only
      by_cases howner : (c.group? 2).isSome = true
      · simp only [if_pos howner]
        exact (Acts.resume ho).declares 0
      · simp only [if_neg howner]
        exact (acts_declareDirective _ code ho).declares 0
  · exact (acts_declareLibrary c ho).declares 0

/-- The values of an enumeration leave the annotations waiting. -/
theorem acts_declareValues {body : OpenBody} {bodies : List OpenBody} (hbodies : o.bodies = body :: bodies)
    (code : List Char) (ho : o.Deep) :
    Acts false line.number fun f a => declareValues body bodies code line (o.resume f a) := by
  -- The body stays where it is; only the mark that it lists values may go.
  have hnext : Outline.Deep { o with bodies := { body with listsValues := !valuesEnd code } :: bodies } := by
    intro b hb
    rcases List.mem_cons.1 hb with rfl | hb
    · exact ho body (by rw [hbodies]; exact List.mem_cons_self)
    · exact ho b (by rw [hbodies]; exact List.mem_cons_of_mem _ hb)
  refine (Acts.addFields (.resume hnext) (fun _ _ => rfl) fun x hx => ?_).congr fun f a => rfl
  exact annotations_of_mem_enumFields hx

/-- **A line of Dart** takes or drops the annotations that wait, or leaves them. -/
theorem declares_declare (code : List Char) (ho : o.Deep) :
    Declares line.number fun f a => declare code line rest (o.resume f a) := by
  have hresume (f : Declarations) (a : List String) : (o.resume f a).bodies = o.bodies := rfl
  simp only [declare, hresume]
  rcases hbodies : o.bodies with _ | ⟨body, bodies⟩
  · -- At the top of a file there are no values of an enumeration.
    exact declares_declareOther code ho
  · dsimp only
    -- Values take annotations of their own, so those that wait stay.
    by_cases hvalues : body.listsValues = true
    · simp only [if_pos hvalues]
      exact (acts_declareValues hbodies code ho).declares 0
    · simp only [if_neg hvalues]
      exact declares_declareOther code ho

/-- A library directive, an import, an export or a part. -/
def IsDirective (code : List Char) : Prop :=
  (libraryPattern.match? code).isSome ∨ (directivePattern.match? code).isSome

/-- **A directive leaves the annotations waiting**, and it takes one line. -/
theorem declare_of_isDirective {code : List Char} (h : IsDirective code) (hbodies : o.bodies = []) :
    (declare code line rest o).1.annotations = o.annotations ∧ (declare code line rest o).2 = 0 := by
  have hother : declare code line rest o = declareOther code line rest o := by
    rw [declare, hbodies]
  rw [hother]
  unfold declareOther
  split
  next => exact ⟨rfl, rfl⟩
  next hlibrary =>
    split
    next =>
      split
      · exact ⟨rfl, rfl⟩
      · unfold declareDirective
        split <;> exact ⟨rfl, rfl⟩
    -- Matched by neither of the two patterns, the line would be no directive.
    next hdirective =>
      rw [IsDirective, hlibrary, hdirective] at h
      exact absurd h (by decide)

end Dart

end CodeAtlas
