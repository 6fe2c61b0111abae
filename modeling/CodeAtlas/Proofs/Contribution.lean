import CodeAtlas.Graph.Plan
import CodeAtlas.Proofs.Change

/-!
# What a file contributes

Walking a file never looks into the working set: the changes that a file makes depend on the file alone.
This module lists them, part by part in the order of the walk, and shows that the walk applies exactly
them (`emitRecord_eq`, `addParsedFile_eq`). The working set after all files is then one list of changes
applied to the empty set (`foldl_addParsedFile`), and the runs over two lists of files can be compared by
comparing two lists.

The second half says where the ids in a contribution come from (`within_recordChanges`): apart from the
file itself, which may only be the source of a relationship, every id that a record's changes mention is
the id of a node that they fold in. The statement is generic in a predicate `D` on ids, so that it gives
both "the id is brought by the same contribution" and "the id is one of this language".
-/

namespace CodeAtlas

namespace FileSite

/-! ### The parts of a record -/

/-- The name and the node of the scope of a file. -/
def scopeNode? (f : FileSite) : Option RecordScope → Option (String × Node)
  | none => none
  | some scope =>
    let name := Text.trimmed scope.name
    if name = "" then none
    else
      some (name, (Node.shared (f.kind f.language.scopeCategory) name name f.path
        (max scope.line 1)).setText? "doc" scope.doc)

/-- The site once its scope is known. -/
def enter (f : FileSite) (scope : Option RecordScope) : FileSite :=
  match f.scopeNode? scope with
  | none => f
  | some (name, n) => { f with scope := some (name, n.id) }

/-- What the scope of a file contributes. -/
def scopeChanges (f : FileSite) (scope : Option RecordScope) : List Change :=
  match f.scopeNode? scope with
  | none => []
  | some (name, n) =>
    Change.declare n { file := f.path, scope := some name } ++
      [.relationship (.between .contains f.fileId n.id), .scope f.path name]

/-- What an import contributes. -/
def importChanges (f : FileSite) (d : ImportDecl) : List Change :=
  let n := d.node (f.kind .importLine) f.path
  [.node n, .relationship (.between .contains f.fileId n.id),
    .reference (.importing f.path f.language
      { path := d.path, member := d.member, wildcard := d.wildcard } d.line d.statement)]

/-- The node of a type at a site. -/
def typeNode (f : FileSite) (d : TypeDecl) : Node :=
  d.node (f.kind (f.language.typeCategory d.kind)) (f.qualify d.nestedName) f.path

/-- The site once a type is known. -/
def withType (f : FileSite) (d : TypeDecl) : FileSite :=
  { f with types := (d.nestedName, (f.typeNode d).id, f.qualify d.nestedName) :: f.types }

/-- The site once all types are known. -/
def withTypes (f : FileSite) (l : List TypeDecl) : FileSite :=
  l.foldl withType f

/-- What the nodes of types contribute. -/
def typeChanges : FileSite → List TypeDecl → List Change
  | _, [] => []
  | f, d :: l =>
    Change.declare (f.typeNode d) (f.origin ((f.owner? d.enclosing).map (·.1))) ++
      typeChanges (f.withType d) l

/-- The references of a type. -/
def typeRefs (f : FileSite) (id : String) (d : TypeDecl) : List Reference :=
  ((f.language.supertypes d).map fun (clause, name) => .supertype id name clause) ++
    ((f.language.extensionTarget? d).toList.map fun r => .extension id r) ++
    f.annotationRefs id d.annotations

/-- What a type contributes once all types are known. -/
def linkChanges (f : FileSite) (d : TypeDecl) : List Change :=
  match f.type? d.nestedName with
  | none => []
  | some (id, _) =>
    .relationship (f.link (f.owner? d.enclosing) id (f.language.typeCategory d.kind)) ::
      (f.typeRefs id d).map .reference

/-- What a member contributes: its node, its place and its references. -/
def memberChanges (f : FileSite) (n : Node) (owner : Option String) (c : Category)
    (refs : List Reference) : List Change :=
  Change.declare n (f.origin ((f.owner? owner).map (·.1))) ++
    .relationship (f.link (f.owner? owner) n.id c) :: refs.map .reference

/-- The node of a callable at a site. -/
def callableNode (f : FileSite) (d : CallableDecl) : Node :=
  d.node (f.kind (f.language.callableCategory d)) (memberName f (f.owner? d.owner) d.name) f.path

/-- The reference of a member that overrides another. -/
def overrideRefs (f : FileSite) (d : CallableDecl) : List Reference :=
  match f.owner? d.owner with
  | some (id, _) =>
    if f.language.isOverride d then [.overriding (f.callableNode d).id id d.name] else []
  | none => []

/-- What a callable contributes. -/
def callableChanges (f : FileSite) (d : CallableDecl) : List Change :=
  f.memberChanges (f.callableNode d) d.owner (f.language.callableCategory d)
    (f.overrideRefs d ++ receiverRefs (f.callableNode d).id d.receiver ++
      f.annotationRefs (f.callableNode d).id d.annotations)

/-- The node of a field at a site. -/
def fieldNode (f : FileSite) (d : FieldDecl) : Node :=
  let name := match f.owner? d.owner, d.receiver with
    | none, some receiver => simpleName receiver ++ "." ++ d.name
    | _, _ => d.name
  d.node (f.kind f.language.fieldCategory) (memberName f (f.owner? d.owner) name) f.path

/-- What a field contributes. -/
def fieldChanges (f : FileSite) (d : FieldDecl) : List Change :=
  f.memberChanges (f.fieldNode d) d.owner f.language.fieldCategory
    (receiverRefs (f.fieldNode d).id d.receiver ++ f.annotationRefs (f.fieldNode d).id d.annotations)

/-- The spans of callables, with their ids. -/
def spans (f : FileSite) (l : List CallableDecl) : List (Span × String) :=
  l.map fun d => (d.span, (f.callableNode d).id)

/-- **What a record contributes at a site.** -/
def recordChanges (f : FileSite) (r : SourceRecord) : List Change :=
  let d := r.facts
  let f₁ := f.enter r.scope?
  let f₂ := f₁.withTypes d.types
  f.scopeChanges r.scope? ++ d.imports.flatMap f₁.importChanges ++ f₁.typeChanges d.types ++
    d.types.flatMap f₂.linkChanges ++ d.callables.flatMap f₂.callableChanges ++
    d.fields.flatMap f₂.fieldChanges ++
    (d.calls.filterMap (callRef? (f₂.spans d.callables))).map .reference

end FileSite

/-- The site of a file, before anything in it is known. -/
def ParsedFile.site (f : ParsedFile) : FileSite :=
  { language := f.language, path := f.path, fileId := f.node.id }

/-- The site of a file is about the node of the file. -/
theorem ParsedFile.fileId_site (f : ParsedFile) : f.site.fileId = f.node.id := rfl

/-- **What a file contributes**: a warning if it is not built. -/
def ParsedFile.changes (f : ParsedFile) (languages : List Language) : List Change :=
  match f.built languages with
  | .error skip => [.warning skip.message]
  | .ok record => .node f.node :: .file f.path f.node.id :: f.site.recordChanges record

/-! ### The walk applies the contribution -/

/-- To emit a scope is to apply its changes and to enter it. -/
theorem emitScope_eq (s : WorkingSet) (f : FileSite) (scope : Option RecordScope) :
    emitScope s f scope = (s.applyAll (f.scopeChanges scope), f.enter scope) := by
  cases scope with
  | none => rfl
  | some scope =>
    unfold FileSite.scopeChanges FileSite.enter emitScope
    -- A blank name is no scope.
    by_cases h : Text.trimmed scope.name = ""
    · have hn : f.scopeNode? (some scope) = none := by
        unfold FileSite.scopeNode?
        exact if_pos h
      rw [hn]
      exact if_pos h
    · have hn : f.scopeNode? (some scope) = some (Text.trimmed scope.name,
          (Node.shared (f.kind f.language.scopeCategory) (Text.trimmed scope.name)
            (Text.trimmed scope.name) f.path (max scope.line 1)).setText? "doc" scope.doc) := by
        unfold FileSite.scopeNode?
        exact if_neg h
      rw [hn]
      exact if_neg h

theorem emitImport_eq (f : FileSite) (s : WorkingSet) (d : ImportDecl) :
    emitImport f s d = s.applyAll (f.importChanges d) := rfl

/-- To emit the nodes of types is to apply their changes, with each type known to those after it. -/
theorem foldl_emitTypeNode (l : List TypeDecl) (s : WorkingSet) (f : FileSite) :
    l.foldl emitTypeNode (s, f) = (s.applyAll (f.typeChanges l), f.withTypes l) := by
  -- The site grows along the list, since a type may be declared in an earlier one.
  induction l generalizing s f with
  | nil => rfl
  | cons d l ih =>
    rw [List.foldl_cons, FileSite.typeChanges, WorkingSet.applyAll_append]
    exact ih _ _

/-- To emit the links of a type is to apply its changes once all types are known. -/
theorem emitTypeLinks_eq (f : FileSite) (s : WorkingSet) (d : TypeDecl) :
    emitTypeLinks f s d = s.applyAll (f.linkChanges d) := by
  unfold emitTypeLinks FileSite.linkChanges
  cases f.type? d.nestedName with
  | none => rfl
  | some t =>
    obtain ⟨id, q⟩ := t
    dsimp only
    unfold FileSite.typeRefs
    -- The three lists of references are put aside one after the other.
    rw [List.map_append, List.map_append, WorkingSet.applyAll_cons, WorkingSet.applyAll_append,
      WorkingSet.applyAll_append, ← WorkingSet.deferAll_eq, ← WorkingSet.deferAll_eq,
      ← WorkingSet.deferAll_eq]
    rfl

/-- To emit a callable is to apply its changes and to note its span. -/
theorem emitCallable_eq (f : FileSite) (s : WorkingSet) (spans : List (Span × String))
    (d : CallableDecl) :
    emitCallable f (s, spans) d
      = (s.applyAll (f.callableChanges d), spans ++ [(d.span, (f.callableNode d).id)]) := by
  unfold FileSite.callableChanges FileSite.memberChanges
  rw [WorkingSet.applyAll_append, WorkingSet.applyAll_cons, ← WorkingSet.deferAll_eq]
  rfl

/-- So it is for all callables of a record. -/
theorem foldl_emitCallable (f : FileSite) (l : List CallableDecl) (s : WorkingSet)
    (spans : List (Span × String)) :
    l.foldl (emitCallable f) (s, spans)
      = (s.applyAll (l.flatMap f.callableChanges), spans ++ f.spans l) := by
  -- The set and the spans both grow along the list, so the induction is over any of the two.
  induction l generalizing s spans with
  | nil =>
    unfold FileSite.spans
    rw [List.map_nil, List.append_nil]
    rfl
  | cons d l ih =>
    rw [List.foldl_cons, emitCallable_eq, ih, List.flatMap_cons, WorkingSet.applyAll_append]
    unfold FileSite.spans
    rw [List.map_cons, List.append_assoc, List.singleton_append]

/-- To emit a field is to apply its changes. -/
theorem emitField_eq (f : FileSite) (s : WorkingSet) (d : FieldDecl) :
    emitField f s d = s.applyAll (f.fieldChanges d) := by
  unfold FileSite.fieldChanges FileSite.memberChanges
  rw [WorkingSet.applyAll_append, WorkingSet.applyAll_cons, ← WorkingSet.deferAll_eq]
  rfl

/-- **The walk over a record applies what the record contributes.** -/
theorem emitRecord_eq (s : WorkingSet) (f : FileSite) (r : SourceRecord) :
    emitRecord s f r = s.applyAll (f.recordChanges r) := by
  unfold emitRecord FileSite.recordChanges
  simp only [emitScope_eq, foldl_emitTypeNode, foldl_emitCallable, List.nil_append,
    WorkingSet.foldl_eq_applyAll (emitImport_eq _), WorkingSet.foldl_eq_applyAll (emitTypeLinks_eq _),
    WorkingSet.foldl_eq_applyAll (emitField_eq _), WorkingSet.deferAll_eq, WorkingSet.applyAll_append]

/-- **Walking a file applies its contribution.** -/
theorem addParsedFile_eq (languages : List Language) (s : WorkingSet) (f : ParsedFile) :
    addParsedFile languages s f = s.applyAll (f.changes languages) := by
  unfold addParsedFile ParsedFile.changes
  cases f.built languages with
  | error skip => rfl
  | ok record =>
    rw [WorkingSet.applyAll_cons, WorkingSet.applyAll_cons, ← emitRecord_eq]
    rfl

/-- **The working set after all files**, before references are resolved. -/
theorem foldl_addParsedFile (languages : List Language) (files : List ParsedFile) :
    files.foldl (addParsedFile languages) {}
      = ({} : WorkingSet).applyAll (files.flatMap (·.changes languages)) :=
  WorkingSet.foldl_eq_applyAll (addParsedFile_eq languages) files {}

/-! ### Where the ids of a contribution come from -/

/-- Whether a reference is one of a site: an import names the file and its language. -/
def Reference.From (f : FileSite) : Reference → Prop
  | .importing file l _ _ _ => file = f.path ∧ l = f.language
  | _ => True

/-- **A change that a record at a site may make**, if `D` is what it may mention. Relationships may start
at the file; no other change mentions it. -/
def Change.Within (D : String → Prop) (f : FileSite) : Change → Prop
  | .node n => D n.id
  | .declaration d => D d.id ∧ ∀ o ∈ d.origin.owner, D o
  | .scope path _ => path = f.path
  | .relationship r => (r.source = f.fileId ∨ D r.source) ∧ D r.target
  | .reference r => (∀ id ∈ r.ids, D id) ∧ r.From f
  | _ => False

/-- Such a change mentions nothing but the file and what it may mention. -/
theorem Change.Within.id_of_mem {D : String → Prop} {f : FileSite} {c : Change} (h : c.Within D f) :
    ∀ id ∈ c.ids, id = f.fileId ∨ D id := by
  intro id hid
  -- Each change mentions the ids that the condition lists for it; only a relationship may start at the file.
  cases c with
  | node n => exact .inr (List.mem_singleton.1 hid ▸ h)
  | declaration d =>
    rcases List.mem_cons.1 hid with rfl | hid
    · exact .inr h.1
    · exact .inr (h.2 id (Option.mem_toList.1 hid))
  | scope path name => cases hid
  | relationship r =>
    rcases List.mem_cons.1 hid with rfl | hid
    · exact h.1
    · exact .inr (List.mem_singleton.1 hid ▸ h.2)
  | reference r => exact .inr (h.1 id hid)
  | _ => exact h.elim

namespace FileSite

variable {D : String → Prop} {f : FileSite}

/-- The scope and the types of a site are among the ids that may be mentioned. -/
structure Known (D : String → Prop) (f : FileSite) : Prop where
  scope : ∀ e ∈ f.scope, D e.2
  types : ∀ e ∈ f.types, D e.2.1

/-- An owner is a type of the site, so its id may be mentioned. -/
theorem Known.owner (h : f.Known D) {nested : Option String} {t : String × String}
    (ht : f.owner? nested = some t) : D t.1 := by
  obtain ⟨name, -, hname⟩ := Option.bind_eq_some_iff.1 ht
  obtain ⟨l, r, hl, -⟩ := List.lookup_eq_some_iff.1 hname
  exact h.types (name, t) (by rw [hl]; simp)

/-- So it is where only the id of the owner is asked for. -/
theorem Known.ownerId (h : f.Known D) {nested : Option String} :
    ∀ o ∈ (f.owner? nested).map (·.1), D o := by
  intro o ho
  obtain ⟨t, ht, rfl⟩ := Option.map_eq_some_iff.1 ho
  exact h.owner ht

/-- The scope of a record becomes known with it. -/
theorem Known.enter (h : f.Known D) {scope : Option RecordScope}
    (hn : ∀ e ∈ f.scopeNode? scope, D e.2.id) : (f.enter scope).Known D := by
  unfold FileSite.enter
  cases hs : f.scopeNode? scope with
  | none => exact h
  | some e =>
    refine ⟨fun e' he' => ?_, h.types⟩
    obtain rfl := Option.some.inj he'
    exact hn e hs

/-- A type becomes known with its node. -/
theorem Known.withType (h : f.Known D) {d : TypeDecl} (hd : D (f.typeNode d).id) :
    (f.withType d).Known D := by
  refine ⟨h.scope, fun e he => ?_⟩
  rcases List.mem_cons.1 he with rfl | he
  · exact hd
  · exact h.types e he

/-- Entering a scope changes neither the file nor the language of a site. -/
theorem within_enter {scope : Option RecordScope} {c : Change} :
    c.Within D (f.enter scope) ↔ c.Within D f := by
  unfold FileSite.enter
  cases f.scopeNode? scope with
  | none => exact Iff.rfl
  | some e => exact Iff.rfl

/-- Knowing types changes neither the file nor the language of a site. -/
theorem within_withTypes {l : List TypeDecl} {c : Change} :
    c.Within D (f.withTypes l) ↔ c.Within D f := by
  induction l generalizing f with
  | nil => exact Iff.rfl
  | cons d l ih => exact ih

/-- A node that may be mentioned may be declared. -/
theorem within_declare {n : Node} {origin : Origin} (hn : D n.id) (ho : ∀ o ∈ origin.owner, D o) :
    ∀ c ∈ Change.declare n origin, c.Within D f := by
  intro c hc
  unfold Change.declare at hc
  rcases List.mem_cons.1 hc with rfl | hc
  · exact hn
  · obtain rfl := List.mem_singleton.1 hc
    exact ⟨hn, ho⟩

/-- References are within if what they mention is. -/
theorem within_refs {refs : List Reference} (h : ∀ r ∈ refs, (∀ id ∈ r.ids, D id) ∧ r.From f) :
    ∀ c ∈ refs.map Change.reference, c.Within D f := by
  intro c hc
  obtain ⟨r, hr, rfl⟩ := List.mem_map.1 hc
  exact h r hr

/-- A reference of one id. -/
theorem single_ref {r : Reference} {id : String} (hr : r.ids = [id]) (hf : r.From f) (h : D id) :
    (∀ i ∈ r.ids, D i) ∧ r.From f := by
  refine ⟨fun i hi => ?_, hf⟩
  rw [hr] at hi
  exact List.mem_singleton.1 hi ▸ h

/-- Annotations mention what is annotated. -/
theorem within_annotationRefs {id : String} {annotations : List String} (h : D id) :
    ∀ r ∈ f.annotationRefs id annotations, (∀ i ∈ r.ids, D i) ∧ r.From f := by
  intro r hr
  unfold annotationRefs at hr
  split at hr
  · obtain ⟨a, -, rfl⟩ := List.mem_map.1 hr
    exact single_ref rfl trivial h
  · cases hr

/-- A receiver is mentioned by its name, and what has the receiver by its id. -/
theorem within_receiverRefs {id : String} {receiver : Option String} (h : D id) :
    ∀ r ∈ receiverRefs id receiver, (∀ i ∈ r.ids, D i) ∧ r.From f := by
  intro r hr
  obtain ⟨a, -, rfl⟩ := List.mem_map.1 hr
  exact single_ref rfl trivial h

/-- A link mentions its target and somebody who may hold it. -/
theorem Known.link (h : f.Known D) {nested : Option String} {id : String} {c : Category} (hid : D id) :
    (Change.relationship (f.link (f.owner? nested) id c)).Within D f := by
  unfold FileSite.link
  cases ho : f.owner? nested with
  | some t => exact ⟨.inr (h.owner ho), hid⟩
  | none =>
    -- Outside of all types, the scope holds a declaration, or the file if there is no scope.
    change (Change.relationship (f.topLevelLink id c)).Within D f
    unfold topLevelLink
    cases hs : f.scope with
    | some e => exact ⟨.inr (h.scope e hs), hid⟩
    | none => exact ⟨.inl rfl, hid⟩

/-- What a scope changes is within. -/
theorem within_scopeChanges {scope : Option RecordScope}
    (hn : ∀ e ∈ f.scopeNode? scope, D e.2.id) : ∀ c ∈ f.scopeChanges scope, c.Within D f := by
  intro c hc
  unfold scopeChanges at hc
  cases hs : f.scopeNode? scope with
  | none =>
    rw [hs] at hc
    cases hc
  | some e =>
    rw [hs] at hc
    have he : D e.2.id := hn e hs
    -- The scope is declared as an owner of nothing, then entered, and its name is listed.
    rcases List.mem_append.1 hc with hc | hc
    · exact within_declare he (fun o ho => absurd ho (Option.not_mem_none o)) c hc
    · rcases List.mem_cons.1 hc with rfl | hc
      · exact ⟨.inl rfl, he⟩
      · obtain rfl := List.mem_singleton.1 hc
        rfl

/-- What an import changes is within. -/
theorem within_importChanges {d : ImportDecl} (hn : D (d.node (f.kind .importLine) f.path).id) :
    ∀ c ∈ f.importChanges d, c.Within D f := by
  intro c hc
  unfold importChanges at hc
  rcases List.mem_cons.1 hc with rfl | hc
  · exact hn
  rcases List.mem_cons.1 hc with rfl | hc
  · exact ⟨.inl rfl, hn⟩
  · obtain rfl := List.mem_singleton.1 hc
    exact ⟨fun i hi => absurd hi List.not_mem_nil, rfl, rfl⟩

/-- The types of a site stay known while they are declared one after the other. -/
theorem within_typeChanges (h : f.Known D) {l : List TypeDecl}
    (hn : ∀ n, Change.node n ∈ f.typeChanges l → D n.id) :
    (f.withTypes l).Known D ∧ ∀ c ∈ f.typeChanges l, c.Within D f := by
  induction l generalizing f with
  | nil => exact ⟨h, fun c hc => nomatch hc⟩
  | cons d l ih =>
    -- The next types are declared at a site that knows this one already.
    have hd : D (f.typeNode d).id := hn _ (List.mem_append_left _ List.mem_cons_self)
    obtain ⟨hk, hl⟩ := ih (h.withType hd) fun n hm => hn n (List.mem_append_right _ hm)
    refine ⟨hk, fun c hc => ?_⟩
    rcases List.mem_append.1 hc with hc | hc
    · exact within_declare hd h.ownerId c hc
    · exact hl c hc

/-- What the links of a type change is within. -/
theorem within_linkChanges (h : f.Known D) {d : TypeDecl} :
    ∀ c ∈ f.linkChanges d, c.Within D f := by
  intro c hc
  unfold linkChanges at hc
  cases ht : f.type? d.nestedName with
  | none =>
    rw [ht] at hc
    cases hc
  | some t =>
    rw [ht] at hc
    -- The id is that of the last type of the name, which is known by now.
    obtain ⟨id, q⟩ := t
    have hid : D id := by
      obtain ⟨l, r, hl, -⟩ := List.lookup_eq_some_iff.1 ht
      exact h.types (d.nestedName, id, q) (by rw [hl]; simp)
    rcases List.mem_cons.1 hc with rfl | hc
    · exact h.link hid
    · refine within_refs (fun r hr => ?_) c hc
      unfold typeRefs at hr
      rcases List.mem_append.1 hr with hr | hr
      · rcases List.mem_append.1 hr with hr | hr
        · obtain ⟨x, -, rfl⟩ := List.mem_map.1 hr
          exact single_ref rfl trivial hid
        · obtain ⟨x, -, rfl⟩ := List.mem_map.1 hr
          exact single_ref rfl trivial hid
      · exact within_annotationRefs hid r hr

/-- What a member changes is within if its references are. -/
theorem within_memberChanges (h : f.Known D) {n : Node} {owner : Option String} {k : Category}
    {refs : List Reference} (hn : D n.id) (hr : ∀ r ∈ refs, (∀ id ∈ r.ids, D id) ∧ r.From f) :
    ∀ c ∈ f.memberChanges n owner k refs, c.Within D f := by
  intro c hc
  unfold memberChanges at hc
  rcases List.mem_append.1 hc with hc | hc
  · exact within_declare hn h.ownerId c hc
  · rcases List.mem_cons.1 hc with rfl | hc
    · exact h.link hn
    · exact within_refs hr c hc

/-- What a callable changes is within. -/
theorem within_callableChanges (h : f.Known D) {d : CallableDecl} (hn : D (f.callableNode d).id) :
    ∀ c ∈ f.callableChanges d, c.Within D f := by
  refine within_memberChanges h hn fun r hr => ?_
  -- References to what it overrides, to its receiver and to its annotations.
  rcases List.mem_append.1 hr with hr | hr
  · rcases List.mem_append.1 hr with hr | hr
    · unfold overrideRefs at hr
      cases ho : f.owner? d.owner with
      | none =>
        rw [ho] at hr
        cases hr
      | some t =>
        rw [ho] at hr
        dsimp only at hr
        split at hr
        · obtain rfl := List.mem_singleton.1 hr
          refine ⟨fun i hi => ?_, trivial⟩
          rcases List.mem_cons.1 hi with rfl | hi
          · exact hn
          · exact List.mem_singleton.1 hi ▸ h.owner ho
        · cases hr
    · exact within_receiverRefs hn r hr
  · exact within_annotationRefs hn r hr

theorem within_fieldChanges (h : f.Known D) {d : FieldDecl} (hn : D (f.fieldNode d).id) :
    ∀ c ∈ f.fieldChanges d, c.Within D f := by
  refine within_memberChanges h hn fun r hr => ?_
  rcases List.mem_append.1 hr with hr | hr
  · exact within_receiverRefs hn r hr
  · exact within_annotationRefs hn r hr

theorem shorterSpan_eq_or (e a : Span × String) : shorterSpan e a = e ∨ shorterSpan e a = a := by
  unfold shorterSpan
  split
  · exact .inr rfl
  · exact .inl rfl

/-- The shortest span is the first one or one of the rest. -/
theorem foldl_shorterSpan_eq_or_mem (l : List (Span × String)) (e : Span × String) :
    l.foldl shorterSpan e = e ∨ l.foldl shorterSpan e ∈ l := by
  induction l generalizing e with
  | nil => exact .inl rfl
  | cons a l ih =>
    rw [List.foldl_cons]
    rcases ih (shorterSpan e a) with hl | hl
    · rw [hl]
      -- None of the rest is shorter, so it is one of the first two.
      rcases shorterSpan_eq_or e a with ha | ha
      · exact .inl ha
      · exact .inr (ha.symm ▸ List.mem_cons_self)
    · exact .inr (List.mem_cons_of_mem a hl)

/-- The innermost callable is one of those that are listed. -/
theorem mem_of_innermost? {spans : List (Span × String)} {line : Nat} {id : String}
    (h : innermost? spans line = some id) : ∃ e ∈ spans, e.2 = id := by
  unfold innermost? at h
  -- The search starts from the first span around the line, if there is one.
  cases hl : spans.filter (fun e => e.1.contains line) with
  | nil =>
    rw [hl] at h
    cases h
  | cons e rest =>
    rw [hl] at h
    have hmem : rest.foldl shorterSpan e ∈ spans := by
      apply List.mem_of_mem_filter (p := fun e => e.1.contains line)
      rw [hl]
      rcases foldl_shorterSpan_eq_or_mem rest e with hr | hr
      · rw [hr]
        exact List.mem_cons_self
      · exact List.mem_cons_of_mem e hr
    exact ⟨_, hmem, Option.some.inj h⟩

/-- **Every id in what a record contributes** is the id of a node of the contribution, or the file as the
source of a relationship. -/
theorem within_recordChanges {r : SourceRecord} (h : f.Known D)
    (hn : ∀ n, Change.node n ∈ f.recordChanges r → D n.id) :
    ∀ c ∈ f.recordChanges r, c.Within D f := by
  unfold recordChanges at hn ⊢
  dsimp only at hn ⊢
  -- Which nodes each part folds in, read off the hypothesis on the whole.
  have hscope : ∀ e ∈ f.scopeNode? r.scope?, D e.2.id := by
    intro e he
    refine hn e.2 ?_
    simp only [List.mem_append]
    refine .inl (.inl (.inl (.inl (.inl (.inl ?_)))))
    unfold scopeChanges
    rw [he]
    exact List.mem_append_left _ List.mem_cons_self
  have hk₁ : (f.enter r.scope?).Known D := h.enter hscope
  obtain ⟨hk₂, htypes⟩ := within_typeChanges hk₁ (l := r.facts.types) fun n hm =>
    hn n (by simp only [List.mem_append]; exact .inl (.inl (.inl (.inl (.inr hm)))))
  have hcallable : ∀ d ∈ r.facts.callables,
      D (((f.enter r.scope?).withTypes r.facts.types).callableNode d).id := by
    intro d hd
    refine hn _ ?_
    simp only [List.mem_append]
    exact .inl (.inl (.inr (List.mem_flatMap.2 ⟨d, hd, List.mem_append_left _ List.mem_cons_self⟩)))
  have hfield : ∀ d ∈ r.facts.fields,
      D (((f.enter r.scope?).withTypes r.facts.types).fieldNode d).id := by
    intro d hd
    refine hn _ ?_
    simp only [List.mem_append]
    exact .inl (.inr (List.mem_flatMap.2 ⟨d, hd, List.mem_append_left _ List.mem_cons_self⟩))
  intro c hc
  simp only [List.mem_append] at hc
  -- Scope, imports, types, links of types, callables, fields, calls.
  rcases hc with (((((hc | hc) | hc) | hc) | hc) | hc) | hc
  · exact within_scopeChanges hscope c hc
  · obtain ⟨d, hd, hc⟩ := List.mem_flatMap.1 hc
    refine within_enter.1 (within_importChanges (hn _ ?_) c hc)
    simp only [List.mem_append]
    exact .inl (.inl (.inl (.inl (.inl (.inr (List.mem_flatMap.2 ⟨d, hd, List.mem_cons_self⟩))))))
  · exact within_enter.1 (htypes c hc)
  · obtain ⟨d, -, hc⟩ := List.mem_flatMap.1 hc
    exact within_enter.1 (within_withTypes.1 (within_linkChanges hk₂ c hc))
  · obtain ⟨d, hd, hc⟩ := List.mem_flatMap.1 hc
    exact within_enter.1 (within_withTypes.1 (within_callableChanges hk₂ (hcallable d hd) c hc))
  · obtain ⟨d, hd, hc⟩ := List.mem_flatMap.1 hc
    exact within_enter.1 (within_withTypes.1 (within_fieldChanges hk₂ (hfield d hd) c hc))
  · -- A call is made by a callable of the record.
    refine within_refs (fun ref href => ?_) c hc
    obtain ⟨site, -, hsite⟩ := List.mem_filterMap.1 href
    obtain ⟨caller, hcaller, rfl⟩ := Option.map_eq_some_iff.1 hsite
    obtain ⟨e, he, rfl⟩ := mem_of_innermost? hcaller
    obtain ⟨d, hd, rfl⟩ := List.mem_map.1 he
    exact single_ref rfl trivial (hcallable d hd)

end FileSite

/-- Nothing is known at a site before its record is walked. -/
theorem ParsedFile.known_site {D : String → Prop} (f : ParsedFile) : f.site.Known D where
  scope e he := absurd he (Option.not_mem_none e)
  types _ he := absurd he List.not_mem_nil

end CodeAtlas
