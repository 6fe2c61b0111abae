import CodeAtlas.Proofs.NodeIdentity
import CodeAtlas.Proofs.Tables

/-!
# The nodes and the links of a record

What a record contributes is one list of changes of several sorts. Here the two sorts that make up the
graph are taken out of it: the nodes, one for each declaration (`recordNodes`), and the links, one for each
place that a declaration is put in (`recordLinks`). The walk folds in exactly these nodes and relates
exactly these ends, in this order (`filterMap_node?_recordChanges`,
`filterMap_relationship?_recordChanges`), so later statements about the nodes and links of a record are
statements about two short lists.

A nested name stands for **the last type** of the record that has it (`type?_withTypes`); this is what
members and nested types are linked by, and the links of types themselves.
-/

namespace CodeAtlas

namespace FileSite

/-! ### Sites along the walk -/

/-- The site at which the members of a record are declared: its scope and all its types are known. -/
def inside (f : FileSite) (r : SourceRecord) : FileSite :=
  (f.enter r.scope?).withTypes r.facts.types

theorem typeNode_withType (f : FileSite) (d e : TypeDecl) : (f.withType d).typeNode e = f.typeNode e := rfl

theorem qualify_withType (f : FileSite) (d : TypeDecl) (name : String) :
    (f.withType d).qualify name = f.qualify name := rfl

/-- Types change nothing about the file and the scope of a site. -/
theorem withTypes_eq (f : FileSite) (l : List TypeDecl) :
    f.withTypes l = { f with types := (f.withTypes l).types } := by
  induction l generalizing f with
  | nil => rfl
  | cons d l ih => exact ih (f.withType d)

/-- The file keeps its id inside a scope. -/
theorem fileId_enter (f : FileSite) (scope : Option RecordScope) :
    (f.enter scope).fileId = f.fileId := by
  unfold enter
  cases f.scopeNode? scope with
  | none => rfl
  | some e => rfl

/-- No types are known by entering a scope. -/
theorem types_enter (f : FileSite) (scope : Option RecordScope) :
    (f.enter scope).types = f.types := by
  unfold enter
  cases f.scopeNode? scope with
  | none => rfl
  | some e => rfl

/-- The last type of a list with a nested name. -/
def lastNamed? (l : List TypeDecl) (nested : String) : Option TypeDecl :=
  l.reverse.find? fun d => d.nestedName == nested

/-- A later type of the name goes before an earlier one. -/
theorem lastNamed?_cons (d : TypeDecl) (l : List TypeDecl) (nested : String) :
    lastNamed? (d :: l) nested
      = (lastNamed? l nested).or (if d.nestedName = nested then some d else none) := by
  unfold lastNamed?
  rw [List.reverse_cons, List.find?_append, List.find?_singleton]
  simp only [beq_iff_eq]

/-- What is found is a type of the list, and of the name. -/
theorem lastNamed?_eq_some {l : List TypeDecl} {nested : String} {d : TypeDecl}
    (h : lastNamed? l nested = some d) : d ∈ l ∧ d.nestedName = nested :=
  ⟨List.mem_reverse.1 (List.mem_of_find?_eq_some h), by simpa using List.find?_some h⟩

/-- A name that is there stands for some type. -/
theorem exists_lastNamed? {l : List TypeDecl} {d : TypeDecl} (h : d ∈ l) :
    ∃ e, lastNamed? l d.nestedName = some e := by
  refine Option.isSome_iff_exists.1 (List.find?_isSome.2 ⟨d, List.mem_reverse.2 h, ?_⟩)
  exact beq_self_eq_true d.nestedName

/-- **A nested name stands for the last type that has it.** -/
theorem type?_withTypes (f : FileSite) (l : List TypeDecl) (nested : String) :
    (f.withTypes l).type? nested
      = ((lastNamed? l nested).map fun d => ((f.typeNode d).id, f.qualify nested)).or
          (f.type? nested) := by
  induction l generalizing f with
  | nil => rfl
  | cons d l ih =>
    -- A later type of the name hides this one; without one, this one hides what was known before.
    have hhead : (f.withType d).type? nested
        = if d.nestedName = nested then some ((f.typeNode d).id, f.qualify nested) else f.type? nested := by
      unfold type? withType
      rw [List.lookup_cons]
      by_cases h : d.nestedName = nested
      · simp [h]
      · have hb : (nested == d.nestedName) = false := by simpa using Ne.symm h
        simp [h, hb]
    change ((f.withType d).withTypes l).type? nested = _
    rw [ih, hhead, lastNamed?_cons]
    simp only [typeNode_withType, qualify_withType]
    cases lastNamed? l nested with
    | some e => rfl
    | none =>
      by_cases h : d.nestedName = nested
      · simp [h]
      · simp [h]

/-! ### Nodes -/

/-- The node of an import at a site. -/
def importNode (f : FileSite) (d : ImportDecl) : Node :=
  d.node (f.kind .importLine) f.path

/-- **The nodes of a record**: one for its scope, if it has one, and one for each declaration. -/
def recordNodes (f : FileSite) (r : SourceRecord) : List Node :=
  (f.scopeNode? r.scope?).toList.map (·.2) ++ r.facts.imports.map (f.inside r).importNode ++
    r.facts.types.map (f.inside r).typeNode ++ r.facts.callables.map (f.inside r).callableNode ++
    r.facts.fields.map (f.inside r).fieldNode

/-- A type has the same node wherever its own nested name is known. -/
theorem typeNode_withTypes (f : FileSite) (l : List TypeDecl) (d : TypeDecl) :
    (f.withTypes l).typeNode d = f.typeNode d := by
  rw [withTypes_eq]
  rfl

/-- Types change no node of an import. -/
theorem importNode_withTypes (f : FileSite) (l : List TypeDecl) (d : ImportDecl) :
    (f.withTypes l).importNode d = f.importNode d := by
  rw [withTypes_eq]
  rfl

/-- The nodes that types contribute are their own. -/
theorem filterMap_node?_typeChanges (f : FileSite) (l : List TypeDecl) :
    (f.typeChanges l).filterMap Change.node? = l.map f.typeNode := by
  induction l generalizing f with
  | nil => rfl
  | cons d l ih =>
    rw [typeChanges, List.filterMap_append, ih]
    rfl

/-- The links of types contribute none. -/
theorem filterMap_node?_linkChanges (f : FileSite) (d : TypeDecl) :
    (f.linkChanges d).filterMap Change.node? = [] := by
  unfold linkChanges
  cases f.type? d.nestedName with
  | none => rfl
  | some t => exact Change.filterMap_references _ (fun _ => rfl) _

/-- A member contributes its own. -/
theorem filterMap_node?_memberChanges (f : FileSite) (n : Node) (owner : Option String) (c : Category)
    (refs : List Reference) : (f.memberChanges n owner c refs).filterMap Change.node? = [n] := by
  unfold memberChanges
  rw [List.filterMap_append, List.filterMap_cons_none rfl, Change.filterMap_references _ fun _ => rfl]
  rfl

/-- **A record folds in its nodes.** -/
theorem filterMap_node?_recordChanges (f : FileSite) (r : SourceRecord) :
    (f.recordChanges r).filterMap Change.node? = f.recordNodes r := by
  have hscope : (f.scopeChanges r.scope?).filterMap Change.node?
      = (f.scopeNode? r.scope?).toList.map (·.2) := by
    unfold scopeChanges
    cases f.scopeNode? r.scope? with
    | none => rfl
    | some e => rfl
  have himport : ∀ d : ImportDecl, ((f.enter r.scope?).importChanges d).filterMap Change.node?
      = [(f.inside r).importNode d] := by
    intro d
    unfold inside
    rw [importNode_withTypes]
    rfl
  have htype : r.facts.types.map (f.inside r).typeNode = r.facts.types.map (f.enter r.scope?).typeNode :=
    List.map_congr_left fun d _ => typeNode_withTypes _ _ d
  -- Types are walked twice, and the second time they are only linked.
  have hlink : r.facts.types.flatMap (fun _ => ([] : List Node)) = [] :=
    List.flatMap_eq_nil_iff.2 fun _ _ => rfl
  unfold recordChanges recordNodes
  simp only [List.filterMap_append, List.filterMap_flatMap, hscope, himport, htype,
    filterMap_node?_typeChanges, filterMap_node?_linkChanges, callableChanges, fieldChanges,
    filterMap_node?_memberChanges, Change.filterMap_references Change.node? fun _ => rfl,
    ← List.map_eq_flatMap, hlink, List.append_nil]
  rfl

/-! ### Links -/

/-- The link of a type. It holds the type that the nested name stands for. -/
def typeLinks (f : FileSite) (d : TypeDecl) : List Relationship :=
  (f.type? d.nestedName).toList.map fun t =>
    f.link (f.owner? d.enclosing) t.1 (f.language.typeCategory d.kind)

/-- The link of a callable. -/
def callableLink (f : FileSite) (d : CallableDecl) : Relationship :=
  f.link (f.owner? d.owner) (f.callableNode d).id (f.language.callableCategory d)

/-- The link of a field. -/
def fieldLink (f : FileSite) (d : FieldDecl) : Relationship :=
  f.link (f.owner? d.owner) (f.fieldNode d).id f.language.fieldCategory

/-- The link of a node that the file itself holds. -/
def fileLink (f : FileSite) (n : Node) : Relationship :=
  .between .contains f.fileId n.id

/-- **The links of a record**: the file holds the scope and the imports, and everything else is put into the
type around it, into the scope or into the file. -/
def recordLinks (f : FileSite) (r : SourceRecord) : List Relationship :=
  (f.scopeNode? r.scope?).toList.map (fun e => f.fileLink e.2) ++
    r.facts.imports.map (fun d => f.fileLink ((f.inside r).importNode d)) ++
    r.facts.types.flatMap (f.inside r).typeLinks ++ r.facts.callables.map (f.inside r).callableLink ++
    r.facts.fields.map (f.inside r).fieldLink

/-- Types contribute no links when they are declared. -/
theorem filterMap_relationship?_typeChanges (f : FileSite) (l : List TypeDecl) :
    (f.typeChanges l).filterMap Change.relationship? = [] := by
  induction l generalizing f with
  | nil => rfl
  | cons d l ih =>
    rw [typeChanges, List.filterMap_append, ih]
    rfl

theorem filterMap_relationship?_linkChanges (f : FileSite) (d : TypeDecl) :
    (f.linkChanges d).filterMap Change.relationship? = f.typeLinks d := by
  unfold linkChanges typeLinks
  cases f.type? d.nestedName with
  | none => rfl
  | some t => exact congrArg _ (Change.filterMap_references _ (fun _ => rfl) _)

/-- A member contributes the link that holds it. -/
theorem filterMap_relationship?_memberChanges (f : FileSite) (n : Node) (owner : Option String)
    (c : Category) (refs : List Reference) :
    (f.memberChanges n owner c refs).filterMap Change.relationship?
      = [f.link (f.owner? owner) n.id c] := by
  unfold memberChanges
  rw [List.filterMap_append]
  exact congrArg _ (congrArg _ (Change.filterMap_references _ (fun _ => rfl) refs))

/-- **A record relates the ends of its links**, and no others. -/
theorem filterMap_relationship?_recordChanges (f : FileSite) (r : SourceRecord) :
    (f.recordChanges r).filterMap Change.relationship? = f.recordLinks r := by
  -- The scope and the imports hang on the file; all other links are those of the declarations.
  have hscope : (f.scopeChanges r.scope?).filterMap Change.relationship?
      = (f.scopeNode? r.scope?).toList.map (fun e => f.fileLink e.2) := by
    unfold scopeChanges
    cases f.scopeNode? r.scope? with
    | none => rfl
    | some e => rfl
  have himport : ∀ d : ImportDecl, ((f.enter r.scope?).importChanges d).filterMap Change.relationship?
      = [f.fileLink ((f.inside r).importNode d)] := by
    intro d
    unfold inside fileLink
    rw [importNode_withTypes, ← fileId_enter f r.scope?]
    rfl
  unfold recordChanges recordLinks
  simp only [List.filterMap_append, List.filterMap_flatMap, hscope, himport,
    filterMap_relationship?_typeChanges, filterMap_relationship?_linkChanges, callableChanges,
    fieldChanges, filterMap_relationship?_memberChanges,
    Change.filterMap_references Change.relationship? fun _ => rfl, ← List.map_eq_flatMap,
    List.append_nil]
  rfl

end FileSite

/-! ### Files -/

namespace ParsedFile

variable {f : ParsedFile} {languages : List Language}

/-- The nodes that a file contributes are its own and those of its record. -/
theorem mem_recordNodes_of_mem_changes {n : Node} (h : Change.node n ∈ f.changes languages) :
    ∃ record, f.built languages = .ok record ∧ (n = f.node ∨ n ∈ f.site.recordNodes record) := by
  unfold changes at h
  cases hb : f.built languages with
  | error skip =>
    rw [hb] at h
    cases List.mem_singleton.1 h
  | ok record =>
    rw [hb] at h
    refine ⟨record, rfl, ?_⟩
    -- The node of the file comes first, then its place among the files, then what the record brings.
    rcases List.mem_cons.1 h with h | h
    · exact .inl (Change.node.inj h)
    rcases List.mem_cons.1 h with h | h
    · cases h
    · rw [← FileSite.filterMap_node?_recordChanges, Change.mem_filterMap_node?]
      exact .inr h

/-- The relationships that a file contributes are the links of its record. -/
theorem mem_recordLinks_of_mem_changes {rel : Relationship}
    (h : Change.relationship rel ∈ f.changes languages) :
    ∃ record, f.built languages = .ok record ∧ rel ∈ f.site.recordLinks record := by
  unfold changes at h
  cases hb : f.built languages with
  | error skip =>
    rw [hb] at h
    cases List.mem_singleton.1 h
  | ok record =>
    rw [hb] at h
    refine ⟨record, rfl, ?_⟩
    -- Neither of the first two changes of a file is a relationship.
    rcases List.mem_cons.1 h with h | h
    · cases h
    rcases List.mem_cons.1 h with h | h
    · cases h
    · rwa [← FileSite.filterMap_relationship?_recordChanges, Change.mem_filterMap_relationship?]

end ParsedFile

end CodeAtlas
