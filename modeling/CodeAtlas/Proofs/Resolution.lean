import CodeAtlas.Graph.Resolution
import CodeAtlas.Proofs.Contribution
import CodeAtlas.Proofs.NameResolution

/-!
# What resolving a reference changes

Unlike the walk over a file, the resolution of a reference looks into the working set. What it finds there
decides which changes it makes, and these are listed here: a stand-in for a type that is not found, a
relationship, an inheritance. `resolveReference_eq` says that resolving a reference is reading the set
once (`referenceChanges`) and then applying what was read.

Two facts follow for every run of a build:

* `grounded_referenceChanges` — a resolved reference mentions only ids of nodes that the set has or that
  it brings along. A target is either found, and then it has a node, or it is a stand-in;
* `closed_workingSet` — so the working set of a project mentions no id without a node, whatever its files
  declare.
-/

namespace CodeAtlas

/-- The answer of a search is the answer of one of its visits. -/
theorem Reach.exists_of_nearest? {α β : Type} [DecidableEq α] {visit : α → Option β}
    {edges : List (α × α)} {queue : List α} {b : β} (h : nearest? visit edges queue = some b) :
    ∃ a, visit a = some b := by
  fun_induction nearest? visit edges queue with
  | case1 => cases h
  | case2 edges a rest b' hv => exact ⟨a, hv.trans h⟩
  | case3 edges a rest hv ih => exact ih h

/-- The verbs of inheritance. -/
def Verb.inheritances : List Verb := [.inheriting, .extending, .implementing, .mixingIn]

/-- The verb of a supertype is one of inheritance. -/
theorem Language.hierarchyVerb_mem (l : Language) (source target : Category) (clause : SuperClause) :
    l.hierarchyVerb source target clause ∈ Verb.inheritances := by
  -- On the JVM the categories decide between two verbs.
  have hjvm : (if target = .interface ∧ source ≠ .interface then Verb.implementing else .extending)
      ∈ Verb.inheritances := by
    split <;> decide
  cases l with
  | java => exact hjvm
  | kotlin => exact hjvm
  | dart => cases clause <;> simp [hierarchyVerb, Verb.inheritances]
  | python => exact List.mem_cons_self

namespace WorkingSet

variable {s : WorkingSet}

/-! ### Types -/

/-- What brings the type that a name refers to into the set, and its id. -/
def typeTarget (s : WorkingSet) (ns : Namespace) (origin : Origin) (name : String) (stub : Category) :
    List Change × String :=
  match s.resolve name origin (isTypeIn ns) with
  | some id => ([], id)
  | none => ([.node (Node.stub ⟨ns, stub⟩ name)], (Node.stub ⟨ns, stub⟩ name).id)

/-- What a supertype contributes. -/
def supertypeChanges (languages : List Language) (s : WorkingSet) (source name : String)
    (clause : SuperClause) : List Change :=
  match s.languageOf? languages source with
  | none => []
  | some (l, kind) =>
    let t := s.typeTarget kind.space (s.originOf source) name (l.stubCategory clause)
    t.1 ++
      if t.2 = source then []
      else
        match (s.applyAll t.1).kind? t.2 with
        | none => []
        | some targetKind =>
          let verb := l.hierarchyVerb kind.category targetKind.category clause
          [.relationship (.between ⟨kind.space, verb⟩ source t.2), .inheritance source t.2]

/-- What an extended type contributes. -/
def extensionChanges (languages : List Language) (s : WorkingSet) (source receiver : String) :
    List Change :=
  match s.languageOf? languages source with
  | none => []
  | some (l, kind) =>
    let name := String.ofList (Text.dropEndWhile (· == '?') receiver.toList)
    let t := s.typeTarget kind.space (s.originOf source) name (l.stubCategory .superclass)
    t.1 ++ [.relationship (.between ⟨kind.space, .extensionOf⟩ source t.2)]

/-- Finding a type or making a stand-in, said as changes. -/
theorem typeOrStub_eq (ns : Namespace) (origin : Origin) (name : String) (stub : Category) :
    s.typeOrStub ns origin name stub
      = (s.applyAll (s.typeTarget ns origin name stub).1, (s.typeTarget ns origin name stub).2) := by
  unfold typeOrStub typeTarget
  cases s.resolve name origin (isTypeIn ns) with
  | some id => rfl
  | none => rfl

/-- Resolving a supertype is reading the set and applying what was read. -/
theorem resolveSupertype_eq (languages : List Language) (source name : String) (clause : SuperClause) :
    resolveSupertype languages s source name clause
      = s.applyAll (supertypeChanges languages s source name clause) := by
  unfold resolveSupertype supertypeChanges
  cases s.languageOf? languages source with
  | none => rfl
  | some e =>
    obtain ⟨l, kind⟩ := e
    dsimp only
    -- The stand-in is put in first, and the kind of the target is asked for in the set that has it.
    rw [typeOrStub_eq, applyAll_append]
    dsimp only
    split
    · rfl
    · cases (s.applyAll (s.typeTarget kind.space (s.originOf source) name
        (l.stubCategory clause)).1).kind? _ with
      | none => rfl
      | some targetKind => rfl

/-- So is resolving a receiver. -/
theorem resolveExtension_eq (languages : List Language) (source receiver : String) :
    resolveExtension languages s source receiver
      = s.applyAll (extensionChanges languages s source receiver) := by
  unfold resolveExtension extensionChanges
  cases s.languageOf? languages source with
  | none => rfl
  | some e =>
    obtain ⟨l, kind⟩ := e
    dsimp only
    rw [typeOrStub_eq, applyAll_append, applyAll_cons, applyAll_nil]
    dsimp only [apply]

/-! ### Members, annotations and calls -/

/-- What an override contributes. -/
def overrideChanges (s : WorkingSet) (member owner name : String) : List Change :=
  match s.kind? member, s.overridden? member owner name with
  | some kind, some target => [.relationship (.between ⟨kind.space, .overriding⟩ member target)]
  | _, _ => []

/-- What an annotation contributes. -/
def annotationChanges (s : WorkingSet) (source name : String) : List Change :=
  match s.kind? source with
  | none => []
  | some kind =>
    let accept := fun k : NodeKind => k.space == kind.space && k.category == .annotationType
    match s.resolve name (s.originOf source) accept with
    | some target => [.relationship (.between ⟨kind.space, .annotatedWith⟩ source target)]
    | none => []

/-- What a call contributes. -/
def callChanges (s : WorkingSet) (caller callee : String) (qualifier : Option String) (line : Nat) :
    List Change :=
  match s.kind? caller with
  | none => []
  | some kind =>
    match s.callee? kind.space (s.originOf caller) callee qualifier with
    | some target =>
      [.relationship ((Relationship.between .calls caller target).set "line" (.ofNat line))]
    | none => []

/-- So is resolving an override. -/
theorem resolveOverride_eq (member owner name : String) :
    s.resolveOverride member owner name = s.applyAll (s.overrideChanges member owner name) := by
  unfold resolveOverride overrideChanges
  cases s.kind? member with
  | none => rfl
  | some kind =>
    cases s.overridden? member owner name with
    | none => rfl
    | some target => rfl

/-- So is resolving an annotation. -/
theorem resolveAnnotation_eq (source name : String) :
    s.resolveAnnotation source name = s.applyAll (s.annotationChanges source name) := by
  unfold resolveAnnotation annotationChanges
  cases s.kind? source with
  | none => rfl
  | some kind =>
    dsimp only
    cases s.resolve name (s.originOf source) _ with
    | none => rfl
    | some target => rfl

/-- So is resolving a call. -/
theorem resolveCall_eq (caller callee : String) (qualifier : Option String) (line : Nat) :
    s.resolveCall caller callee qualifier line
      = s.applyAll (s.callChanges caller callee qualifier line) := by
  unfold resolveCall callChanges
  cases s.kind? caller with
  | none => rfl
  | some kind =>
    dsimp only
    cases s.callee? kind.space (s.originOf caller) callee qualifier with
    | none => rfl
    | some target => rfl

/-! ### Imports -/

/-- The change that links a file to another one that it imports. -/
def importLink? (s : WorkingSet) (file source : String) (line : Nat) (statement : String)
    (target : String) : Option Change :=
  if target = file then none
  else
    (s.files.get? target).map fun id =>
      .relationship (((Relationship.between .imports source id).set "line" (.ofNat line)).set
        "statement" (.text statement))

/-- What an import contributes. -/
def importChanges (languages : List Language) (s : WorkingSet) (file : String) (l : Language)
    (i : ImportTarget) (line : Nat) (statement : String) : List Change :=
  if languages.contains l then
    match s.files.get? file with
    | none => []
    | some source => (s.importTargets l file i).filterMap (s.importLink? file source line statement)
  else []

/-- Links do not change the files, so later ones find what the first one finds. -/
theorem foldl_linkImport {file source : String} {line : Nat} {statement : String}
    (targets : List String) :
    targets.foldl (linkImport file source line statement) s
      = s.applyAll (targets.filterMap (s.importLink? file source line statement)) := by
  induction targets generalizing s with
  | nil => rfl
  | cons target targets ih =>
    rw [List.foldl_cons, ih, List.filterMap_cons]
    unfold linkImport importLink?
    -- A file that imports itself gives no link, and neither does a file that is not there.
    by_cases ht : target = file
    · rw [if_pos ht, if_pos ht]
    · rw [if_neg ht, if_neg ht]
      cases hf : s.files.get? target with
      | none => rfl
      | some id => rfl

/-- So is resolving an import. -/
theorem resolveImport_eq (languages : List Language) (file : String) (l : Language) (i : ImportTarget)
    (line : Nat) (statement : String) :
    resolveImport languages s file l i line statement
      = s.applyAll (importChanges languages s file l i line statement) := by
  unfold resolveImport importChanges
  split
  · cases s.files.get? file with
    | none => rfl
    | some source => exact foldl_linkImport _
  · rfl

/-! ### All references -/

/-- **What a reference contributes when it is resolved.** -/
def referenceChanges (languages : List Language) (s : WorkingSet) : Reference → List Change
  | .supertype source name clause => supertypeChanges languages s source name clause
  | .extension source receiver => extensionChanges languages s source receiver
  | .overriding member owner name => s.overrideChanges member owner name
  | .annotated source name => s.annotationChanges source name
  | .call caller callee qualifier line => s.callChanges caller callee qualifier line
  | .importing file l i line statement => importChanges languages s file l i line statement

/-- **Resolving a reference applies what the set answers.** -/
theorem resolveReference_eq (languages : List Language) (r : Reference) :
    resolveReference languages s r = s.applyAll (referenceChanges languages s r) := by
  cases r with
  | supertype source name clause => exact resolveSupertype_eq languages source name clause
  | extension source receiver => exact resolveExtension_eq languages source receiver
  | overriding member owner name => exact resolveOverride_eq member owner name
  | annotated source name => exact resolveAnnotation_eq source name
  | call caller callee qualifier line => exact resolveCall_eq caller callee qualifier line
  | importing file l i line statement => exact resolveImport_eq languages file l i line statement

/-! ### What a resolved reference can change -/

/-- A node that has a language has a kind. -/
theorem kind?_of_languageOf? {languages : List Language} {id : String} {l : Language} {k : NodeKind}
    (h : s.languageOf? languages id = some (l, k)) : s.kind? id = some k := by
  unfold languageOf? at h
  obtain ⟨kind, hk, h⟩ := Option.bind_eq_some_iff.1 h
  obtain ⟨l', -, h⟩ := Option.bind_eq_some_iff.1 h
  split at h
  · obtain ⟨-, rfl⟩ := Prod.mk.inj (Option.some.inj h)
    exact hk
  · cases h

/-- A supertype gives what brings its target along, a relationship and an inheritance. -/
theorem mem_supertypeChanges {languages : List Language} {source name : String} {clause : SuperClause}
    {c : Change} (h : c ∈ supertypeChanges languages s source name clause) :
    ∃ l kind, s.languageOf? languages source = some (l, kind) ∧
      let t := s.typeTarget kind.space (s.originOf source) name (l.stubCategory clause)
      (c ∈ t.1 ∨
        (∃ target, c = .relationship (.between
          ⟨kind.space, l.hierarchyVerb kind.category target clause⟩ source t.2)) ∨
        c = .inheritance source t.2) := by
  unfold supertypeChanges at h
  cases hl : s.languageOf? languages source with
  | none =>
    rw [hl] at h
    cases h
  | some e =>
    obtain ⟨l, kind⟩ := e
    rw [hl] at h
    refine ⟨l, kind, rfl, ?_⟩
    -- What brings the type along, and then the relationship and the inheritance.
    rcases List.mem_append.1 h with h | h
    · exact .inl h
    · split at h
      · cases h
      · split at h
        · cases h
        · rcases List.mem_cons.1 h with rfl | h
          · exact .inr (.inl ⟨_, rfl⟩)
          · exact .inr (.inr (List.mem_singleton.1 h))

/-- An extension gives what brings its target along, and a relationship. -/
theorem mem_extensionChanges {languages : List Language} {source receiver : String} {c : Change}
    (h : c ∈ extensionChanges languages s source receiver) :
    ∃ l kind name, s.languageOf? languages source = some (l, kind) ∧
      let t := s.typeTarget kind.space (s.originOf source) name (l.stubCategory .superclass)
      (c ∈ t.1 ∨ c = .relationship (.between ⟨kind.space, .extensionOf⟩ source t.2)) := by
  unfold extensionChanges at h
  -- Without a language for the source nothing is added.
  cases hl : s.languageOf? languages source with
  | none =>
    rw [hl] at h
    cases h
  | some e =>
    obtain ⟨l, kind⟩ := e
    rw [hl] at h
    exact ⟨l, kind, _, rfl, (List.mem_append.1 h).imp_right List.mem_singleton.1⟩

/-- An override gives a relationship to the member that is found. -/
theorem mem_overrideChanges {member owner name : String} {c : Change}
    (h : c ∈ s.overrideChanges member owner name) :
    ∃ kind target, s.kind? member = some kind ∧ s.overridden? member owner name = some target ∧
      c = .relationship (.between ⟨kind.space, .overriding⟩ member target) := by
  unfold overrideChanges at h
  split at h
  · rename_i kind target hk ht
    exact ⟨kind, target, hk, ht, List.mem_singleton.1 h⟩
  · cases h

/-- An annotation gives a relationship to the annotation type that is found. -/
theorem mem_annotationChanges {source name : String} {c : Change}
    (h : c ∈ s.annotationChanges source name) :
    ∃ kind target, s.kind? source = some kind ∧
      s.resolve name (s.originOf source)
        (fun k => k.space == kind.space && k.category == .annotationType) = some target ∧
      c = .relationship (.between ⟨kind.space, .annotatedWith⟩ source target) := by
  unfold annotationChanges at h
  split at h
  · cases h
  · rename_i kind hk
    dsimp only at h
    split at h
    · rename_i target ht
      exact ⟨kind, target, hk, ht, List.mem_singleton.1 h⟩
    · cases h

/-- A call gives a relationship to the callable that is found. -/
theorem mem_callChanges {caller callee : String} {qualifier : Option String} {line : Nat} {c : Change}
    (h : c ∈ s.callChanges caller callee qualifier line) :
    ∃ kind target, s.kind? caller = some kind ∧
      s.callee? kind.space (s.originOf caller) callee qualifier = some target ∧
      c = .relationship ((Relationship.between .calls caller target).set "line" (.ofNat line)) := by
  unfold callChanges at h
  split at h
  · cases h
  · rename_i kind hk
    split at h
    · rename_i target ht
      exact ⟨kind, target, hk, ht, List.mem_singleton.1 h⟩
    · cases h

/-- An import gives relationships from the node of its file to those of the other files that it refers
to. -/
theorem mem_importChanges {languages : List Language} {file : String} {l : Language} {i : ImportTarget}
    {line : Nat} {statement : String} {c : Change}
    (h : c ∈ importChanges languages s file l i line statement) :
    ∃ source target id, s.files.get? file = some source ∧ s.files.get? target = some id ∧
      (target ∈ s.importTargets l file i ∧ target ≠ file) ∧
      c = .relationship (((Relationship.between .imports source id).set "line" (.ofNat line)).set
        "statement" (.text statement)) := by
  unfold importChanges at h
  split at h
  · split at h
    · cases h
    · rename_i source hsource
      obtain ⟨target, htarget, ht⟩ := List.mem_filterMap.1 h
      -- Of the files that are found, the file itself is left out.
      unfold importLink? at ht
      split at ht
      · cases ht
      · rename_i hne
        obtain ⟨id, hid, rfl⟩ := Option.map_eq_some_iff.1 ht
        exact ⟨source, target, id, hsource, hid, ⟨htarget, hne⟩, rfl⟩
  · cases h

/-- Where a reference starts: an import starts at the node of its file. -/
def StartsAt (s : WorkingSet) : Reference → String → Prop
  | .importing file _ _ _ _, id => s.files.get? file = some id
  | r, id => id ∈ r.ids

/-- **The changes that a reference may make when it is resolved**: a stand-in for a type in the namespace of
a node that it mentions, a relationship from where it starts, or an inheritance between two types of one
namespace. -/
def Answers (s : WorkingSet) (r : Reference) : Change → Prop
  | .node n => ∃ source ∈ r.ids, ∃ k c name, s.kind? source = some k ∧ c.isType = true ∧
      n = Node.stub ⟨k.space, c⟩ name
  | .relationship rel => s.StartsAt r rel.source
  | .inheritance child parent => child ∈ r.ids ∧ ∃ k, s.kind? child = some k ∧
      ((∃ k', s.kind? parent = some k' ∧ isTypeIn k.space k' = true) ∨
        ∃ c name, c.isType = true ∧ parent = (Node.stub ⟨k.space, c⟩ name).id)
  | _ => False

theorem isType_stubCategory (l : Language) (clause : SuperClause) :
    (l.stubCategory clause).isType = true := by
  cases l <;> cases clause <;> rfl

/-- A type is brought along by a stand-in, if at all. -/
theorem answers_typeTarget {r : Reference} {source : String} (hr : source ∈ r.ids) {k : NodeKind}
    (hk : s.kind? source = some k) {origin : Origin} {name : String} {stub : Category}
    (hstub : stub.isType = true) : ∀ c ∈ (s.typeTarget k.space origin name stub).1, s.Answers r c := by
  unfold typeTarget
  cases s.resolve name origin (isTypeIn k.space) with
  | some id => exact fun c hc => nomatch hc
  | none =>
    intro c hc
    obtain rfl := List.mem_singleton.1 hc
    exact ⟨source, hr, k, stub, name, hk, hstub, rfl⟩

/-- The target of a type is found as a type of the namespace, or is its stand-in. -/
theorem typeTarget_cases (ns : Namespace) (origin : Origin) (name : String) (stub : Category) :
    (∃ k, s.kind? (s.typeTarget ns origin name stub).2 = some k ∧ isTypeIn ns k = true) ∨
      (s.typeTarget ns origin name stub).2 = (Node.stub ⟨ns, stub⟩ name).id := by
  unfold typeTarget
  cases h : s.resolve name origin (isTypeIn ns) with
  | some id => exact .inl (kind?_of_resolve h)
  | none => exact .inr rfl

/-- **What resolving a reference can change.** -/
theorem answers_referenceChanges (languages : List Language) (r : Reference) :
    ∀ c ∈ referenceChanges languages s r, s.Answers r c := by
  intro c hc
  cases r with
  | supertype source name clause =>
    obtain ⟨l, kind, hl, hc⟩ := mem_supertypeChanges hc
    have hk := kind?_of_languageOf? hl
    have hstub := isType_stubCategory l clause
    -- A supertype brings a stand-in along, relates the two types, and enters the inheritance.
    rcases hc with hc | ⟨target, rfl⟩ | rfl
    · exact answers_typeTarget List.mem_cons_self hk hstub c hc
    · exact List.mem_cons_self
    · refine ⟨List.mem_cons_self, kind, hk, ?_⟩
      exact (typeTarget_cases _ _ _ _).imp_right fun h => ⟨l.stubCategory clause, name, hstub, h⟩
  | extension source receiver =>
    obtain ⟨l, kind, name, hl, hc⟩ := mem_extensionChanges hc
    rcases hc with hc | rfl
    · exact answers_typeTarget List.mem_cons_self (kind?_of_languageOf? hl)
        (isType_stubCategory l .superclass) c hc
    · exact List.mem_cons_self
  -- All others give nothing but relationships.
  | overriding member owner name =>
    obtain ⟨kind, target, -, -, rfl⟩ := mem_overrideChanges hc
    exact List.mem_cons_self
  | annotated source name =>
    obtain ⟨kind, target, -, -, rfl⟩ := mem_annotationChanges hc
    exact List.mem_cons_self
  | call caller callee qualifier line =>
    obtain ⟨kind, target, -, -, rfl⟩ := mem_callChanges hc
    exact List.mem_cons_self
  | importing file l i line statement =>
    obtain ⟨source, target, id, hsource, -, -, rfl⟩ := mem_importChanges hc
    exact hsource

/-- **Answers fold nodes in, relate and enter inheritances**, and do nothing else. -/
theorem filterMap_referenceChanges {α : Type} (pick : Change → Option α)
    (hnode : ∀ n, pick (.node n) = none) (hrel : ∀ rel, pick (.relationship rel) = none)
    (hinherit : ∀ child parent, pick (.inheritance child parent) = none) (languages : List Language)
    (r : Reference) : (referenceChanges languages s r).filterMap pick = [] := by
  rw [List.filterMap_eq_nil_iff]
  intro c hc
  have ha := answers_referenceChanges languages r c hc
  -- Only three kinds of changes are answers at all.
  cases c with
  | node n => exact hnode n
  | relationship rel => exact hrel rel
  | inheritance child parent => exact hinherit child parent
  | _ => exact ha.elim

/-- **The relationships that a reference may give**: all but calls and imports go without properties. -/
def Relates : Reference → Relationship → Prop
  | .supertype source _ _, rel =>
    ∃ ns, ∃ verb ∈ Verb.inheritances, ∃ target, rel = .between ⟨ns, verb⟩ source target
  | .extension source _, rel => ∃ ns target, rel = .between ⟨ns, .extensionOf⟩ source target
  | .overriding member _ _, rel => ∃ ns target, rel = .between ⟨ns, .overriding⟩ member target
  | .annotated source _, rel => ∃ ns target, rel = .between ⟨ns, .annotatedWith⟩ source target
  | .call caller _ _ line, rel =>
    ∃ target, rel = (Relationship.between .calls caller target).set "line" (.ofNat line)
  | .importing _ _ _ line statement, rel =>
    ∃ source target, rel = ((Relationship.between .imports source target).set "line" (.ofNat line)).set
      "statement" (.text statement)

/-- A named type brings nothing along but a node. -/
theorem exists_node_of_mem_typeTarget {ns : Namespace} {origin : Origin} {name : String}
    {stub : Category} {c : Change} (h : c ∈ (s.typeTarget ns origin name stub).1) : ∃ n, c = .node n := by
  unfold typeTarget at h
  split at h
  · cases h
  · exact ⟨_, List.mem_singleton.1 h⟩

/-- **What resolving a reference relates.** -/
theorem relates_of_mem {languages : List Language} {r : Reference} {rel : Relationship}
    (h : Change.relationship rel ∈ referenceChanges languages s r) : Relates r rel := by
  -- Each kind of reference makes one kind of relationship; a stand-in is a node and makes none.
  cases r with
  | supertype source name clause =>
    obtain ⟨l, kind, -, h | ⟨target, h⟩ | h⟩ := mem_supertypeChanges h
    · obtain ⟨n, hn⟩ := exists_node_of_mem_typeTarget h
      cases hn
    · exact ⟨_, _, l.hierarchyVerb_mem kind.category target clause, _, Change.relationship.inj h⟩
    · cases h
  | extension source receiver =>
    obtain ⟨l, kind, name, -, h | h⟩ := mem_extensionChanges h
    · obtain ⟨n, hn⟩ := exists_node_of_mem_typeTarget h
      cases hn
    · exact ⟨_, _, Change.relationship.inj h⟩
  | overriding member owner name =>
    obtain ⟨kind, target, -, -, h⟩ := mem_overrideChanges h
    exact ⟨_, _, Change.relationship.inj h⟩
  | annotated source name =>
    obtain ⟨kind, target, -, -, h⟩ := mem_annotationChanges h
    exact ⟨_, _, Change.relationship.inj h⟩
  | call caller callee qualifier line =>
    obtain ⟨kind, target, -, -, h⟩ := mem_callChanges h
    exact ⟨_, Change.relationship.inj h⟩
  | importing file l i line statement =>
    obtain ⟨source, target, id, -, -, -, h⟩ := mem_importChanges h
    exact ⟨_, _, Change.relationship.inj h⟩

/-! ### Runs -/

/-- **What every single reference keeps holds after all of them.** -/
theorem foldl_resolveReference_invariant {Q : WorkingSet → Prop} {languages : List Language}
    {l : List Reference} {s : WorkingSet} (hs : Q s)
    (h : ∀ t, Q t → ∀ r ∈ l, Q (t.applyAll (referenceChanges languages t r))) :
    Q (l.foldl (resolveReference languages) s) := by
  induction l generalizing s with
  | nil => exact hs
  | cons r l ih =>
    rw [List.foldl_cons, resolveReference_eq]
    exact ih (h s hs r List.mem_cons_self) fun t ht r' hr' => h t ht r' (List.mem_cons_of_mem r hr')

/-- The references that wait, in the order in which they are resolved. -/
def queue (s : WorkingSet) : List Reference :=
  s.pending.filter Reference.isHierarchy ++ s.pending.filter fun r => !r.isHierarchy

/-- All references that wait are in the queue. -/
theorem mem_queue {r : Reference} : r ∈ s.queue ↔ r ∈ s.pending := by
  unfold queue
  rw [List.mem_append, List.mem_filter, List.mem_filter]
  cases r.isHierarchy <;> simp

/-- Resolving what waits is going through the queue. -/
theorem resolvePending_eq (languages : List Language) :
    s.resolvePending languages
      = s.queue.foldl (resolveReference languages) { s with pending := [] } := by
  unfold resolvePending queue
  rw [List.partition_eq_filter_filter]
  rfl

/-- What every reference that waits keeps holds after all of them. -/
theorem resolvePending_invariant {Q : WorkingSet → Prop} {languages : List Language}
    (hs : Q { s with pending := [] })
    (h : ∀ t, Q t → ∀ r ∈ s.pending, Q (t.applyAll (referenceChanges languages t r))) :
    Q (s.resolvePending languages) := by
  rw [resolvePending_eq]
  exact foldl_resolveReference_invariant hs fun t ht r hr => h t ht r (mem_queue.1 hr)

/-! ### What a reference mentions -/

/-- What a member search finds is a node. -/
theorem mem_keys_of_callableMember? {p : String → Bool} {name owner id : String}
    (h : s.callableMember? p name owner = some id) : id ∈ s.nodes.keys := by
  have hp := List.find?_some h
  rw [Bool.and_eq_true] at hp
  obtain ⟨hn, -⟩ := (Option.any_eq_true_iff_get _ _).1 hp.2
  exact Register.isSome_get?_iff.1 hn

theorem mem_keys_of_overridden? {member owner name id : String}
    (h : s.overridden? member owner name = some id) : id ∈ s.nodes.keys := by
  obtain ⟨type, ht⟩ := Reach.exists_of_nearest? h
  split at ht
  · cases ht
  · exact mem_keys_of_callableMember? ht

theorem mem_keys_of_memberInHierarchy? {owner name id : String}
    (h : s.memberInHierarchy? owner name = some id) : id ∈ s.nodes.keys := by
  obtain ⟨type, ht⟩ := Reach.exists_of_nearest? h
  exact mem_keys_of_callableMember? ht

theorem mem_keys_of_resolve {name : String} {origin : Origin} {accept : NodeKind → Bool} {id : String}
    (h : s.resolve name origin accept = some id) : id ∈ s.nodes.keys := by
  obtain ⟨k, hk, -⟩ := kind?_of_resolve h
  exact mem_keys_of_kind? hk

/-- **What a call refers to is a node.** -/
theorem mem_keys_of_callee? {ns : Namespace} {origin : Origin} {callee : String}
    {qualifier : Option String} {id : String} (h : s.callee? ns origin callee qualifier = some id) :
    id ∈ s.nodes.keys := by
  -- Every way to a callee is a member of a type, or else a name.
  have hor : ∀ {type : Option String} {name : String},
      ((type.bind fun t => s.memberInHierarchy? t callee).or
        (s.resolve name origin (isCallableIn ns))) = some id → id ∈ s.nodes.keys := by
    intro type name h
    rcases Option.or_eq_some_iff.1 h with h | ⟨-, h⟩
    · obtain ⟨t, -, h⟩ := Option.bind_eq_some_iff.1 h
      exact mem_keys_of_memberInHierarchy? h
    · exact mem_keys_of_resolve h
  unfold callee? at h
  cases qualifier with
  | none => exact hor h
  | some q =>
    dsimp only at h
    split at h
    · exact hor h
    · split at h
      · exact hor h
      · exact mem_keys_of_resolve h

/-! ### Closed working sets -/

/-- The target of a type is found or brought along. -/
theorem mem_keys_typeTarget (ns : Namespace) (origin : Origin) (name : String) (stub : Category) :
    (s.typeTarget ns origin name stub).2 ∈ s.nodes.keys ∨
      (s.typeTarget ns origin name stub).2 ∈ nodeIds (s.typeTarget ns origin name stub).1 := by
  unfold typeTarget
  cases h : s.resolve name origin (isTypeIn ns) with
  | some id => exact .inl (mem_keys_of_resolve h)
  | none => exact .inr (mem_nodeIds.2 ⟨_, List.mem_cons_self, rfl⟩)

/-- What brings a type along mentions only its own node. -/
theorem grounded_typeTarget (ns : Namespace) (origin : Origin) (name : String) (stub : Category) :
    s.Grounded (s.typeTarget ns origin name stub).1 := by
  unfold typeTarget
  cases s.resolve name origin (isTypeIn ns) with
  | some id => exact .nil s
  | none =>
    intro c hc id hid
    obtain rfl := List.mem_singleton.1 hc
    obtain rfl := List.mem_singleton.1 hid
    exact .inr (mem_nodeIds.2 ⟨_, List.mem_cons_self, rfl⟩)

/-- A relationship between known ids mentions known ids. -/
theorem mem_ids_relationship {K : String → Prop} {r : Relationship} (hs : K r.source) (ht : K r.target) :
    ∀ id ∈ (Change.relationship r).ids, K id := by
  intro id hid
  rcases List.mem_cons.1 hid with rfl | hid
  · exact hs
  · exact List.mem_singleton.1 hid ▸ ht

/-- A supertype mentions its type and the one that it names. -/
theorem grounded_supertypeChanges (languages : List Language) (source name : String)
    (clause : SuperClause) : s.Grounded (supertypeChanges languages s source name clause) := by
  unfold supertypeChanges
  cases hl : s.languageOf? languages source with
  | none => exact .nil s
  | some e =>
    obtain ⟨l, kind⟩ := e
    refine (grounded_typeTarget _ _ _ _).append fun c hc => ?_
    have hsource := mem_keys_of_kind? (kind?_of_languageOf? hl)
    have htarget := s.mem_keys_typeTarget kind.space (s.originOf source) name (l.stubCategory clause)
    split at hc
    · cases hc
    · split at hc
      · cases hc
      · -- The relationship and the inheritance have the same two ends.
        rcases List.mem_cons.1 hc with rfl | hc
        · exact mem_ids_relationship (.inl hsource) htarget
        · obtain rfl := List.mem_singleton.1 hc
          exact mem_ids_relationship (r := .between .contains source _) (.inl hsource) htarget

/-- So does a receiver. -/
theorem grounded_extensionChanges (languages : List Language) (source receiver : String) :
    s.Grounded (extensionChanges languages s source receiver) := by
  unfold extensionChanges
  cases hl : s.languageOf? languages source with
  | none => exact .nil s
  | some e =>
    obtain ⟨l, kind⟩ := e
    dsimp only
    generalize String.ofList (Text.dropEndWhile (· == '?') receiver.toList) = name
    refine (grounded_typeTarget _ _ _ _).append fun c hc => ?_
    -- The target is a node by then, and the source was one before.
    have hsource := mem_keys_of_kind? (kind?_of_languageOf? hl)
    have htarget := s.mem_keys_typeTarget kind.space (s.originOf source) name
      (l.stubCategory .superclass)
    obtain rfl := List.mem_singleton.1 hc
    exact mem_ids_relationship (.inl hsource) htarget

/-- **A resolved reference mentions only ids that are there or that it brings along**, if files have
nodes. -/
theorem grounded_referenceChanges (hs : ∀ path id, s.files.get? path = some id → id ∈ s.nodes.keys)
    (languages : List Language) (r : Reference) : s.Grounded (referenceChanges languages s r) := by
  cases r with
  | supertype source name clause => exact grounded_supertypeChanges languages source name clause
  | extension source receiver => exact grounded_extensionChanges languages source receiver
  -- The others bring nothing along, so both ends of a relationship have to be there.
  | overriding member owner name =>
    intro c hc
    obtain ⟨kind, target, hk, ht, rfl⟩ := mem_overrideChanges hc
    exact mem_ids_relationship (.inl (mem_keys_of_kind? hk)) (.inl (mem_keys_of_overridden? ht))
  | annotated source name =>
    intro c hc
    obtain ⟨kind, target, hk, ht, rfl⟩ := mem_annotationChanges hc
    exact mem_ids_relationship (.inl (mem_keys_of_kind? hk)) (.inl (mem_keys_of_resolve ht))
  | call caller callee qualifier line =>
    intro c hc
    obtain ⟨kind, target, hk, ht, rfl⟩ := mem_callChanges hc
    exact mem_ids_relationship (.inl (mem_keys_of_kind? hk)) (.inl (mem_keys_of_callee? ht))
  | importing file l i line statement =>
    intro c hc
    obtain ⟨source, target, id, hsource, hid, -, rfl⟩ := mem_importChanges hc
    exact mem_ids_relationship (.inl (hs _ _ hsource)) (.inl (hs _ _ hid))

/-- What a file contributes is grounded in itself. -/
theorem grounded_changes (f : ParsedFile) (languages : List Language) :
    s.Grounded (f.changes languages) := by
  unfold ParsedFile.changes
  cases f.built languages with
  | error skip =>
    intro c hc id hid
    obtain rfl := List.mem_singleton.1 hc
    cases hid
  | ok record =>
    dsimp only
    generalize hall : Change.node f.node :: .file f.path f.node.id :: f.site.recordChanges record = all
    -- The node of the file comes first, and a record mentions only its own nodes beside it.
    have hfile : f.node.id ∈ nodeIds all := mem_nodeIds.2 ⟨_, hall ▸ List.mem_cons_self, rfl⟩
    have hwithin := FileSite.within_recordChanges (D := (· ∈ nodeIds all)) (r := record)
      f.known_site fun n hn => mem_nodeIds.2
        ⟨n, hall ▸ List.mem_cons_of_mem _ (List.mem_cons_of_mem _ hn), rfl⟩
    intro c hc id hid
    refine .inr ?_
    rw [← hall] at hc
    rcases List.mem_cons.1 hc with rfl | hc
    · exact List.mem_singleton.1 hid ▸ hfile
    rcases List.mem_cons.1 hc with rfl | hc
    · exact List.mem_singleton.1 hid ▸ hfile
    rcases (hwithin c hc).id_of_mem id hid with h | h
    · rw [h, f.fileId_site]
      exact hfile
    · exact h

/-- Contributions that are each grounded in themselves are grounded together. -/
theorem grounded_flatMap (files : List ParsedFile) (languages : List Language) :
    s.Grounded (files.flatMap (·.changes languages)) := by
  intro c hc id hid
  obtain ⟨f, hf, hc⟩ := List.mem_flatMap.1 hc
  refine (grounded_changes f languages c hc id hid).imp_right fun h => ?_
  obtain ⟨n, hn, rfl⟩ := mem_nodeIds.1 h
  exact mem_nodeIds.2 ⟨n, List.mem_flatMap.2 ⟨f, hf, hn⟩, rfl⟩

end WorkingSet

/-- **The working set of a project mentions no id without a node.** -/
theorem closed_workingSet (languages : List Language) (r : ParseResult) :
    (workingSet languages r).Closed := by
  unfold workingSet
  rw [foldl_addParsedFile]
  -- Closed when all files have been walked, and kept so by every reference.
  refine WorkingSet.resolvePending_invariant ?_ fun s hs ref _ =>
    hs.applyAll (WorkingSet.grounded_referenceChanges (fun _ _ => hs.file) languages ref)
  exact (WorkingSet.Closed.empty.applyAll (WorkingSet.grounded_flatMap _ _)).withPending

end CodeAtlas
