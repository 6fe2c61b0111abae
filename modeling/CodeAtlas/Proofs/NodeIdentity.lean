import Mathlib.Data.List.Nodup
import CodeAtlas.Proofs.Contribution

/-!
# What an id tells about its node

An id begins with the label of its kind in small letters, and no two kinds have the same label in small
letters. So the kind can be read off the id (`kindOfId?_nodeId`), however the node came about. A node is
`Identified` if its id tells its kind; all nodes of a build are, and merging keeps it so.

The digest in an id plays no role here: nothing is assumed about collisions of digests of the same kind.

The second half looks at the nodes that a record contributes (`declares_recordChanges`): their kinds are
in the namespace of the language of the file, and none of them is a file. So all that a record contributes
stays in its language (`ParsedFile.within_language`).
-/

namespace CodeAtlas

/-! ### Kinds and ids -/

/-- **The kind that an id tells.** -/
def kindOfId? (id : String) : Option NodeKind :=
  NodeKind.all.find? fun k => smallLabel k.label == id.toList.takeWhile (· != ':')

/-- The small letters of a text are taken one by one. -/
theorem smallLabel_append (a b : String) : smallLabel (a ++ b) = smallLabel a ++ smallLabel b := by
  unfold smallLabel
  rw [String.toList_append, List.map_append]

/-- Labels hold no colons. -/
theorem notMem_smallLabel (k : NodeKind) : ':' ∉ smallLabel k.label := by
  have hname : ∀ c ∈ Category.all, ':' ∉ smallLabel c.name := by decide +kernel
  have hhead : ∀ ns : Namespace, ':' ∉ smallLabel ns.labelHead := by
    intro ns
    cases ns <;> decide +kernel
  unfold NodeKind.label
  rw [smallLabel_append, List.mem_append, not_or]
  exact ⟨hhead k.space, hname k.category (Category.mem_all k.category)⟩

/-- No head of a label begins with another one, unless that is empty. -/
theorem eq_or_generic_of_head {a b : Namespace}
    (h : smallLabel a.labelHead <+: smallLabel b.labelHead) : a = b ∨ a = .generic := by
  revert h
  cases a <;> cases b <;> decide +kernel

/-- No name of a category begins with the head of a label, unless that is empty. -/
theorem generic_of_head {a : Namespace} {c : Category}
    (h : smallLabel a.labelHead <+: smallLabel c.name) : a = .generic := by
  have hall : ∀ a ∈ Namespace.specific, ∀ c ∈ Category.all,
      ¬ smallLabel a.labelHead <+: smallLabel c.name := by decide +kernel
  cases a with
  | generic => rfl
  | _ => exact absurd h (hall _ (by decide) c (Category.mem_all c))

/-- No two categories are of one name in small letters. -/
theorem smallLabel_name_injective {c d : Category} (h : smallLabel c.name = smallLabel d.name) :
    c = d := by
  have hall : (Category.all.map fun c => smallLabel c.name).Nodup := by decide +kernel
  exact List.inj_on_of_nodup_map hall (Category.mem_all c) (Category.mem_all d) h

/-- Two labels of which the head of one begins with the head of the other. -/
theorem kind_eq_of_head {j k : NodeKind}
    (hhead : smallLabel j.space.labelHead <+: smallLabel k.space.labelHead)
    (h : smallLabel j.label = smallLabel k.label) : j = k := by
  obtain ⟨a, c⟩ := j
  obtain ⟨b, d⟩ := k
  -- The heads are equal, so the names are.
  unfold NodeKind.label at h
  rw [smallLabel_append, smallLabel_append] at h
  have hspace : a = b := by
    rcases eq_or_generic_of_head hhead with hab | rfl
    · exact hab
    · -- Without a head of its own, the name would begin with the other head.
      exact (generic_of_head ⟨_, h.symm⟩).symm
  subst hspace
  have hcategory : c = d := smallLabel_name_injective (List.append_cancel_left h)
  rw [hcategory]

/-- **Labels stay different in small letters.** -/
theorem smallLabel_label_injective {j k : NodeKind} (h : smallLabel j.label = smallLabel k.label) :
    j = k := by
  have hj : smallLabel j.space.labelHead <+: smallLabel j.label := ⟨_, (smallLabel_append _ _).symm⟩
  have hk : smallLabel k.space.labelHead <+: smallLabel k.label := ⟨_, (smallLabel_append _ _).symm⟩
  -- Both heads begin the same text, so one of them begins the other.
  rcases List.prefix_or_prefix_of_prefix (h ▸ hj) hk with hhead | hhead
  · exact kind_eq_of_head hhead h
  · exact (kind_eq_of_head hhead h.symm).symm

/-- **An id tells the kind of its node.** -/
theorem kindOfId?_nodeId (k : NodeKind) (qualified path : String) :
    kindOfId? (nodeId k qualified path) = some k := by
  -- The colon after the label is the first one.
  have hlabel : (nodeId k qualified path).toList.takeWhile (· != ':') = smallLabel k.label := by
    unfold nodeId
    rw [String.toList_ofList, List.takeWhile_append_of_pos, List.takeWhile_cons]
    · simp
    · intro c hc
      simpa using fun e : c = ':' => notMem_smallLabel k (e ▸ hc)
  unfold kindOfId?
  rw [hlabel]
  cases hf : NodeKind.all.find? fun j => smallLabel j.label == smallLabel k.label with
  | none => simpa using List.find?_eq_none.1 hf k (NodeKind.mem_all k)
  | some j =>
    have hj : smallLabel j.label = smallLabel k.label := by simpa using List.find?_some hf
    rw [smallLabel_label_injective hj]

namespace Node

/-- **The id of the node tells its kind.** -/
def Identified (n : Node) : Prop :=
  kindOfId? n.id = some n.kind

/-- A property does not change the id of a node. -/
@[simp]
theorem id_set (n : Node) (key : String) (v : Property) : (n.set key v).id = n.id := rfl

@[simp]
theorem kind_set (n : Node) (key : String) (v : Property) : (n.set key v).kind = n.kind := rfl

/-- A property that is set only if it has a value changes no id. -/
@[simp]
theorem id_setIfPresent (n : Node) (key : String) (v : Property) : (n.setIfPresent key v).id = n.id := by
  unfold setIfPresent
  split <;> rfl

@[simp]
theorem kind_setIfPresent (n : Node) (key : String) (v : Property) :
    (n.setIfPresent key v).kind = n.kind := by
  unfold setIfPresent
  split <;> rfl

@[simp]
theorem id_setText? (n : Node) (key : String) (v : Option String) : (n.setText? key v).id = n.id := by
  cases v with
  | none => rfl
  | some v => exact id_setIfPresent n key _

@[simp]
theorem kind_setText? (n : Node) (key : String) (v : Option String) :
    (n.setText? key v).kind = n.kind := by
  cases v with
  | none => rfl
  | some v => exact kind_setIfPresent n key _

/-- **Merging keeps nodes identified.** -/
theorem Identified.mergeFrom {a b : Node} (ha : a.Identified) (hb : b.Identified) :
    (a.mergeFrom b).Identified := by
  unfold Node.mergeFrom
  split
  · exact hb
  · exact ha

theorem identified_stub (k : NodeKind) (name : String) : (stub k name).Identified :=
  kindOfId?_nodeId k name ""

end Node

/-! ### Nodes of declarations -/

/-- The node of a type is of the kind that it is made for. -/
theorem TypeDecl.kind_node (d : TypeDecl) (kind : NodeKind) (qualified path : String) :
    (d.node kind qualified path).kind = kind := by
  simp [TypeDecl.node, Node.declared, Node.withId]

/-- The id of the node of a type tells its kind. -/
theorem TypeDecl.identified_node (d : TypeDecl) (kind : NodeKind) (qualified path : String) :
    (d.node kind qualified path).Identified := by
  simp [Node.Identified, TypeDecl.node, Node.declared, Node.withId, kindOfId?_nodeId]

/-- The node of a callable is of the kind that it is made for. -/
theorem CallableDecl.kind_node (d : CallableDecl) (kind : NodeKind) (qualified path : String) :
    (d.node kind qualified path).kind = kind := by
  simp [CallableDecl.node, Node.declared, Node.withId]

/-- The id of the node of a callable tells its kind. -/
theorem CallableDecl.identified_node (d : CallableDecl) (kind : NodeKind) (qualified path : String) :
    (d.node kind qualified path).Identified := by
  simp [Node.Identified, CallableDecl.node, Node.declared, Node.withId, kindOfId?_nodeId]

/-- The node of a field is of the kind that it is made for. -/
theorem FieldDecl.kind_node (d : FieldDecl) (kind : NodeKind) (qualified path : String) :
    (d.node kind qualified path).kind = kind := by
  simp [FieldDecl.node, Node.declared, Node.withId]

/-- The id of the node of a field tells its kind. -/
theorem FieldDecl.identified_node (d : FieldDecl) (kind : NodeKind) (qualified path : String) :
    (d.node kind qualified path).Identified := by
  simp [Node.Identified, FieldDecl.node, Node.declared, Node.withId, kindOfId?_nodeId]

/-- The node of an import is of the kind that it is made for. -/
theorem ImportDecl.kind_node (d : ImportDecl) (kind : NodeKind) (path : String) :
    (d.node kind path).kind = kind := by
  unfold ImportDecl.node
  cases d.localName <;> rfl

/-- The id of the node of an import tells its kind. -/
theorem ImportDecl.identified_node (d : ImportDecl) (kind : NodeKind) (path : String) :
    (d.node kind path).Identified := by
  unfold Node.Identified ImportDecl.node
  cases d.localName <;> exact kindOfId?_nodeId kind _ _

/-- The id of the node of a file tells its kind. -/
theorem ParsedFile.identified_node (f : ParsedFile) : f.node.Identified :=
  kindOfId?_nodeId (.generic .file) f.path _

/-- A node of a declaration of a language: its kind is in the namespace, and it is no file. -/
structure Node.Declares (l : Language) (n : Node) : Prop where
  identified : n.Identified
  space : n.kind.space = l.space
  notFile : n.kind.category ≠ .file

/-- An id of a declaration of a language. -/
def OfLanguage (l : Language) (id : String) : Prop :=
  ∃ k, kindOfId? id = some k ∧ k.space = l.space ∧ k.category ≠ .file

/-- The id of a declared node is one of the language. -/
theorem Node.Declares.ofLanguage {l : Language} {n : Node} (h : n.Declares l) : OfLanguage l n.id :=
  ⟨n.kind, h.identified, h.space, h.notFile⟩

namespace FileSite

variable {f : FileSite}

/-- A node of a kind of the site. -/
theorem declares_of_kind {n : Node} {c : Category} (hn : n.Identified) (hk : n.kind = f.kind c)
    (hc : c ≠ .file) : n.Declares f.language :=
  ⟨hn, by rw [hk]; rfl, by rw [hk]; exact hc⟩

/-- A scope does not change the language. -/
theorem language_enter (scope : Option RecordScope) : (f.enter scope).language = f.language := by
  unfold enter
  cases f.scopeNode? scope with
  | none => rfl
  | some e => rfl

theorem language_withTypes (l : List TypeDecl) : (f.withTypes l).language = f.language := by
  induction l generalizing f with
  | nil => rfl
  | cons d l ih => exact ih

/-- The node of a scope is in the language of the file. -/
theorem declares_scopeNode? {scope : Option RecordScope} {e : String × Node}
    (h : f.scopeNode? scope = some e) : e.2.Declares f.language := by
  cases scope with
  | none => cases h
  | some scope =>
    unfold scopeNode? at h
    dsimp only at h
    split at h
    · cases h
    · obtain rfl := Option.some.inj h
      -- Its kind is that of scopes of the language, which is no file in any of the four.
      refine declares_of_kind (c := f.language.scopeCategory) ?_ (Node.kind_setText? _ _ _) ?_
      · unfold Node.Identified
        rw [Node.id_setText?, Node.kind_setText?]
        exact kindOfId?_nodeId _ _ _
      · cases f.language <;> decide

theorem declares_typeNode (d : TypeDecl) : (f.typeNode d).Declares f.language := by
  refine declares_of_kind (d.identified_node _ _ _) (d.kind_node _ _ _) ?_
  cases f.language <;> cases d.kind <;> decide

theorem declares_callableNode (d : CallableDecl) : (f.callableNode d).Declares f.language := by
  refine declares_of_kind (d.identified_node _ _ _) (d.kind_node _ _ _) ?_
  unfold Language.callableCategory
  split
  · split <;> decide
  · split <;> decide
  · split
    · decide
    · split <;> decide
  · decide

theorem declares_fieldNode (d : FieldDecl) : (f.fieldNode d).Declares f.language := by
  refine declares_of_kind (d.identified_node _ _ _) (d.kind_node _ _ _) ?_
  cases f.language <;> decide

/-- All nodes that types contribute are declared by the types. -/
theorem declares_typeChanges {l : List TypeDecl} :
    ∀ n, Change.node n ∈ f.typeChanges l → n.Declares f.language := by
  induction l generalizing f with
  | nil => exact fun n hn => nomatch hn
  | cons d l ih =>
    intro n hn
    rcases List.mem_append.1 hn with hn | hn
    · rcases List.mem_cons.1 hn with hn | hn
      · exact Change.node.inj hn ▸ declares_typeNode d
      · cases List.mem_singleton.1 hn
    · exact ih (f := f.withType d) n hn

/-- Only the node of a member is folded in with it. -/
theorem eq_of_mem_memberChanges {n m : Node} {owner : Option String} {c : Category}
    {refs : List Reference} (h : Change.node m ∈ f.memberChanges n owner c refs) : m = n := by
  unfold memberChanges at h
  rcases List.mem_append.1 h with h | h
  · rcases List.mem_cons.1 h with h | h
    · exact Change.node.inj h
    · cases List.mem_singleton.1 h
  · rcases List.mem_cons.1 h with h | h
    · cases h
    · obtain ⟨r, -, hr⟩ := List.mem_map.1 h
      cases hr

/-- **Every node that a record contributes declares something of the language.** -/
theorem declares_recordChanges {r : SourceRecord} :
    ∀ n, Change.node n ∈ f.recordChanges r → n.Declares f.language := by
  intro n hn
  unfold recordChanges at hn
  simp only [List.mem_append] at hn
  -- The site changes along the walk, but not its language.
  have h₁ : (f.enter r.scope?).language = f.language := language_enter _
  have h₂ : ((f.enter r.scope?).withTypes r.facts.types).language = f.language :=
    (language_withTypes _).trans h₁
  -- One case for each part of a record: the scope, imports, types, their links, callables, fields and calls.
  rcases hn with (((((hn | hn) | hn) | hn) | hn) | hn) | hn
  · unfold scopeChanges at hn
    cases hs : f.scopeNode? r.scope? with
    | none =>
      rw [hs] at hn
      cases hn
    | some e =>
      rw [hs] at hn
      simp only [Change.declare, List.mem_append, List.mem_cons, Change.node.injEq, reduceCtorEq,
        List.not_mem_nil, or_false] at hn
      exact hn ▸ declares_scopeNode? hs
  · obtain ⟨d, -, hn⟩ := List.mem_flatMap.1 hn
    simp only [importChanges, List.mem_cons, Change.node.injEq, reduceCtorEq, List.not_mem_nil,
      or_false] at hn
    rw [hn, ← h₁]
    exact declares_of_kind (d.identified_node _ _) (d.kind_node _ _) (by decide)
  · exact h₁ ▸ declares_typeChanges n hn
  · -- Links of types fold no nodes in.
    obtain ⟨d, -, hn⟩ := List.mem_flatMap.1 hn
    unfold linkChanges at hn
    split at hn
    · cases hn
    · simp at hn
  · obtain ⟨d, -, hn⟩ := List.mem_flatMap.1 hn
    rw [eq_of_mem_memberChanges hn, ← h₂]
    exact declares_callableNode d
  · obtain ⟨d, -, hn⟩ := List.mem_flatMap.1 hn
    rw [eq_of_mem_memberChanges hn, ← h₂]
    exact declares_fieldNode d
  · obtain ⟨ref, -, href⟩ := List.mem_map.1 hn
    cases href

end FileSite

/-- **What a record contributes stays in its language**: apart from the file, every id that its changes
mention is that of a declaration of the language. -/
theorem ParsedFile.within_language (f : ParsedFile) (r : SourceRecord) :
    ∀ c ∈ f.site.recordChanges r, c.Within (OfLanguage f.language) f.site :=
  FileSite.within_recordChanges f.known_site fun n hn =>
    (FileSite.declares_recordChanges n hn).ofLanguage

end CodeAtlas
