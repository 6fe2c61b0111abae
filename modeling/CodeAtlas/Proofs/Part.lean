import CodeAtlas.Proofs.NodeIdentity
import CodeAtlas.Proofs.Resolution

/-!
# The part of a working set that belongs to a language

All languages share one working set. The part of it that belongs to one language is what is left when the
ids and paths of all others are taken out (`WorkingSet.restrict`), and a change acts on the part as it acts
on the whole, or not at all (`restrict_apply`).

Which side an id is on can be read off the id: a file is on the side of its language, and anything else on
the side of its namespace (`Part.holdsId`). A working set is `Separated` if the sides do not mix in it: the
type around a declaration is on the side of the declaration, and so on. In a separated set a lookup that
starts on the side of the part finds the same in the part as in the whole:

* `resolve_restrict` — names, as long as only kinds of the language are accepted. The number of candidates
  is what decides here, so it matters that those of other languages are never counted;
* `memberInHierarchy?_restrict`, `overridden?_restrict`, `callee?_restrict` — members and calls, by a search
  that never leaves the side on which it starts (`Reach.nearest?_filter`);
* `filter_importTargets` — imports. These may find files of other languages, so the two lists of targets
  agree only on files of the part.
-/

namespace CodeAtlas

/-! ### Sides -/

/-- **The part of a project that belongs to a language**: the language and its files. -/
structure Part where
  language : Language
  files : List ParsedFile

namespace Part

variable (P : Part)

/-- Whether an id belongs to the part. -/
def holdsId (id : String) : Bool :=
  match kindOfId? id with
  | none => false
  | some k =>
    if k.category = .file then P.files.any fun f => f.node.id == id
    else k.space == P.language.space

/-- Whether a path belongs to the part. -/
def holdsPath (path : String) : Bool :=
  P.files.any fun f => f.path == path

/-- Whether a reference starts in the part. -/
def holdsReference : Reference → Bool
  | .importing file _ _ _ _ => P.holdsPath file
  | r => r.ids.all P.holdsId

/-- Whether a change is one of the part. Warnings belong to no part. -/
def keeps : Change → Bool
  | .node n => P.holdsId n.id
  | .declaration d => P.holdsId d.id
  | .file path _ => P.holdsPath path
  | .scope path _ => P.holdsPath path
  | .relationship r => P.holdsId r.source && P.holdsId r.target
  | .reference r => P.holdsReference r
  | .inheritance child parent => P.holdsId child && P.holdsId parent
  | .warning _ => false

variable {P}

theorem keeps_node (n : Node) : P.keeps (.node n) = P.holdsId n.id := rfl

theorem keeps_relationship (r : Relationship) :
    P.keeps (.relationship r) = (P.holdsId r.source && P.holdsId r.target) := rfl

theorem keeps_inheritance (child parent : String) :
    P.keeps (.inheritance child parent) = (P.holdsId child && P.holdsId parent) := rfl

/-- What is no file is on the side of its namespace. -/
theorem holdsId_of_kind {id : String} {k : NodeKind} (h : kindOfId? id = some k)
    (hk : k.category ≠ .file) : P.holdsId id = (k.space == P.language.space) := by
  unfold holdsId
  rw [h]
  exact if_neg hk

/-- A file is on the side of the files with its id. -/
theorem holdsId_of_file {id : String} {k : NodeKind} (h : kindOfId? id = some k)
    (hk : k.category = .file) : P.holdsId id = P.files.any fun f => f.node.id == id := by
  unfold holdsId
  rw [h]
  exact if_pos hk

theorem space_injective {l m : Language} (h : l.space = m.space) : l = m := by
  revert h
  cases l <;> cases m <;> decide

/-- Ids of declarations are on the side of their language. -/
theorem holdsId_of_language {l : Language} {id : String} (h : OfLanguage l id) :
    P.holdsId id = decide (l = P.language) := by
  obtain ⟨k, hk, hspace, hfile⟩ := h
  rw [holdsId_of_kind hk hfile, hspace, Bool.beq_eq_decide_eq]
  exact decide_eq_decide.2 ⟨space_injective, congrArg _⟩

end Part

/-! ### The restriction of a working set -/

namespace WorkingSet

/-- **The part of a working set**, without warnings. -/
def restrict (s : WorkingSet) (P : Part) : WorkingSet where
  nodes := s.nodes.restrict P.holdsId
  relationships := s.relationships.restrict fun k => P.holdsId k.1 && P.holdsId k.2.2
  declarations := s.declarations.restrict P.holdsId
  pending := s.pending.filter P.holdsReference
  files := s.files.restrict P.holdsPath
  scopes := s.scopes.restrict P.holdsPath
  supertypes := s.supertypes.restrict fun e => P.holdsId e.1 && P.holdsId e.2
  warnings := []

variable {s : WorkingSet} {P : Part}

theorem nodes_restrict :
    (s.restrict P).nodes.entries = s.nodes.entries.filter fun n => P.holdsId n.id := rfl

theorem relationships_restrict :
    (s.restrict P).relationships.entries
      = s.relationships.entries.filter fun r => P.holdsId r.source && P.holdsId r.target := rfl

/-- **A change acts on the part as on the whole, or not at all.** -/
theorem restrict_apply (c : Change) :
    (s.apply c).restrict P = if P.keeps c then (s.restrict P).apply c else s.restrict P := by
  -- A change touches one table, and the part of that table evolves on its own.
  cases c with
  | node n =>
    change { s.restrict P with
      nodes := (s.nodes.upsert Node.mergeFrom id_mergeFrom n).restrict P.holdsId } = _
    rw [Register.restrict_upsert]
    unfold Part.keeps
    split <;> rfl
  | declaration d =>
    change { s.restrict P with declarations := (s.declarations.insertNew d).restrict P.holdsId } = _
    rw [Register.restrict_insertNew]
    unfold Part.keeps
    split <;> rfl
  | file path id =>
    change { s.restrict P with files := (s.files.insert path id).restrict P.holdsPath } = _
    rw [Keyed.restrict_insert]
    unfold Part.keeps
    split <;> rfl
  | scope path name =>
    change { s.restrict P with scopes := (s.scopes.insert path name).restrict P.holdsPath } = _
    rw [Keyed.restrict_insert]
    unfold Part.keeps
    split <;> rfl
  | relationship r =>
    change { s.restrict P with
      relationships := (s.relationships.insertNew r).restrict fun k =>
        P.holdsId k.1 && P.holdsId k.2.2 } = _
    rw [Register.restrict_insertNew]
    unfold Part.keeps Relationship.key
    dsimp only
    split <;> rfl
  | reference r =>
    change { s.restrict P with pending := (s.pending ++ [r]).filter P.holdsReference }
      = if P.holdsReference r then (s.restrict P).apply (.reference r) else s.restrict P
    -- Pending references are a list and not a register, so what is put behind it is filtered by itself.
    rw [List.filter_append, List.filter_singleton]
    cases P.holdsReference r with
    | true => rfl
    | false =>
      change { s.restrict P with pending := s.pending.filter P.holdsReference ++ [] } = _
      rw [List.append_nil]
      rfl
  | inheritance child parent =>
    change { s.restrict P with
      supertypes := (s.supertypes.insertNew (child, parent)).restrict fun e =>
        P.holdsId e.1 && P.holdsId e.2 } = _
    rw [Register.restrict_insertNew]
    unfold Part.keeps
    dsimp only [id]
    split <;> rfl
  | warning m => rfl

/-- **The part after a list of changes** is the part before, after the changes of the part. -/
theorem restrict_applyAll (l : List Change) :
    (s.applyAll l).restrict P = (s.restrict P).applyAll (l.filter P.keeps) := by
  induction l generalizing s with
  | nil => rfl
  | cons c l ih =>
    rw [applyAll_cons, ih, restrict_apply, List.filter_cons]
    cases P.keeps c with
    | true => rfl
    | false => rfl

end WorkingSet

/-! ### Separated working sets -/

namespace Part

variable (P : Part)

/-- A reference that starts on one side, and at no file; an import in a file of the part is one of the
language. -/
def Fits : Reference → Prop
  | .importing file l _ _ _ => P.holdsPath file = true → l = P.language
  | r => ∀ id ∈ r.ids, P.holdsId id = P.holdsReference r ∧
      ∀ k, kindOfId? id = some k → k.category ≠ .file

/-- **A change that does not mix the sides.** -/
def Sound : Change → Prop
  | .node n => n.Identified
  | .declaration d => ∀ o ∈ d.origin.owner, P.holdsId o = P.holdsId d.id
  | .file path id => P.holdsId id = P.holdsPath path
  | .reference r => P.Fits r
  | .inheritance child parent => P.holdsId child = P.holdsId parent
  | _ => True

/-- **A working set in which the sides do not mix.** -/
def Separated (s : WorkingSet) : Prop :=
  ∀ c, s.Holds c → P.Sound c

variable {P} {s : WorkingSet}

/-- Merging does not mix the sides, since it keeps ids. -/
theorem mergeable_sound : WorkingSet.Mergeable P.Sound :=
  fun _ _ _ ha hb => Node.Identified.mergeFrom ha hb

theorem Separated.empty : P.Separated {} :=
  fun c h => absurd h (WorkingSet.not_holds_empty c)

/-- Changes that do not mix the sides keep them apart. -/
theorem Separated.applyAll (hs : P.Separated s) {l : List Change} (hl : ∀ c ∈ l, P.Sound c) :
    P.Separated (s.applyAll l) :=
  WorkingSet.forall_holds_applyAll mergeable_sound hs hl

/-- Leaving references out keeps a set separated. -/
theorem Separated.withPending (hs : P.Separated s) : P.Separated { s with pending := [] } := by
  intro c hc
  cases c with
  | reference r => exact absurd hc List.not_mem_nil
  | _ => exact hs _ hc

/-- In a separated set, the kind of a node can be read off its id. -/
theorem Separated.kindOfId? (hs : P.Separated s) {id : String} {k : NodeKind}
    (h : s.kind? id = some k) : kindOfId? id = some k := by
  obtain ⟨n, hn, rfl⟩ := Option.map_eq_some_iff.1 h
  obtain ⟨hmem, rfl⟩ := Register.get?_eq_some_iff.1 hn
  exact hs (.node n) hmem

/-- A condition that only kinds of the language meet. -/
def Admits (P : Part) (accept : NodeKind → Bool) : Prop :=
  ∀ k, accept k = true → k.space = P.language.space ∧ k.category ≠ .file

/-- A node of an admitted kind is on the side of the part. -/
theorem Separated.holdsId_of_admits (hs : P.Separated s) {accept : NodeKind → Bool}
    (ha : P.Admits accept) {id : String} {k : NodeKind} (h : s.kind? id = some k)
    (hk : accept k = true) : P.holdsId id = true := by
  rw [holdsId_of_kind (hs.kindOfId? h) (ha k hk).2, beq_iff_eq]
  exact (ha k hk).1

/-- Types of the namespace are of the language. -/
theorem admits_isTypeIn : P.Admits (WorkingSet.isTypeIn P.language.space) := by
  intro k hk
  unfold WorkingSet.isTypeIn at hk
  rw [Bool.and_eq_true, beq_iff_eq] at hk
  refine ⟨hk.1, fun h => ?_⟩
  rw [h] at hk
  cases hk.2

theorem admits_isCallableIn : P.Admits (WorkingSet.isCallableIn P.language.space) := by
  intro k hk
  unfold WorkingSet.isCallableIn at hk
  rw [Bool.and_eq_true, beq_iff_eq] at hk
  refine ⟨hk.1, fun h => ?_⟩
  rw [h] at hk
  cases hk.2

end Part

/-! ### Looking up in the part -/

namespace WorkingSet

variable {s : WorkingSet} {P : Part}

/-- A node is found in the part if its id belongs there. -/
theorem node?_restrict (id : String) :
    (s.restrict P).node? id = if P.holdsId id then s.node? id else none :=
  Register.get?_restrict

theorem kind?_restrict (id : String) :
    (s.restrict P).kind? id = if P.holdsId id then s.kind? id else none := by
  unfold kind?
  rw [node?_restrict]
  split <;> rfl

/-- The origin of an id of the part is the same in the part. -/
theorem originOf_restrict {id : String} (h : P.holdsId id = true) :
    (s.restrict P).originOf id = s.originOf id := by
  unfold originOf origin?
  change (((s.declarations.restrict P.holdsId).get? id).map _).getD _ = _
  rw [Register.get?_restrict, if_pos h]

theorem languageOf?_restrict (languages : List Language) {id : String} (h : P.holdsId id = true) :
    (s.restrict P).languageOf? languages id = s.languageOf? languages id := by
  unfold languageOf?
  rw [kind?_restrict, if_pos h]

/-- A scope is found in the part if its path belongs there. -/
theorem scopes_restrict (path : String) :
    (s.restrict P).scopes.get? path = if P.holdsPath path then s.scopes.get? path else none :=
  Keyed.get?_restrict _ _

theorem files_restrict (path : String) :
    (s.restrict P).files.get? path = if P.holdsPath path then s.files.get? path else none :=
  Keyed.get?_restrict _ _

/-- A condition that only declarations of the part meet selects the same in the part. -/
theorem filter_declarations_restrict {q : Declaration → Bool}
    (h : ∀ d ∈ s.declarations.entries, q d = true → P.holdsId d.id = true) :
    (s.restrict P).declarations.entries.filter q = s.declarations.entries.filter q := by
  change (s.declarations.entries.filter fun d => P.holdsId d.id).filter q = _
  rw [List.filter_filter]
  refine List.filter_congr fun d hd => ?_
  -- What the condition takes is in the part, and what it leaves out does not matter.
  cases hq : q d with
  | false => rfl
  | true => rw [h d hd hq, Bool.and_true]

/-! ### Names -/

section Names

variable {accept : NodeKind → Bool} (hs : P.Separated s) (ha : P.Admits accept)
include hs ha

/-- A declaration of an accepted kind is on the side of the part. -/
theorem holdsId_of_accepts {d : Declaration} (h : s.accepts accept d = true) :
    P.holdsId d.id = true := by
  unfold accepts at h
  cases hk : s.kind? d.id with
  | none =>
    rw [hk] at h
    cases h
  | some k =>
    rw [hk] at h
    exact hs.holdsId_of_admits ha hk h

/-- A declaration is accepted in the part exactly if it is in the whole. -/
theorem accepts_restrict (d : Declaration) : (s.restrict P).accepts accept d = s.accepts accept d := by
  cases h : P.holdsId d.id with
  | true =>
    unfold accepts
    rw [kind?_restrict, if_pos h]
  | false =>
    -- Neither side accepts what is not on the side of the part.
    have hn : s.accepts accept d = false := by
      rw [Bool.eq_false_iff]
      intro hd
      rw [holdsId_of_accepts hs ha hd] at h
      cases h
    rw [hn]
    unfold accepts
    rw [kind?_restrict, h]
    rfl

/-- So the accepted declarations are the same, however they are narrowed down. -/
theorem filter_accepts_restrict (p : Declaration → Bool) :
    ((s.restrict P).declarations.entries.filter fun d => p d && (s.restrict P).accepts accept d)
      = s.declarations.entries.filter fun d => p d && s.accepts accept d := by
  simp only [accepts_restrict hs ha]
  refine filter_declarations_restrict fun d _ h => ?_
  rw [Bool.and_eq_true] at h
  exact holdsId_of_accepts hs ha h.2

/-- **Names refer to the same in the part**, as long as only kinds of the language are accepted. -/
theorem resolve_restrict (name : String) (origin : Origin) :
    (s.restrict P).resolve name origin accept = s.resolve name origin accept := by
  rw [resolve_eq, resolve_eq]
  congr 1
  unfold referent? qualified? candidates
  rw [← List.head?_filter, ← List.head?_filter, filter_accepts_restrict hs ha,
    filter_accepts_restrict hs ha]

end Names

end WorkingSet

/-! ### Members -/

namespace Reach

variable {α β : Type} [DecidableEq α] {keep : α → Bool}

/-- Leaving a place and dropping edges commute. -/
theorem others_filter (a : α) (edges : List (α × β)) (q : α × β → Bool) :
    others a (edges.filter q) = (others a edges).filter q := by
  unfold others
  rw [List.filter_filter, List.filter_filter]
  exact List.filter_congr fun e _ => Bool.and_comm _ _

/-- The edges that start at a kept place are kept, if edges lead from kept places to kept places. -/
theorem outgoing_filter {edges : List (α × α)} (he : ∀ e ∈ edges, keep e.1 = keep e.2) {a : α}
    (ha : keep a = true) :
    outgoing a (edges.filter fun e => keep e.1 && keep e.2) = outgoing a edges := by
  unfold outgoing
  rw [List.filter_filter]
  refine List.filter_congr fun e hmem => ?_
  by_cases h : e.1 = a
  · have h₂ : keep e.2 = true := by rw [← he e hmem, h, ha]
    simp [h, ha, h₂]
  · simp [h]

/-- **A search that starts at kept places stays at kept places**, if no edge leads from a kept place to
another one. So it does not matter what the visits of other places answer, or which edges these have. -/
theorem nearest?_filter {visit visit' : α → Option β} (hv : ∀ a, keep a = true → visit' a = visit a)
    {edges : List (α × α)} {queue : List α} (he : ∀ e ∈ edges, keep e.1 = keep e.2)
    (hq : ∀ a ∈ queue, keep a = true) :
    nearest? visit' (edges.filter fun e => keep e.1 && keep e.2) queue = nearest? visit edges queue := by
  -- Along the search in the whole: the queue holds kept places only, and from these no dropped edge starts.
  fun_induction nearest? visit edges queue with
  | case1 edges => rw [nearest?]
  | case2 edges a rest b hb =>
    rw [nearest?, hv a (hq a List.mem_cons_self), hb]
  | case3 edges a rest hb ih =>
    -- The edges that join the queue all start at a kept place, so they lead to kept places.
    have ha : keep a = true := hq a List.mem_cons_self
    rw [nearest?, hv a ha, hb]
    dsimp only
    rw [others_filter, outgoing_filter he ha]
    refine ih (fun e hmem => he e (List.mem_of_mem_filter hmem)) fun b hb => ?_
    rcases List.mem_append.1 hb with hb | hb
    · exact hq b (List.mem_cons_of_mem a hb)
    · obtain ⟨e, hmem, rfl⟩ := List.mem_map.1 hb
      obtain ⟨hmem, hea⟩ := List.mem_filter.1 hmem
      rw [← he e hmem, of_decide_eq_true hea, ha]

end Reach

namespace WorkingSet

variable {s : WorkingSet} {P : Part}

section Members

variable (hs : P.Separated s)
include hs

/-- Members are on the side of their owner. -/
theorem holdsId_of_member {owner : String} (ho : P.holdsId owner = true) {d : Declaration}
    (hd : d ∈ s.declarations.entries) (h : (d.origin.owner == some owner) = true) :
    P.holdsId d.id = true := by
  rw [beq_iff_eq] at h
  rw [← hs (.declaration d) hd owner h, ho]

/-- The members of a type of the part are the same in the part. -/
theorem membersOf_restrict {owner : String} (ho : P.holdsId owner = true) :
    (s.restrict P).membersOf owner = s.membersOf owner := by
  unfold membersOf declared
  rw [filter_declarations_restrict fun d hd h => holdsId_of_member hs ho hd h]

/-- So is the callable that is found among them. -/
theorem callableMember?_restrict (p : String → Bool) (name : String) {owner : String}
    (ho : P.holdsId owner = true) :
    (s.restrict P).callableMember? p name owner = s.callableMember? p name owner := by
  unfold callableMember?
  rw [membersOf_restrict hs ho, ← List.head?_filter, ← List.head?_filter]
  congr 1
  refine List.filter_congr fun id hid => ?_
  -- A member of a type of the part has the same node in the part.
  obtain ⟨d, hd, rfl⟩ := List.mem_map.1 hid
  obtain ⟨hd, hdo⟩ := List.mem_filter.1 hd
  rw [node?_restrict, if_pos (holdsId_of_member hs ho hd hdo)]

/-- Inheritances do not lead from one side to the other. -/
theorem holdsId_supertypes : ∀ e ∈ s.supertypes.entries, P.holdsId e.1 = P.holdsId e.2 :=
  fun e he => hs (.inheritance e.1 e.2) he

/-- **A type of the part inherits the same members in the part.** -/
theorem memberInHierarchy?_restrict {owner : String} (ho : P.holdsId owner = true) (name : String) :
    (s.restrict P).memberInHierarchy? owner name = s.memberInHierarchy? owner name := by
  unfold memberInHierarchy?
  refine Reach.nearest?_filter (fun type ht => callableMember?_restrict hs _ name ht)
    (holdsId_supertypes hs) fun a ha => ?_
  exact List.mem_singleton.1 ha ▸ ho

/-- So are its supertypes. -/
theorem supertypesOf_restrict {child : String} (hc : P.holdsId child = true) :
    (s.restrict P).supertypesOf child = s.supertypesOf child := by
  unfold supertypesOf
  have h := Reach.outgoing_filter (holdsId_supertypes hs) hc
  unfold Reach.outgoing at h
  change (((s.supertypes.entries.filter fun e => P.holdsId e.1 && P.holdsId e.2)).filter _).map _ = _
  have hb : ∀ e : String × String, (e.1 == child) = decide (e.1 = child) :=
    fun e => Bool.beq_eq_decide_eq _ _
  simp only [hb]
  rw [h]

/-- **A member of the part overrides the same in the part.** -/
theorem overridden?_restrict {member owner : String} (ho : P.holdsId owner = true) (name : String) :
    (s.restrict P).overridden? member owner name = s.overridden? member owner name := by
  unfold overridden?
  rw [supertypesOf_restrict hs ho]
  change Reach.nearest? _ (Reach.others owner (s.supertypes.entries.filter fun e =>
    P.holdsId e.1 && P.holdsId e.2)) _ = _
  rw [Reach.others_filter]
  -- The search starts at the supertypes of the owner, all of them on the side of the part.
  refine Reach.nearest?_filter (fun type ht => ?_)
    (fun e he => holdsId_supertypes hs e (List.mem_of_mem_filter he)) fun a ha => ?_
  · rw [callableMember?_restrict hs _ name ht]
  · obtain ⟨e, he, rfl⟩ := List.mem_map.1 ha
    obtain ⟨he, hea⟩ := List.mem_filter.1 he
    rw [← holdsId_supertypes hs e he, beq_iff_eq.1 hea, ho]

/-- **A call in the part refers to the same in the part.** -/
theorem callee?_restrict {origin : Origin} (ho : ∀ o ∈ origin.owner, P.holdsId o = true)
    (callee : String) (qualifier : Option String) :
    (s.restrict P).callee? P.language.space origin callee qualifier
      = s.callee? P.language.space origin callee qualifier := by
  -- The three ways to a callee: a name, a member of the type around the call, a member of a named type.
  have hname : ∀ name, (s.restrict P).resolve name origin (isCallableIn P.language.space)
      = s.resolve name origin (isCallableIn P.language.space) :=
    fun name => resolve_restrict hs Part.admits_isCallableIn name origin
  have howner : (origin.owner.bind fun o => (s.restrict P).memberInHierarchy? o callee)
      = origin.owner.bind fun o => s.memberInHierarchy? o callee := by
    cases h : origin.owner with
    | none => rfl
    | some o => exact memberInHierarchy?_restrict hs (ho o h) callee
  have htype : ∀ q, (((s.restrict P).resolve q origin (isTypeIn P.language.space)).bind fun t =>
        (s.restrict P).memberInHierarchy? t callee)
      = (s.resolve q origin (isTypeIn P.language.space)).bind fun t =>
        s.memberInHierarchy? t callee := by
    intro q
    rw [resolve_restrict hs Part.admits_isTypeIn]
    cases h : s.resolve q origin (isTypeIn P.language.space) with
    | none => rfl
    | some t =>
      obtain ⟨k, hk, hkt⟩ := kind?_of_resolve h
      exact memberInHierarchy?_restrict hs (hs.holdsId_of_admits Part.admits_isTypeIn hk hkt) callee
  unfold callee?
  simp only [hname, howner, htype]

end Members

/-! ### Imports -/

/-- The nodes of a qualified name that meet a condition are the same in the part, if only kinds of the
language meet it. -/
theorem filter_byQualifiedName_restrict (hs : P.Separated s) {c : Node → Bool}
    (hc : ∀ n, c n = true → n.kind.space = P.language.space ∧ n.kind.category ≠ .file) (name : String) :
    (((s.restrict P).byQualifiedName name).filterMap (s.restrict P).node?).filter c
      = ((s.byQualifiedName name).filterMap s.node?).filter c := by
  unfold byQualifiedName declared
  rw [List.filterMap_map, List.filterMap_map, List.filter_filterMap, List.filter_filterMap]
  change ((s.declarations.entries.filter fun d => P.holdsId d.id).filter _).filterMap _ = _
  -- Both sides go through the same declarations, and they differ at those that are outside of the part.
  rw [List.filter_filter, List.filterMap_filter, List.filterMap_filter]
  refine List.filterMap_congr fun d hd => ?_
  dsimp only [Function.comp]
  rw [node?_restrict]
  cases hp : d.qualifiedName == name with
  | false => rfl
  | true =>
    cases hd : P.holdsId d.id with
    | true => rfl
    | false =>
      -- A node that meets the condition would be on the side of the part.
      cases hn : s.node? d.id with
      | none => rfl
      | some n =>
        have hcn : c n = false := by
          rw [Bool.eq_false_iff]
          intro hcn
          have hk : s.kind? d.id = some n.kind := by
            unfold kind?
            rw [hn]
            rfl
          rw [Part.holdsId_of_kind (hs.kindOfId? hk) (hc n hcn).2, (hc n hcn).1] at hd
          simp at hd
        simp [Option.filter, hcn]

/-- The files that declare a name in the namespace are the same in the part. -/
theorem declaringFiles_restrict (hs : P.Separated s) (name : String) :
    (s.restrict P).declaringFiles P.language.space name = s.declaringFiles P.language.space name := by
  unfold declaringFiles
  dsimp only
  rw [filter_byQualifiedName_restrict hs]
  intro n hn
  simp only [Bool.and_eq_true, beq_iff_eq, Bool.not_eq_true'] at hn
  refine ⟨hn.1.1, fun h => ?_⟩
  have := hn.1.2
  rw [h] at this
  cases this

theorem moduleFiles_restrict (hs : P.Separated s) (hl : P.language.space = .generic) (name : String) :
    (s.restrict P).moduleFiles name = s.moduleFiles name := by
  unfold moduleFiles
  dsimp only
  rw [filter_byQualifiedName_restrict hs]
  intro n hn
  rw [beq_iff_eq.1 hn, hl]
  exact ⟨rfl, by decide⟩

theorem filePaths_restrict : (s.restrict P).filePaths = s.filePaths.filter P.holdsPath :=
  Keyed.keys_restrict _

/-- The files of the part that an import on the JVM refers to. -/
theorem filter_qualifiedTargets (hs : P.Separated s) (i : ImportTarget) :
    ((s.restrict P).qualifiedTargets P.language.space i).filter P.holdsPath
      = (s.qualifiedTargets P.language.space i).filter P.holdsPath := by
  unfold qualifiedTargets
  have hfiles : (s.restrict P).declaringFiles P.language.space = s.declaringFiles P.language.space :=
    funext fun name => declaringFiles_restrict hs name
  rw [hfiles]
  dsimp only
  split
  · -- A wildcard may name the scope of files of other languages as well.
    rw [filter_sortedNames, filter_sortedNames, List.filter_append, List.filter_append,
      filePaths_restrict]
    congr 2
    rw [List.filter_filter, List.filter_filter, List.filter_filter]
    refine List.filter_congr fun f _ => ?_
    rw [scopes_restrict]
    cases P.holdsPath f with
    | true => simp
    | false => rfl
  · rfl

/-- The files of the part that an import in Dart refers to. -/
theorem filter_fileTargets (file path : String) :
    ((s.restrict P).fileTargets file path).filter P.holdsPath
      = (s.fileTargets file path).filter P.holdsPath := by
  unfold fileTargets
  split
  · rfl
  · split
    · split
      · dsimp only
        -- A path in a package may be that of a file of any language.
        rw [filePaths_restrict, List.filter_filter, List.filter_filter, List.filter_filter]
        refine List.filter_congr fun f _ => ?_
        cases P.holdsPath f with
        | true => simp
        | false => rfl
      · rfl
    · dsimp only
      rw [files_restrict]
      cases h : P.holdsPath (joinRelative file path) with
      | true => rfl
      | false =>
        -- A file of another language may be found in the whole, but it is no file of the part.
        change [] = _
        split
        · rw [List.filter_cons_of_neg (by rw [h]; decide), List.filter_nil]
        · rfl

/-- An import of a module finds the same in the part. -/
theorem moduleTargets_restrict (hs : P.Separated s) (hl : P.language.space = .generic) {file : String}
    (hf : P.holdsPath file = true) (i : ImportTarget) :
    (s.restrict P).moduleTargets file i = s.moduleTargets file i := by
  unfold moduleTargets
  have hfiles : (s.restrict P).moduleFiles = s.moduleFiles :=
    funext fun name => moduleFiles_restrict hs hl name
  rw [scopes_restrict, if_pos hf, hfiles]

/-- **An import in the part refers to the same files of the part.** -/
theorem filter_importTargets (hs : P.Separated s) {file : String} (hf : P.holdsPath file = true)
    (i : ImportTarget) :
    ((s.restrict P).importTargets P.language file i).filter P.holdsPath
      = (s.importTargets P.language file i).filter P.holdsPath := by
  unfold importTargets
  have hjvm := filter_qualifiedTargets hs i
  -- Java and Kotlin look for qualified names, Dart for paths and Python for modules.
  cases hl : P.language with
  | java =>
    rw [hl] at hjvm
    exact hjvm
  | kotlin =>
    rw [hl] at hjvm
    exact hjvm
  | dart => exact filter_fileTargets file i.path
  | python =>
    dsimp only
    rw [moduleTargets_restrict hs (by rw [hl]; rfl) hf]

end WorkingSet

end CodeAtlas
