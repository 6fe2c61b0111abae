import CodeAtlas.Proofs.Merging
import CodeAtlas.Proofs.Plan

/-!
# Files that are walked twice

Feeding the files of a project to a build twice changes nothing in its plan (`plan_twice`). The proof
compares the two runs in what lasts of their working sets, that is, in everything but the references that
wait and the warnings (`WorkingSet.lasting`).

* Changes that are applied again change nothing that lasts (`lasting_applyAll_twice`). Each table of a
  working set is built from the changes of its own sort alone (`applyAll_eq`), so this is a statement about
  each table: nodes fill gaps once, first entries win, and last scopes win.
* The files are therefore as good as walked once, but every reference waits twice. Those to types come
  first, twice, and then all others, twice.
* An answer is the same at every point of its phase. Resolving a type adds stand-ins, relationships and
  inheritances, and none of these is looked at when a type is resolved: names lead to declarations only, and
  the kind of a node can be read off its id (`referenceChanges_of_extends`). Resolving any other reference
  adds only relationships, which nothing looks at (`referenceChanges_names`).
* So each phase is one list of changes applied twice (`lasting_foldl_twice`).
-/

namespace CodeAtlas

namespace WorkingSet

/-! ### What lasts -/

/-- **What lasts of a working set**: all of it but the references that wait and the warnings. -/
def lasting (s : WorkingSet) : WorkingSet :=
  { s with pending := [], warnings := [] }

variable {s t : WorkingSet}

/-- What lasts evolves on its own. -/
theorem lasting_applyAll (h : s.lasting = t.lasting) (l : List Change) :
    (s.applyAll l).lasting = (t.applyAll l).lasting := by
  unfold lasting at h ⊢
  rw [applyAll_eq, applyAll_eq]
  simp only [mk.injEq] at h ⊢
  obtain ⟨h₁, h₂, h₃, -, h₄, h₅, h₆, -⟩ := h
  rw [h₁, h₂, h₃, h₄, h₅, h₆]
  simp

/-- **Changes that are applied again change nothing that lasts**, if no real declaration meets a
stand-in. -/
theorem lasting_applyAll_twice {l : List Change} (h : s.nodes.Gentle (l.filterMap Change.node?)) :
    ((s.applyAll l).applyAll l).lasting = (s.applyAll l).lasting := by
  unfold lasting
  rw [applyAll_eq (s.applyAll l), applyAll_eq s]
  simp only [Register.foldNodes_twice h, Register.foldl_insertNew_twice, Keyed.foldl_insert_twice]

/-! ### Answers to references to types -/

/-- Nodes whose ids tell their kinds stay so, if only such nodes are folded in. -/
theorem identified_applyAll {l : List Change} (hs : ∀ n ∈ s.nodes.entries, n.Identified)
    (hl : ∀ n, Change.node n ∈ l → n.Identified) :
    ∀ n ∈ (s.applyAll l).nodes.entries, n.Identified :=
  forall_nodes_applyAll (fun _ _ ha hb => ha.mergeFrom hb) hs hl

/-- The kind of a node that is there can be read off its id. -/
theorem kind?_eq_kindOfId? (hs : ∀ n ∈ s.nodes.entries, n.Identified) {id : String}
    (h : id ∈ s.nodes.keys) : s.kind? id = kindOfId? id := by
  obtain ⟨n, hn, rfl⟩ := Register.mem_keys_iff.1 h
  unfold kind? node?
  rw [Register.get?_eq_some_iff.2 ⟨hn, rfl⟩]
  exact (hs n hn).symm

/-- **A set that knows the declarations of another one**, and has at least its nodes. -/
structure Extends (s t : WorkingSet) : Prop where
  declarations : t.declarations = s.declarations
  keys : ∀ id ∈ s.nodes.keys, id ∈ t.nodes.keys
  identified : ∀ n ∈ t.nodes.entries, n.Identified

namespace Extends

variable (hs : s.Extends s) (h : s.Extends t)
include hs h

/-- A node of the smaller set has the same kind in the larger one. -/
theorem kind? {id : String} (hid : id ∈ s.nodes.keys) : t.kind? id = s.kind? id := by
  rw [kind?_eq_kindOfId? h.identified (h.keys id hid), kind?_eq_kindOfId? hs.identified hid]

theorem languageOf? (languages : List Language) {id : String} (hid : id ∈ s.nodes.keys) :
    t.languageOf? languages id = s.languageOf? languages id := by
  unfold WorkingSet.languageOf?
  rw [hs.kind? h hid]

omit hs in
theorem originOf (id : String) : t.originOf id = s.originOf id := by
  unfold WorkingSet.originOf origin?
  rw [h.declarations]

variable (hclosed : s.Closed)
include hclosed

/-- The accepted declarations are the same. -/
theorem accepted_declared (accept : NodeKind → Bool) (p : Declaration → Bool) :
    t.accepted accept (t.declared p) = s.accepted accept (s.declared p) := by
  rw [WorkingSet.accepted_declared, WorkingSet.accepted_declared, h.declarations]
  congr 1
  refine List.filter_congr fun d hd => ?_
  -- A declaration has a node in both sets.
  have hid : d.id ∈ s.nodes.keys := hclosed (.declaration d) hd d.id List.mem_cons_self
  unfold accepts
  rw [hs.kind? h hid]

/-- **Names refer to the same declarations.** -/
theorem resolve (name : String) (origin : Origin) (accept : NodeKind → Bool) :
    t.resolve name origin accept = s.resolve name origin accept := by
  have hchoose : ∀ candidates, t.choose origin candidates = s.choose origin candidates := by
    intro candidates
    unfold choose origin?
    rw [h.declarations]
  unfold WorkingSet.resolve byQualifiedName bySimpleName
  simp only [hs.accepted_declared h hclosed, hchoose]

theorem typeTarget (ns : Namespace) (origin : Origin) (name : String) (stub : Category) :
    t.typeTarget ns origin name stub = s.typeTarget ns origin name stub := by
  unfold WorkingSet.typeTarget
  rw [hs.resolve h hclosed]

end Extends

/-- The kind of the type that a name refers to can be read off its id, whether it is found or brought
along. -/
theorem kind?_typeTarget (hs : ∀ n ∈ s.nodes.entries, n.Identified) (ns : Namespace) (origin : Origin)
    (name : String) (stub : Category) :
    (s.applyAll (s.typeTarget ns origin name stub).1).kind? (s.typeTarget ns origin name stub).2
      = kindOfId? (s.typeTarget ns origin name stub).2 := by
  refine kind?_eq_kindOfId? (identified_applyAll hs fun n hn => ?_)
    (mem_keys_applyAll.2 (s.mem_keys_typeTarget ns origin name stub))
  unfold typeTarget at hn
  -- A type that is found brings no node along; otherwise the only node is the stand-in.
  cases hr : s.resolve name origin (isTypeIn ns) with
  | some id =>
    rw [hr] at hn
    cases hn
  | none =>
    rw [hr] at hn
    rw [Change.node.inj (List.mem_singleton.1 hn)]
    exact Node.identified_stub _ _

/-- **A reference to a type has the same answer in every set that extends the first one.** -/
theorem referenceChanges_of_extends (hs : s.Extends s) (hclosed : s.Closed) (h : s.Extends t)
    (languages : List Language) {r : Reference} (hr : r.isHierarchy = true)
    (hids : ∀ id ∈ r.ids, id ∈ s.nodes.keys) :
    referenceChanges languages t r = referenceChanges languages s r := by
  -- Only supertypes and receivers build the hierarchy, so the other kinds are excluded by `hr`.
  cases r with
  | supertype source name clause =>
    have hsource : source ∈ s.nodes.keys := hids source List.mem_cons_self
    change supertypeChanges languages t source name clause = supertypeChanges languages s source name clause
    unfold supertypeChanges
    rw [hs.languageOf? h languages hsource, h.originOf]
    cases s.languageOf? languages source with
    | none => rfl
    | some e =>
      dsimp only
      rw [kind?_typeTarget h.identified, kind?_typeTarget hs.identified, hs.typeTarget h hclosed]
  | extension source receiver =>
    have hsource : source ∈ s.nodes.keys := hids source List.mem_cons_self
    change extensionChanges languages t source receiver = extensionChanges languages s source receiver
    unfold extensionChanges
    rw [hs.languageOf? h languages hsource, h.originOf]
    cases s.languageOf? languages source with
    | none => rfl
    | some e =>
      dsimp only
      rw [hs.typeTarget h hclosed]
  | _ => cases hr

/-- The nodes among answers are stand-ins. -/
theorem exists_stub_of_mem (languages : List Language) {r : Reference} {n : Node}
    (hn : Change.node n ∈ referenceChanges languages s r) : ∃ k name, n = Node.stub k name := by
  obtain ⟨-, -, k, c, name, -, -, rfl⟩ := answers_referenceChanges languages r _ hn
  exact ⟨⟨k.space, c⟩, name, rfl⟩

/-- Answers lead from an extending set to an extending set. -/
theorem Extends.applyAll (h : s.Extends t) (languages : List Language) (u : WorkingSet) (r : Reference) :
    s.Extends (t.applyAll (referenceChanges languages u r)) := by
  refine ⟨?_, fun id hid => mem_keys_applyAll.2 (.inl (h.keys id hid)),
    identified_applyAll h.identified fun n hn => ?_⟩
  · rw [applyAll_eq, filterMap_referenceChanges Change.declaration? (fun _ => rfl) (fun _ => rfl)
      (fun _ _ => rfl)]
    exact h.declarations
  · obtain ⟨k, name, rfl⟩ := exists_stub_of_mem languages hn
    exact Node.identified_stub k name

/-! ### Answers to all other references -/

/-- What references other than those to types are answered from: all of a set but its relationships, and
what does not last. -/
def names (s : WorkingSet) : WorkingSet :=
  { s with relationships := ∅, pending := [], warnings := [] }

/-- **Nothing but a reference to a type looks beyond the names.** -/
theorem referenceChanges_names (languages : List Language) {r : Reference} (hr : r.isHierarchy = false) :
    referenceChanges languages s.names r = referenceChanges languages s r := by
  cases r with
  | supertype source name clause => cases hr
  | extension source receiver => cases hr
  | _ => rfl

/-- Such a reference only relates. -/
theorem exists_relationship_of_mem (languages : List Language) {r : Reference}
    (hr : r.isHierarchy = false) {c : Change} (hc : c ∈ referenceChanges languages s r) :
    ∃ rel, c = .relationship rel := by
  -- The answers to references to types are left out; each of the others gives relationships only.
  cases r with
  | supertype source name clause => cases hr
  | extension source receiver => cases hr
  | overriding member owner name =>
    obtain ⟨kind, target, -, -, rfl⟩ := mem_overrideChanges hc
    exact ⟨_, rfl⟩
  | annotated source name =>
    obtain ⟨kind, target, -, -, rfl⟩ := mem_annotationChanges hc
    exact ⟨_, rfl⟩
  | call caller callee qualifier line =>
    obtain ⟨kind, target, -, -, rfl⟩ := mem_callChanges hc
    exact ⟨_, rfl⟩
  | importing file l i line statement =>
    obtain ⟨source, target, id, -, -, -, rfl⟩ := mem_importChanges hc
    exact ⟨_, rfl⟩

/-- Relating changes no names. -/
theorem names_applyAll {l : List Change} (h : ∀ c ∈ l, ∃ rel, c = .relationship rel) :
    (s.applyAll l).names = s.names := by
  induction l generalizing s with
  | nil => rfl
  | cons c l ih =>
    obtain ⟨rel, rfl⟩ := h c List.mem_cons_self
    exact ih fun d hd => h d (List.mem_cons_of_mem _ hd)

/-! ### Two runs -/

section Runs

variable {languages : List Language} {l : List Reference} {P : WorkingSet → Prop}
  (answer : Reference → List Change)

/-- **References whose answers do not depend on the point of the run** are one list of changes. -/
theorem foldl_resolveReference_eq
    (hanswer : ∀ t, P t → ∀ r ∈ l, referenceChanges languages t r = answer r)
    (hstep : ∀ t, P t → ∀ r ∈ l, P (t.applyAll (answer r))) (hs : P s) :
    l.foldl (resolveReference languages) s = s.applyAll (l.flatMap answer) ∧
      P (s.applyAll (l.flatMap answer)) := by
  induction l generalizing s with
  | nil => exact ⟨rfl, hs⟩
  | cons r l ih =>
    -- The answer is known beforehand, whatever the references before it have added.
    have hr : resolveReference languages s r = s.applyAll (answer r) := by
      rw [resolveReference_eq, hanswer s hs r List.mem_cons_self]
    rw [List.foldl_cons, hr, List.flatMap_cons, applyAll_append]
    exact ih (fun t ht q hq => hanswer t ht q (List.mem_cons_of_mem r hq))
      (fun t ht q hq => hstep t ht q (List.mem_cons_of_mem r hq))
      (hstep s hs r List.mem_cons_self)

/-- **A run over references that wait twice** ends where a run over them ends that starts alike. -/
theorem lasting_foldl_twice
    (hanswer : ∀ t, P t → ∀ r ∈ l, referenceChanges languages t r = answer r)
    (hstep : ∀ t, P t → ∀ r ∈ l, P (t.applyAll (answer r))) (hs : P s) (ht : P t)
    (hst : s.lasting = t.lasting) :
    ((l ++ l).foldl (resolveReference languages) s).lasting
      = (l.foldl (resolveReference languages) t).lasting := by
  obtain ⟨hs₁, hP⟩ := foldl_resolveReference_eq answer hanswer hstep hs
  obtain ⟨hs₂, -⟩ := foldl_resolveReference_eq answer hanswer hstep hP
  obtain ⟨ht₁, -⟩ := foldl_resolveReference_eq answer hanswer hstep ht
  -- All nodes of the answers are stand-ins.
  have hstub : ∀ n ∈ (l.flatMap answer).filterMap Change.node?, n.isStub = true := by
    intro n hn
    obtain ⟨r, hr, hn⟩ := List.mem_flatMap.1 (Change.mem_filterMap_node?.1 hn)
    rw [← hanswer s hs r hr] at hn
    obtain ⟨k, name, rfl⟩ := exists_stub_of_mem languages hn
    exact Node.isStub_stub k name
  have hgentle : s.nodes.Gentle ((l.flatMap answer).filterMap Change.node?) :=
    ⟨fun _ _ a ha _ => hstub a ha, fun _ _ a ha _ => hstub a ha⟩
  calc ((l ++ l).foldl (resolveReference languages) s).lasting
      = ((s.applyAll (l.flatMap answer)).applyAll (l.flatMap answer)).lasting := by
        rw [List.foldl_append, hs₁, hs₂]
    _ = (s.applyAll (l.flatMap answer)).lasting := lasting_applyAll_twice hgentle
    _ = (t.applyAll (l.flatMap answer)).lasting := lasting_applyAll hst _
    _ = (l.foldl (resolveReference languages) t).lasting := by rw [ht₁]

/-- References to types that wait twice. The answers are those of the set in which they wait. -/
theorem lasting_types_twice (hs : s.Extends s) (hclosed : s.Closed) (ht : s.Extends t)
    (hst : t.lasting = s.lasting)
    (hl : ∀ r ∈ l, r.isHierarchy = true ∧ ∀ id ∈ r.ids, id ∈ s.nodes.keys) :
    ((l ++ l).foldl (resolveReference languages) t).lasting
      = (l.foldl (resolveReference languages) s).lasting := by
  refine lasting_foldl_twice (referenceChanges languages s) (P := s.Extends) (fun u hu r hr => ?_)
    (fun u hu r _ => hu.applyAll languages s r) ht hs hst
  obtain ⟨hh, hids⟩ := hl r hr
  exact referenceChanges_of_extends hs hclosed hu languages hh hids

/-- All other references that wait twice. The sets along the run differ in their relationships only. -/
theorem lasting_others_twice (hst : t.lasting = s.lasting) (hl : ∀ r ∈ l, r.isHierarchy = false) :
    ((l ++ l).foldl (resolveReference languages) t).lasting
      = (l.foldl (resolveReference languages) s).lasting := by
  have hnames : t.names = s.names := congrArg (fun u : WorkingSet => { u with relationships := ∅ }) hst
  refine lasting_foldl_twice (referenceChanges languages s) (P := fun u => u.names = s.names)
    (fun u hu r hr => ?_) (fun u hu r hr => ?_) hnames rfl hst
  · rw [← referenceChanges_names languages (hl r hr), hu, referenceChanges_names languages (hl r hr)]
  · rw [names_applyAll fun c hc => exists_relationship_of_mem languages (hl r hr) hc, hu]

end Runs

/-- **References that wait twice** are resolved as if they waited once. -/
theorem lasting_resolvePending_twice (languages : List Language) (hclosed : s.Closed)
    (hs : ∀ n ∈ s.nodes.entries, n.Identified) (hst : t.lasting = s.lasting)
    (hpending : t.pending = s.pending ++ s.pending) :
    (t.resolvePending languages).lasting = (s.resolvePending languages).lasting := by
  have hnodes : t.lasting.nodes = s.lasting.nodes := congrArg nodes hst
  have hdeclarations : t.lasting.declarations = s.lasting.declarations := congrArg declarations hst
  have hself : ({ s with pending := [] } : WorkingSet).Extends { s with pending := [] } :=
    ⟨rfl, fun _ h => h, hs⟩
  have hextends : ({ s with pending := [] } : WorkingSet).Extends { t with pending := [] } :=
    ⟨hdeclarations, fun id hid => hnodes ▸ hid, hnodes ▸ hs⟩
  have hqueue : ∀ u : WorkingSet, u.resolvePending languages
      = (u.pending.filter fun r => !r.isHierarchy).foldl (resolveReference languages)
        ((u.pending.filter Reference.isHierarchy).foldl (resolveReference languages)
          { u with pending := [] }) := fun u => u.resolvePending_eq languages ▸ List.foldl_append
  -- The phases are run one after the other, and what waits twice does so in each of them.
  rw [hqueue, hqueue, hpending, List.filter_append, List.filter_append]
  refine lasting_others_twice (lasting_types_twice hself hclosed.withPending hextends hst
    fun r hr => ?_) fun r hr => ?_
  · obtain ⟨hr, hh⟩ := List.mem_filter.1 hr
    exact ⟨hh, hclosed (.reference r) hr⟩
  · exact (Bool.not_eq_true' _).mp (List.mem_filter.1 hr).2

end WorkingSet

/-! ### Builds -/

namespace ParsedFile

variable {f : ParsedFile} {languages : List Language} {n : Node}

/-- A file brings no stand-ins. -/
theorem isStub_of_mem_changes (hn : Change.node n ∈ f.changes languages) : n.isStub = false := by
  obtain ⟨record, -, rfl | hn⟩ := mem_recordNodes_of_mem_changes hn
  · exact f.made_node.isStub_eq_false
  · exact (f.site.made_recordNodes record n hn).isStub_eq_false

/-- The ids of all nodes that a file brings tell their kinds. -/
theorem identified_of_mem_changes (hn : Change.node n ∈ f.changes languages) : n.Identified := by
  obtain ⟨record, -, rfl | hn⟩ := mem_recordNodes_of_mem_changes hn
  · exact f.identified_node
  · rw [← FileSite.filterMap_node?_recordChanges, Change.mem_filterMap_node?] at hn
    exact (FileSite.declares_recordChanges n hn).identified

end ParsedFile

/-- **The project with all its files twice.** -/
def ParseResult.twice (r : ParseResult) : ParseResult :=
  { r with files := r.files ++ r.files }

/-- **The working set of a project whose files come twice.** -/
theorem lasting_workingSet_twice (languages : List Language) (r : ParseResult) :
    (workingSet languages r.twice).lasting = (workingSet languages r).lasting := by
  unfold workingSet
  rw [foldl_addParsedFile, foldl_addParsedFile]
  change (WorkingSet.resolvePending languages (({} : WorkingSet).applyAll
    ((r.files ++ r.files).flatMap (·.changes languages)))).lasting = _
  rw [List.flatMap_append, WorkingSet.applyAll_append]
  generalize hall : r.files.flatMap (·.changes languages) = all
  have hfile : ∀ n, Change.node n ∈ all → ∃ f : ParsedFile, Change.node n ∈ f.changes languages := by
    intro n hn
    rw [← hall] at hn
    obtain ⟨f, -, hf⟩ := List.mem_flatMap.1 hn
    exact ⟨f, hf⟩
  -- Files bring no stand-ins, and none is there before references are resolved.
  have hgentle : ({} : WorkingSet).nodes.Gentle (all.filterMap Change.node?) := by
    refine ⟨fun b hb => absurd hb List.not_mem_nil, fun b hb a _ hstub => ?_⟩
    obtain ⟨f, hf⟩ := hfile b (Change.mem_filterMap_node?.1 hb)
    exact absurd hstub (by rw [ParsedFile.isStub_of_mem_changes hf]; exact Bool.false_ne_true)
  refine WorkingSet.lasting_resolvePending_twice languages ?_ ?_
    (WorkingSet.lasting_applyAll_twice hgentle) ?_
  · exact WorkingSet.Closed.empty.applyAll (hall ▸ WorkingSet.grounded_flatMap r.files languages)
  · refine WorkingSet.identified_applyAll (fun n hn => nomatch hn) fun n hn => ?_
    obtain ⟨f, hf⟩ := hfile n hn
    exact ParsedFile.identified_of_mem_changes hf
  · rw [WorkingSet.applyAll_eq, WorkingSet.applyAll_eq]
    rfl

/-- **Feeding the same files twice changes nothing** but the warnings: the plan has the same statements in
the same order, the same created nodes and the same counts, and the report of the build says so. -/
theorem plan_twice (settings : BuildSettings) (r : ParseResult) :
    let once := plan settings r
    let twice := plan settings r.twice
    twice.statements = once.statements ∧ twice.nodes.map (·.id) = once.nodes.map (·.id) ∧
      twice.nodeCounts = once.nodeCounts ∧ twice.relationshipCounts = once.relationshipCounts ∧
      ∀ listed, ∀ field ∈ ["statements", "created_nodes", "node_types", "relationship_types"],
        ((build settings r.twice).toJson listed).field? field
          = ((build settings r).toJson listed).field? field := by
  intro once twice
  have hlasting := lasting_workingSet_twice settings.languages r
  have hnodes : (workingSet settings.languages r.twice).lasting.nodes
      = (workingSet settings.languages r).lasting.nodes := by rw [hlasting]
  have hrels : (workingSet settings.languages r.twice).lasting.relationships
      = (workingSet settings.languages r).lasting.relationships := by rw [hlasting]
  change (workingSet settings.languages r.twice).nodes = (workingSet settings.languages r).nodes at hnodes
  change (workingSet settings.languages r.twice).relationships
    = (workingSet settings.languages r).relationships at hrels
  -- A plan reads nothing but these two tables and the warnings.
  have hplan : twice = { once with warnings := twice.warnings } := by
    change plan settings r.twice = { plan settings r with warnings := (plan settings r.twice).warnings }
    unfold plan
    rw [Plan.ofWorkingSet_eq, Plan.ofWorkingSet_eq]
    unfold Plan.relationshipsOf Plan.nodesOf
    rw [hnodes, hrels]
  have hreport : build settings r.twice = { plan := { once with warnings := twice.warnings } } :=
    congrArg (BuildReport.mk · 0 none) hplan
  rw [hplan, hreport]
  refine ⟨rfl, rfl, rfl, rfl, fun listed field hfield => ?_⟩
  simp only [List.mem_cons, List.not_mem_nil, or_false] at hfield
  -- None of the fields is the one of the warnings.
  rcases hfield with rfl | rfl | rfl | rfl <;> rfl

end CodeAtlas
