import Mathlib.Data.List.Pairwise
import CodeAtlas.Proofs.ImportLinks
import CodeAtlas.Proofs.Innermost

/-!
# Where calls come from

A call of a record is attributed to the innermost callable around its line, put aside as a reference, and
becomes a relationship when all files have been walked and all types are resolved. Relationships with one
source, kind and target are one, the first of them, so a relationship between two callables keeps the line of
one call only. `calls_first_of_innermost` says which: it is a call that the innermost callable makes, and no
call at a smaller line that this callable makes leads to the same target. Which callable is the innermost one
is said by `Innermost`.

* Calls are resolved when the names are complete: the sets along this part of the run differ in their
  relationships only, and calls do not look at these. So all answers can be read in the last set
  (`resolvePending_eq_applyAll`).
* The first relationship of a key is brought by the first reference that brings the key
  (`Register.first_of_mem_foldl`). Since the calls of a file are listed by their lines, and callables of
  different files have different ids, the references of one caller are in the order of their lines
  (`pairwise_inLine`), and the first one has the smallest line.
-/

namespace CodeAtlas

/-! ### The first relationship of a key -/

namespace Register

variable {α β κ : Type} {key : α → κ} [DecidableEq κ]

/-- An entry of a register to which others were added was there, or is one of them with a new key. -/
theorem mem_foldl_insertNew {r : Register α key} {l : List α} {a : α}
    (h : a ∈ (l.foldl insertNew r).entries) : a ∈ r.entries ∨ (a ∈ l ∧ key a ∉ r.keys) := by
  induction l generalizing r with
  | nil => exact .inl h
  | cons b l ih =>
    rcases ih h with h | ⟨hl, hk⟩
    -- An entry that is in the register with `b` was there before, or it is `b` itself.
    · by_cases hb : key b ∈ r.keys
      · rw [insertNew_of_mem hb] at h
        exact .inl h
      · rcases mem_insertNew h with h | rfl
        · exact .inl h
        · exact .inr ⟨List.mem_cons_self, hb⟩
    · exact .inr ⟨List.mem_cons_of_mem b hl, fun h => hk (mem_keys_insertNew.2 (.inl h))⟩

/-- **An entry is brought by the first item that brings its key.** -/
theorem first_of_mem_foldl {r : Register α key} {bring : β → List α} {l : List β} {a : α}
    (h : a ∈ ((l.flatMap bring).foldl insertNew r).entries) :
    a ∈ r.entries ∨ ∃ before b after, l = before ++ b :: after ∧ a ∈ bring b ∧
      ∀ x ∈ before, ∀ y ∈ bring x, key y ≠ key a := by
  -- By induction from the end of the list: an entry that the last element brings is new after all others.
  induction l using List.reverseRecOn with
  | nil => exact .inl h
  | append_singleton l b ih =>
    rw [List.flatMap_append, List.foldl_append, List.flatMap_singleton] at h
    rcases mem_foldl_insertNew h with h | ⟨hb, hnew⟩
    · refine (ih h).imp_right ?_
      rintro ⟨before, c, after, rfl, hc, hfirst⟩
      exact ⟨before, c, after ++ [b], by rw [List.append_assoc, List.cons_append], hc, hfirst⟩
    · refine .inr ⟨l, b, [], rfl, hb, fun x hx y hy hkey => hnew ?_⟩
      exact mem_keys_foldl_insertNew.2 (.inr ⟨y, List.mem_flatMap.2 ⟨x, hx, hy⟩, hkey⟩)

end Register

/-! ### Calls that wait -/

/-- Whether a reference is a call. -/
def Reference.isCall : Reference → Bool
  | .call .. => true
  | _ => false

/-- A reference of a declaration is no call. -/
theorem Reference.isCall_of_isOfDeclaration {ref : Reference} (h : ref.isOfDeclaration = true) :
    ref.isCall = false := by
  cases ref with
  | call => cases h
  | _ => rfl

/-- **References in the order of their lines**, as far as they are calls of one caller. -/
def Reference.InLine : Reference → Reference → Prop
  | .call caller _ _ line, .call caller' _ _ line' => caller = caller' → line ≤ line'
  | _, _ => True

/-- Where one of two references is no call, their order says nothing. -/
theorem Reference.inLine_of_isCall {a b : Reference} (h : a.isCall = false ∨ b.isCall = false) :
    a.InLine b := by
  cases a with
  | call => cases b with
    | call => simp [isCall] at h
    | _ => trivial
  | _ => trivial

/-- Whether a change puts no call aside. -/
def Change.Quiet (c : Change) : Prop :=
  ∀ ref, c = .reference ref → ref.isCall = false

/-- The references among changes are those that changes put aside. -/
theorem Change.mem_filterMap_reference? {l : List Change} {ref : Reference} :
    ref ∈ l.filterMap reference? ↔ Change.reference ref ∈ l := by
  rw [List.mem_filterMap]
  constructor
  · rintro ⟨c, hc, h⟩
    cases c with
    | reference m => exact Option.some.inj h ▸ hc
    | _ => cases h
  · exact fun h => ⟨_, h, rfl⟩

theorem Change.filterMap_reference?_map (refs : List Reference) :
    (refs.map Change.reference).filterMap reference? = refs := by
  rw [List.filterMap_map]
  exact List.filterMap_some

namespace FileSite

variable {f : FileSite} {r : SourceRecord}

/-- To declare a node puts no call aside. -/
theorem quiet_declare {n : Node} {origin : Origin} : ∀ c ∈ Change.declare n origin, c.Quiet := by
  intro c hc ref href
  rcases List.mem_cons.1 hc with rfl | hc
  · cases href
  · rw [List.mem_singleton.1 hc] at href
    cases href

/-- References of declarations are no calls. -/
theorem quiet_references {refs : List Reference} (h : ∀ ref ∈ refs, ref.isOfDeclaration = true) :
    ∀ c ∈ refs.map Change.reference, c.Quiet := by
  rintro c hc ref rfl
  obtain ⟨ref', href, he⟩ := List.mem_map.1 hc
  exact Change.reference.inj he ▸ ref'.isCall_of_isOfDeclaration (h ref' href)

/-- What a member changes is quiet if what it refers to is. -/
theorem quiet_memberChanges {n : Node} {owner : Option String} {k : Category} {refs : List Reference}
    (h : ∀ ref ∈ refs, ref.isOfDeclaration = true) : ∀ c ∈ f.memberChanges n owner k refs, c.Quiet := by
  intro c hc
  rcases List.mem_append.1 hc with hc | hc
  · exact quiet_declare c hc
  rcases List.mem_cons.1 hc with rfl | hc
  · exact fun ref href => nomatch href
  · exact quiet_references h c hc

/-- Types are entered without a reference. -/
theorem quiet_typeChanges (l : List TypeDecl) : ∀ c ∈ f.typeChanges l, c.Quiet := by
  induction l generalizing f with
  | nil => exact fun c hc => nomatch hc
  | cons d l ih =>
    intro c hc
    rcases List.mem_append.1 hc with hc | hc
    · exact quiet_declare c hc
    · exact ih c hc

/-- **Calls are put aside last**, each as a reference from the innermost callable around it. -/
theorem recordChanges_eq_append (f : FileSite) (r : SourceRecord) :
    ∃ quiet, f.recordChanges r = quiet ++ (r.facts.calls.filterMap
        (callRef? ((f.inside r).spans r.facts.callables))).map .reference ∧
      ∀ c ∈ quiet, c.Quiet := by
  refine ⟨_, rfl, fun c hc => ?_⟩
  simp only [List.mem_append] at hc
  -- Scope, imports, types, links of types, callables, fields.
  rcases hc with ((((hc | hc) | hc) | hc) | hc) | hc
  · unfold scopeChanges at hc
    split at hc
    · cases hc
    · rcases List.mem_append.1 hc with hc | hc
      · exact quiet_declare c hc
      rcases List.mem_cons.1 hc with rfl | hc
      · exact fun ref href => nomatch href
      · rw [List.mem_singleton.1 hc]
        exact fun ref href => nomatch href
  · obtain ⟨d, -, hc⟩ := List.mem_flatMap.1 hc
    rcases List.mem_cons.1 hc with rfl | hc
    · exact fun ref href => nomatch href
    rcases List.mem_cons.1 hc with rfl | hc
    · exact fun ref href => nomatch href
    · rw [List.mem_singleton.1 hc]
      exact fun ref href => Change.reference.inj href ▸ rfl
  · exact quiet_typeChanges _ c hc
  · obtain ⟨d, -, hc⟩ := List.mem_flatMap.1 hc
    unfold linkChanges at hc
    split at hc
    · cases hc
    · rcases List.mem_cons.1 hc with rfl | hc
      · exact fun ref href => nomatch href
      · exact quiet_references (isOfDeclaration_typeRefs _ _ d) c hc
  · obtain ⟨d, -, hc⟩ := List.mem_flatMap.1 hc
    refine quiet_memberChanges (fun ref href => ?_) c hc
    rcases List.mem_append.1 href with href | href
    · rcases List.mem_append.1 href with href | href
      · exact isOfDeclaration_overrideRefs _ d ref href
      · exact isOfDeclaration_receiverRefs _ _ ref href
    · exact isOfDeclaration_annotationRefs _ _ _ ref href
  · obtain ⟨d, -, hc⟩ := List.mem_flatMap.1 hc
    refine quiet_memberChanges (fun ref href => ?_) c hc
    rcases List.mem_append.1 href with href | href
    · exact isOfDeclaration_receiverRefs _ _ ref href
    · exact isOfDeclaration_annotationRefs _ _ _ ref href

end FileSite

namespace ParsedFile

variable {f : ParsedFile} {languages : List Language} {record : SourceRecord}

/-- The id of a callable of a file. -/
def callableId (f : ParsedFile) (record : SourceRecord) (d : CallableDecl) : String :=
  ((f.site.inside record).callableNode d).id

/-- The ids of the callables of a file. -/
def callableIds (f : ParsedFile) (languages : List Language) : List String :=
  match f.built languages with
  | .error _ => []
  | .ok record => record.facts.callables.map (f.callableId record)

/-- **A call of a record is attributed to an id**: that of the innermost callable around its line. -/
def Attributes (f : ParsedFile) (record : SourceRecord) (call : CallSite) (caller : String) : Prop :=
  ∃ d, Innermost record.facts.callables call.line d ∧ f.callableId record d = caller

/-- The calls that a file puts aside. -/
def callRefs (f : ParsedFile) (record : SourceRecord) : List Reference :=
  record.facts.calls.filterMap (callRef? ((f.site.inside record).spans record.facts.callables))

/-- The calls that are put aside are those of the record that have a caller. -/
theorem mem_callRefs {ref : Reference} :
    ref ∈ f.callRefs record ↔ ∃ call ∈ record.facts.calls, ∃ caller, f.Attributes record call caller ∧
      ref = .call caller call.callee call.qualifier call.line := by
  unfold callRefs callRef?
  simp only [List.mem_filterMap, Option.map_eq_some_iff, innermost?_spans]
  constructor
  · rintro ⟨call, hcall, caller, hcaller, rfl⟩
    exact ⟨call, hcall, caller, hcaller, rfl⟩
  · rintro ⟨call, hcall, caller, hcaller, rfl⟩
    exact ⟨call, hcall, caller, hcaller, rfl⟩

/-- The references of a file are calls at the end only. -/
theorem exists_references_eq (hb : f.built languages = .ok record) :
    ∃ others, (f.changes languages).filterMap Change.reference? = others ++ f.callRefs record ∧
      ∀ ref ∈ others, ref.isCall = false := by
  obtain ⟨quiet, hq, hquiet⟩ := f.site.recordChanges_eq_append record
  refine ⟨quiet.filterMap Change.reference?, ?_, fun ref href => ?_⟩
  · unfold changes
    rw [hb]
    dsimp only
    rw [hq, List.filterMap_cons, List.filterMap_cons, List.filterMap_append]
    exact congrArg _ (Change.filterMap_reference?_map _)
  · exact hquiet _ (Change.mem_filterMap_reference?.1 href) ref rfl

end ParsedFile

namespace ParsedFile

variable {f g : ParsedFile} {languages : List Language} {record : SourceRecord}

/-- The references that a file puts aside. -/
def references (f : ParsedFile) (languages : List Language) : List Reference :=
  (f.changes languages).filterMap Change.reference?

/-- A caller is one of the callables of its file. -/
theorem Attributes.mem_callableIds (hb : f.built languages = .ok record) {call : CallSite} {caller : String}
    (h : f.Attributes record call caller) : caller ∈ f.callableIds languages := by
  obtain ⟨d, hd, rfl⟩ := h
  unfold callableIds
  rw [hb]
  exact List.mem_map_of_mem hd.mem

/-- **A call that waits was made in a file that is built.** -/
theorem call_mem_references {caller callee : String} {qualifier : Option String} {line : Nat} :
    .call caller callee qualifier line ∈ f.references languages ↔
      ∃ record, f.built languages = .ok record ∧ ∃ call ∈ record.facts.calls,
        f.Attributes record call caller ∧
          call.callee = callee ∧ call.qualifier = qualifier ∧ call.line = line := by
  unfold references
  cases hb : f.built languages with
  | error skip =>
    unfold changes
    rw [hb]
    simp [Change.reference?]
  | ok record =>
    obtain ⟨others, hrefs, hothers⟩ := exists_references_eq hb
    rw [hrefs, List.mem_append, mem_callRefs]
    constructor
    -- All but the calls of the record are no calls.
    · rintro (h | ⟨call, hcall, caller', hattr, he⟩)
      · cases hothers _ h
      · obtain ⟨rfl, rfl, rfl, rfl⟩ := Reference.call.inj he
        exact ⟨record, rfl, call, hcall, hattr, rfl, rfl, rfl⟩
    · rintro ⟨record', he, call, hcall, hattr, rfl, rfl, rfl⟩
      obtain rfl := Except.ok.inj he
      exact .inr ⟨call, hcall, caller, hattr, rfl⟩

/-- The calls of a file wait in the order of their lines. -/
theorem pairwise_references
    (h : ∀ record, f.built languages = .ok record → record.facts.calls.Pairwise fun a b => a.line ≤ b.line) :
    (f.references languages).Pairwise Reference.InLine := by
  unfold references
  cases hb : f.built languages with
  | error skip =>
    unfold changes
    rw [hb]
    exact .nil
  | ok record =>
    obtain ⟨others, hrefs, hothers⟩ := exists_references_eq hb
    rw [hrefs, List.pairwise_append]
    -- Only the calls of the record have to be in order, and these are by assumption.
    refine ⟨?_, ?_, fun a ha b _ => Reference.inLine_of_isCall (.inl (hothers a ha))⟩
    · exact List.pairwise_of_forall_mem_list fun a ha b _ => Reference.inLine_of_isCall (.inl (hothers a ha))
    · refine (h record hb).filterMap _ fun a b hab x hx y hy => ?_
      obtain ⟨caller, -, rfl⟩ := Option.map_eq_some_iff.1 hx
      obtain ⟨caller', -, rfl⟩ := Option.map_eq_some_iff.1 hy
      exact fun _ => hab

/-- Callables with different ids do not make each other's calls. -/
theorem inLine_of_disjoint (h : (f.callableIds languages).Disjoint (g.callableIds languages)) :
    ∀ a ∈ f.references languages, ∀ b ∈ g.references languages, a.InLine b := by
  intro a ha b hb
  cases a with
  | call caller callee qualifier line => cases b with
    | call caller' callee' qualifier' line' =>
      -- Two calls of one caller would make it a callable of both files.
      rintro rfl
      obtain ⟨record, hf, call, -, hattr, -⟩ := call_mem_references.1 ha
      obtain ⟨record', hg, call', -, hattr', -⟩ := call_mem_references.1 hb
      exact absurd (hattr'.mem_callableIds hg) (h (hattr.mem_callableIds hf))
    | _ => trivial
  | _ => trivial

end ParsedFile

namespace ParseResult

variable {r : ParseResult} {languages : List Language}

/-- What waits after all files have been walked is what the files have put aside, file by file. -/
theorem pending_collected :
    (r.collected languages).pending = r.files.flatMap fun f => f.references languages := by
  unfold collected
  rw [WorkingSet.applyAll_eq]
  change [] ++ (r.files.flatMap _).filterMap Change.reference? = _
  rw [List.nil_append, List.filterMap_flatMap]
  rfl

/-- **The calls of one caller wait in the order of their lines.** -/
theorem pairwise_inLine
    (hcalls : ∀ f ∈ r.files, ∀ record, f.built languages = .ok record →
      record.facts.calls.Pairwise fun a b => a.line ≤ b.line)
    (hids : r.files.Pairwise fun f g => (f.callableIds languages).Disjoint (g.callableIds languages)) :
    (r.collected languages).pending.Pairwise Reference.InLine := by
  rw [pending_collected, List.pairwise_flatMap]
  refine ⟨fun f hf => ParsedFile.pairwise_references (hcalls f hf), ?_⟩
  exact hids.imp fun h => ParsedFile.inLine_of_disjoint h

end ParseResult

/-! ### Calls that are resolved -/

namespace WorkingSet

variable {s : WorkingSet} {languages : List Language}

/-- **What a call leads to**, seen from its caller. -/
def LeadsTo (s : WorkingSet) (caller : String) (call : CallSite) (target : String) : Prop :=
  ∃ kind, s.kind? caller = some kind ∧
    s.callee? kind.space (s.originOf caller) call.callee call.qualifier = some target

/-- What a call changes: it relates its caller to the callable that it leads to, if there is one. -/
theorem mem_callChanges_iff {caller callee : String} {qualifier : Option String} {line : Nat} {c : Change} :
    c ∈ s.callChanges caller callee qualifier line ↔
      ∃ kind target, s.kind? caller = some kind ∧
        s.callee? kind.space (s.originOf caller) callee qualifier = some target ∧
        c = .relationship ((Relationship.between .calls caller target).set "line" (.ofNat line)) := by
  refine ⟨mem_callChanges, ?_⟩
  rintro ⟨kind, target, hk, ht, rfl⟩
  unfold callChanges
  rw [hk]
  dsimp only
  rw [ht]
  exact List.mem_cons_self

/-- The set once all references to types are resolved. -/
def resolveTypes (languages : List Language) (s : WorkingSet) : WorkingSet :=
  (s.pending.filter Reference.isHierarchy).foldl (resolveReference languages) { s with pending := [] }

/-- **All other references are answered by the last set**, since they change no names. -/
theorem resolvePending_eq_applyAll (languages : List Language) (s : WorkingSet) :
    s.resolvePending languages = (s.resolveTypes languages).applyAll
      ((s.pending.filter fun r => !r.isHierarchy).flatMap
        (referenceChanges languages (s.resolvePending languages))) := by
  -- The references that are left when all types are resolved.
  have hothers : ∀ ref ∈ s.pending.filter fun r => !r.isHierarchy, ref.isHierarchy = false :=
    fun ref href => (Bool.not_eq_true' _).mp (List.mem_filter.1 href).2
  -- They look at names only, and so give the same changes in every set with the same names.
  have hsame : ∀ t, t.names = (s.resolveTypes languages).names →
      ∀ ref ∈ s.pending.filter fun r => !r.isHierarchy,
        referenceChanges languages t ref = referenceChanges languages (s.resolveTypes languages) ref := by
    intro t ht ref href
    rw [← referenceChanges_names languages (hothers ref href), ht,
      referenceChanges_names languages (hothers ref href)]
  obtain ⟨hrun, hnames⟩ := foldl_resolveReference_eq
    (referenceChanges languages (s.resolveTypes languages))
    (P := fun t => t.names = (s.resolveTypes languages).names) hsame (fun t ht ref href => by
      rw [names_applyAll fun c hc => exists_relationship_of_mem languages (hothers ref href) hc, ht]) rfl
  -- The queue has the references to types first.
  have hqueue : s.resolvePending languages
      = (s.pending.filter fun r => !r.isHierarchy).foldl (resolveReference languages)
        (s.resolveTypes languages) := s.resolvePending_eq languages ▸ List.foldl_append
  rw [← hqueue] at hrun
  rw [← hrun] at hnames
  rw [List.flatMap_congr fun ref href => hsame _ hnames ref href]
  exact hrun

/-- Only calls give relationships between callables. -/
theorem exists_call_of_relates {ref : Reference} {rel : Relationship} (h : Relates ref rel)
    (hkind : rel.kind = .calls) : ∃ caller callee qualifier line, ref = .call caller callee qualifier line := by
  -- No other reference makes a relationship whose verb is that of calls.
  have hverb : rel.kind.verb = .calling := congrArg RelKind.verb hkind
  cases ref with
  | call caller callee qualifier line => exact ⟨_, _, _, _, rfl⟩
  | supertype source name clause =>
    obtain ⟨ns, verb, hmem, target, rfl⟩ := h
    have hnone : ∀ v ∈ Verb.inheritances, v ≠ .calling := by decide
    exact absurd hverb (hnone verb hmem)
  | _ =>
    obtain ⟨_, _, rfl⟩ := h
    cases hverb

/-- **No call is related before all types are resolved.** -/
theorem kind_ne_calls_of_resolveTypes (hs : ∀ rel ∈ s.relationships.entries, rel.kind ≠ .calls) :
    ∀ rel ∈ (s.resolveTypes languages).relationships.entries, rel.kind ≠ .calls := by
  refine foldl_resolveReference_invariant
    (Q := fun t => ∀ rel ∈ t.relationships.entries, rel.kind ≠ .calls) hs fun t ht ref href => ?_
  refine forall_relationships_applyAll ht fun rel hrel hkind => ?_
  obtain ⟨caller, callee, qualifier, line, rfl⟩ := exists_call_of_relates (relates_of_mem hrel) hkind
  cases (List.mem_filter.1 href).2

end WorkingSet

namespace ParseResult

variable {r : ParseResult} {languages : List Language}

/-- The calls that wait when all files have been walked. -/
theorem call_mem_pending {caller callee : String} {qualifier : Option String} {line : Nat} :
    .call caller callee qualifier line ∈ (r.collected languages).pending.filter (fun ref => !ref.isHierarchy) ↔
      ∃ f ∈ r.files, ∃ record, f.built languages = .ok record ∧ ∃ call ∈ record.facts.calls,
        f.Attributes record call caller ∧
          call.callee = callee ∧ call.qualifier = qualifier ∧ call.line = line := by
  simp only [List.mem_filter, Reference.isHierarchy, Bool.not_false, and_true, pending_collected,
    List.mem_flatMap, ParsedFile.call_mem_references]

/-- What an answered reference relates. -/
def relatedBy (r : ParseResult) (languages : List Language) (ref : Reference) : List Relationship :=
  (WorkingSet.referenceChanges languages (workingSet languages r) ref).filterMap Change.relationship?

/-- **A call relates its caller to what it leads to.** -/
theorem mem_relatedBy_call {caller callee : String} {qualifier : Option String} {line : Nat}
    {rel : Relationship} :
    rel ∈ r.relatedBy languages (.call caller callee qualifier line) ↔
      ∃ kind target, (workingSet languages r).kind? caller = some kind ∧
        (workingSet languages r).callee? kind.space ((workingSet languages r).originOf caller) callee qualifier
          = some target ∧
        rel = (Relationship.between .calls caller target).set "line" (.ofNat line) := by
  refine Change.mem_filterMap_relationship?.trans (WorkingSet.mem_callChanges_iff.trans ?_)
  simp only [Change.relationship.injEq]

/-- The relationships of a build: those of the files and of types, and then the answers to all other
references, read in the set that the build ends with. -/
theorem relationships_workingSet :
    (workingSet languages r).relationships
      = (((r.collected languages).pending.filter fun ref => !ref.isHierarchy).flatMap
          (r.relatedBy languages)).foldl Register.insertNew
            ((r.collected languages).resolveTypes languages).relationships := by
  unfold relatedBy
  rw [← List.filterMap_flatMap, r.workingSet_eq]
  conv_lhs => rw [WorkingSet.resolvePending_eq_applyAll, WorkingSet.applyAll_eq]

/-- The files relate only what holds something to what it holds. -/
theorem kind_ne_calls_of_collected :
    ∀ rel ∈ (r.collected languages).relationships.entries, rel.kind ≠ .calls := by
  refine WorkingSet.forall_relationships_applyAll (fun rel hrel => nomatch hrel) fun rel hrel hkind => ?_
  obtain ⟨f, -, hrel⟩ := List.mem_flatMap.1 hrel
  obtain ⟨record, -, hlink⟩ := ParsedFile.mem_recordLinks_of_mem_changes hrel
  have hfresh : f.site.Fresh := ⟨rfl, rfl⟩
  have hcontains := (hfresh.holds_recordLinks rel hlink).1
  rw [hkind] at hcontains
  cases hcontains

/-- **The call that a relationship keeps**: the innermost callable around its line makes it, it leads to the
target, and no call at a smaller line that the same callable makes does. -/
def KeepsFirstCall (r : ParseResult) (languages : List Language) (rel : Relationship) : Prop :=
  ∃ f ∈ r.files, ∃ record, f.built languages = .ok record ∧ ∃ call ∈ record.facts.calls,
    rel.properties.get? "line" = some (.ofNat call.line) ∧ f.Attributes record call rel.source ∧
      (workingSet languages r).LeadsTo rel.source call rel.target ∧
      ∀ g ∈ r.files, ∀ record', g.built languages = .ok record' → ∀ call' ∈ record'.facts.calls,
        g.Attributes record' call' rel.source → (workingSet languages r).LeadsTo rel.source call' rel.target →
          call.line ≤ call'.line

theorem keepsFirstCall_of_mem
    (hcalls : ∀ f ∈ r.files, ∀ record, f.built languages = .ok record →
      record.facts.calls.Pairwise fun a b => a.line ≤ b.line)
    (hids : r.files.Pairwise fun f g => (f.callableIds languages).Disjoint (g.callableIds languages))
    {rel : Relationship} (hrel : rel ∈ (workingSet languages r).relationships.entries)
    (hkind : rel.kind = .calls) : r.KeepsFirstCall languages rel := by
  rw [relationships_workingSet] at hrel
  -- The relationship comes from the first reference that brings its key.
  rcases Register.first_of_mem_foldl hrel with hrel | ⟨before, ref, after, hpending, hrel, hfirst⟩
  · exact absurd hkind (WorkingSet.kind_ne_calls_of_resolveTypes kind_ne_calls_of_collected rel hrel)
  obtain ⟨caller, callee, qualifier, line, rfl⟩ := WorkingSet.exists_call_of_relates
    (WorkingSet.relates_of_mem (Change.mem_filterMap_relationship?.1 hrel)) hkind
  have hwaits : Reference.call caller callee qualifier line
      ∈ (r.collected languages).pending.filter (fun ref => !ref.isHierarchy) :=
    hpending ▸ List.mem_append_right _ List.mem_cons_self
  obtain ⟨f, hf, record, hb, call, hcall, hattr, rfl, rfl, rfl⟩ := call_mem_pending.1 hwaits
  obtain ⟨kind, target, hk, ht, rfl⟩ := mem_relatedBy_call.1 hrel
  have hline : ((Relationship.between .calls caller target).set "line" (.ofNat call.line)).properties.get?
      "line" = some (.ofNat call.line) := (Keyed.get?_insert _ _ _ _).trans (if_pos rfl)
  refine ⟨f, hf, record, hb, call, hcall, hline, hattr, ⟨kind, hk, ht⟩, ?_⟩
  rintro g hg record' hb' call' hcall' hattr' ⟨kind', hk', ht'⟩
  -- The other call waits too, and would have brought the same key.
  have hwaits' := call_mem_pending.2 ⟨g, hg, record', hb', call', hcall', hattr', rfl, rfl, rfl⟩
  have hbrings : _ ∈ r.relatedBy languages (.call caller call'.callee call'.qualifier call'.line) :=
    mem_relatedBy_call.2 ⟨kind', target, hk', ht', rfl⟩
  have horder := (pairwise_inLine hcalls hids).filter fun ref => !ref.isHierarchy
  rw [hpending] at hwaits' horder
  -- It does not wait before the first one, and behind it the lines only grow.
  rcases List.mem_append.1 hwaits' with hbefore | hafter
  · exact (hfirst _ hbefore _ hbrings rfl).elim
  rcases List.mem_cons.1 hafter with heq | hafter
  · exact (Reference.call.inj heq).2.2.2 ▸ Nat.le_refl _
  · have hlater := (List.pairwise_cons.1 (List.pairwise_append.1 horder).2.1).1 _ hafter
    exact hlater rfl

/-- **Every call that leads somewhere is related.** -/
theorem exists_relationship_of_leadsTo {f : ParsedFile} (hf : f ∈ r.files) {record : SourceRecord}
    (hb : f.built languages = .ok record) {call : CallSite} (hcall : call ∈ record.facts.calls)
    {caller target : String} (hattr : f.Attributes record call caller)
    (hleads : (workingSet languages r).LeadsTo caller call target) :
    ∃ rel ∈ (workingSet languages r).relationships.entries,
      rel.kind = .calls ∧ rel.source = caller ∧ rel.target = target := by
  obtain ⟨kind, hk, ht⟩ := hleads
  have hwaits := call_mem_pending.2 ⟨f, hf, record, hb, call, hcall, hattr, rfl, rfl, rfl⟩
  have hbrings : _ ∈ r.relatedBy languages (.call caller call.callee call.qualifier call.line) :=
    mem_relatedBy_call.2 ⟨kind, target, hk, ht, rfl⟩
  -- The call brings its key, so the key is in the register, perhaps with the line of another call.
  have hkey := Register.mem_keys_foldl_insertNew
    (r := ((r.collected languages).resolveTypes languages).relationships).2
      (.inr ⟨_, List.mem_flatMap.2 ⟨_, hwaits, hbrings⟩, rfl⟩)
  rw [← relationships_workingSet, Register.mem_keys_iff] at hkey
  obtain ⟨rel, hrel, hkey⟩ := hkey
  simp only [Relationship.key, Prod.mk.injEq] at hkey
  exact ⟨rel, hrel, hkey.2.1, hkey.1, hkey.2.2⟩

end ParseResult

/-- **Calls come from innermost callables and keep their first lines.** Let the calls of every file be listed
by their lines, and callables of different files have different ids. Then there is a relationship of a call
between two callables exactly if the first one makes a call that leads to the second one, and the line that
the relationship keeps is the smallest line of such a call. On the way, the length of a span is never asked
for unless the span ends where it starts or later. -/
theorem calls_first_of_innermost (languages : List Language) (r : ParseResult)
    (hcalls : ∀ f ∈ r.files, ∀ record, f.built languages = .ok record →
      record.facts.calls.Pairwise fun a b => a.line ≤ b.line)
    (hids : r.files.Pairwise fun f g => (f.callableIds languages).Disjoint (g.callableIds languages)) :
    (∀ rel ∈ (workingSet languages r).relationships.entries, rel.kind = .calls →
      r.KeepsFirstCall languages rel) ∧
    (∀ f ∈ r.files, ∀ record, f.built languages = .ok record → ∀ call ∈ record.facts.calls,
      ∀ caller target, f.Attributes record call caller →
        (workingSet languages r).LeadsTo caller call target →
          ∃ rel ∈ (workingSet languages r).relationships.entries,
            rel.kind = .calls ∧ rel.source = caller ∧ rel.target = target) ∧
    ∀ spans line, checkedInnermost? spans line = some (innermost? spans line) :=
  ⟨fun _ => ParseResult.keepsFirstCall_of_mem hcalls hids,
    fun _ hf _ hb _ hcall _ _ => ParseResult.exists_relationship_of_leadsTo hf hb hcall,
    checkedInnermost?_eq⟩

/-- A project with a function in a function. Both call a third one, the outer one twice. -/
def nestedFunctions : ParseResult :=
  let function (name : String) (span : Span) : CallableDecl := { name, kind := .function, span }
  let call (line : Nat) : CallSite := { callee := "helper", qualifier := none, line, isMethod := false }
  { files := [
      .ofRecord "a.py" (.python "a" none
        { callables := [function "outer" ⟨1, 8⟩, function "inner" ⟨2, 4⟩, function "helper" ⟨10, 11⟩]
          calls := [call 3, call 6, call 7] }),
      .ofRecord "b.py" (.python "b" none { callables := [function "helper" ⟨1, 2⟩] })] }

/-- The inner call keeps its line, and of the two outer ones the first does. -/
theorem calls_first_of_innermost_nestedFunctions :
    (∀ f ∈ nestedFunctions.files, ∀ record, f.built Language.all = .ok record →
        record.facts.calls.Pairwise fun a b => a.line ≤ b.line) ∧
      (nestedFunctions.files.Pairwise fun f g =>
        (f.callableIds Language.all).Disjoint (g.callableIds Language.all)) ∧
      ((workingSet Language.all nestedFunctions).relationships.entries.filter (·.kind = .calls)).map
        (·.properties.get? "line") = [some (.ofNat 3), some (.ofNat 6)] ∧
      ∀ rel ∈ (workingSet Language.all nestedFunctions).relationships.entries, rel.kind = .calls →
        nestedFunctions.KeepsFirstCall Language.all rel := by
  -- The files are fixed, so their calls are listed by the evaluation of both records.
  have hlines : ∀ f ∈ nestedFunctions.files, ∀ record ∈ (f.built Language.all).toOption,
      record.facts.calls.Pairwise fun a b => a.line ≤ b.line := by decide
  have hcalls : ∀ f ∈ nestedFunctions.files, ∀ record, f.built Language.all = .ok record →
      record.facts.calls.Pairwise fun a b => a.line ≤ b.line :=
    fun f hf record hb => hlines f hf record (hb ▸ rfl)
  have hids : nestedFunctions.files.Pairwise fun f g =>
      ∀ id ∈ f.callableIds Language.all, id ∉ g.callableIds Language.all := by decide +kernel
  exact ⟨hcalls, hids, by decide +kernel, (calls_first_of_innermost Language.all nestedFunctions hcalls hids).1⟩

end CodeAtlas
