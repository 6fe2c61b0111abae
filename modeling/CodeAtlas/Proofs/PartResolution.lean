import CodeAtlas.Proofs.Part

/-!
# References in a part of a working set

Resolution is where the languages could meet: it reads the one index of names, the one table of files and
the one hierarchy. This module shows that they do not. In a separated working set,

* a reference that starts outside of the part changes nothing in the part
  (`keeps_of_not_holdsReference`): its relationships start outside, and its stand-ins are in the namespace
  of a node outside;
* a reference that starts in the part makes the changes that it would make in the part alone, and perhaps
  links to files of other languages, which do not belong to the part (`filter_referenceChanges`);
* no reference mixes the sides (`sound_referenceChanges`), so the next one finds the set separated again.

The first two make one step of the two runs (`restrict_resolveReference`), and with the third an induction
over the references gives the whole run: resolving all references commutes with taking the part
(`restrict_resolvePending`).
-/

namespace CodeAtlas

namespace WorkingSet

variable {s : WorkingSet} {P : Part} {languages : List Language} {r : Reference}

/-! ### References -/

/-- A reference starts on its side. -/
theorem holdsId_of_startsAt (hs : P.Separated s) (hr : P.Fits r) {id : String} (h : s.StartsAt r id) :
    P.holdsId id = P.holdsReference r := by
  cases r with
  | importing file l i line statement => exact hs (.file file id) h
  | _ => exact (hr id h).1

/-- A node that a reference mentions is in the namespace of the language exactly if the reference is in the
part. -/
theorem space_of_mem_ids (hs : P.Separated s) (hr : P.Fits r) {id : String} (hid : id ∈ r.ids)
    {k : NodeKind} (hk : s.kind? id = some k) :
    (k.space == P.language.space) = P.holdsReference r := by
  have hkind := hs.kindOfId? hk
  cases r with
  | importing file l i line statement => cases hid
  | _ =>
    obtain ⟨hside, hfile⟩ := hr id hid
    rw [← hside, Part.holdsId_of_kind hkind (hfile k hkind)]

/-- A stand-in for a type is on the side of its namespace. -/
theorem holdsId_stub {ns : Namespace} {c : Category} (hc : c.isType = true) (name : String) :
    P.holdsId (Node.stub ⟨ns, c⟩ name).id = (ns == P.language.space) := by
  refine Part.holdsId_of_kind (Node.identified_stub ⟨ns, c⟩ name) fun h => ?_
  change c = .file at h
  rw [h] at hc
  cases hc

/-- What a reference brings along is on its side. -/
theorem holdsId_standIn (hs : P.Separated s) (hr : P.Fits r) {n : Node}
    (h : s.Answers r (.node n)) : P.holdsId n.id = P.holdsReference r := by
  obtain ⟨source, hsource, k, c, name, hk, htype, rfl⟩ := h
  exact (holdsId_stub htype name).trans (space_of_mem_ids hs hr hsource hk)

/-- Both ends of an inheritance are on one side. -/
theorem sound_inheritance (hs : P.Separated s) (hr : P.Fits r) {child parent : String}
    (h : s.Answers r (.inheritance child parent)) :
    P.holdsId child = P.holdsReference r ∧ P.holdsId parent = P.holdsReference r := by
  obtain ⟨hchild, k, hk, hparent⟩ := h
  have hspace := space_of_mem_ids hs hr hchild hk
  constructor
  · cases r with
    | importing file l i line statement => cases hchild
    | _ => exact (hr child hchild).1
  · rw [← hspace]
    -- The parent is a type of the same namespace, found or not.
    rcases hparent with ⟨k', hk', htype⟩ | ⟨c, name, hc, rfl⟩
    · unfold isTypeIn at htype
      rw [Bool.and_eq_true, beq_iff_eq] at htype
      rw [Part.holdsId_of_kind (hs.kindOfId? hk'), htype.1]
      intro h
      rw [h] at htype
      cases htype.2
    · exact holdsId_stub hc name

/-- **References keep a working set separated.** -/
theorem sound_referenceChanges (hs : P.Separated s) (hr : P.Fits r) :
    ∀ c ∈ referenceChanges languages s r, P.Sound c := by
  intro c hc
  have ha := answers_referenceChanges languages r c hc
  -- Of the answers to a reference, a stand-in tells its kind, and a link of inheritance stays on one side.
  cases c with
  | node n =>
    obtain ⟨source, -, k, c, name, -, -, rfl⟩ := ha
    exact Node.identified_stub _ _
  | relationship rel => trivial
  | inheritance child parent =>
    obtain ⟨hchild, hparent⟩ := sound_inheritance hs hr ha
    exact hchild.trans hparent.symm
  | _ => exact ha.elim

/-- A reference that starts outside of the part changes nothing in the part. -/
theorem keeps_of_not_holdsReference (hs : P.Separated s) (hr : P.Fits r)
    (h : P.holdsReference r = false) :
    ∀ c ∈ referenceChanges languages s r, P.keeps c = false := by
  intro c hc
  have ha := answers_referenceChanges languages r c hc
  -- Each change is on the side of the source of its reference.
  cases c with
  | node n => exact (holdsId_standIn hs hr ha).trans h
  | relationship rel =>
    rw [Part.keeps_relationship, holdsId_of_startsAt hs hr ha, h, Bool.false_and]
  | inheritance child parent =>
    rw [Part.keeps_inheritance, (sound_inheritance hs hr ha).1, h, Bool.false_and]
  | _ => exact ha.elim

/-- The nodes of the part are on its side. -/
theorem holdsId_of_mem_keys_restrict {id : String} (h : id ∈ (s.restrict P).nodes.keys) :
    P.holdsId id = true :=
  (Register.mem_keys_restrict.1 h).2

/-- A type of the language is on the side of the part, found or not. -/
theorem holdsId_typeTarget (hs : P.Separated s) (origin : Origin) (name : String) {stub : Category}
    (hstub : stub.isType = true) :
    P.holdsId (s.typeTarget P.language.space origin name stub).2 = true := by
  rcases s.typeTarget_cases P.language.space origin name stub with ⟨k, hk, htype⟩ | h
  · exact hs.holdsId_of_admits Part.admits_isTypeIn hk htype
  · rw [h, holdsId_stub hstub, beq_self_eq_true]

/-- What is brought along for a named type is on the side of the part. -/
theorem keeps_typeTarget (origin : Origin) (name : String) {stub : Category}
    (hstub : stub.isType = true) :
    ∀ c ∈ (s.typeTarget P.language.space origin name stub).1, P.keeps c = true := by
  unfold typeTarget
  cases s.resolve name origin (isTypeIn P.language.space) with
  | some id => exact fun c hc => nomatch hc
  | none =>
    intro c hc
    obtain rfl := List.mem_singleton.1 hc
    rw [Part.keeps_node, holdsId_stub hstub, beq_self_eq_true]

/-- A named type is the same in the part. -/
theorem typeTarget_restrict (hs : P.Separated s) (origin : Origin) (name : String) (stub : Category) :
    (s.restrict P).typeTarget P.language.space origin name stub
      = s.typeTarget P.language.space origin name stub := by
  unfold typeTarget
  rw [resolve_restrict hs Part.admits_isTypeIn]

/-- The kind of a type of the language once it is brought along. -/
theorem kind?_typeTarget_restrict (hs : P.Separated s) (origin : Origin) (name : String)
    {stub : Category} (hstub : stub.isType = true) :
    let t := s.typeTarget P.language.space origin name stub
    ((s.restrict P).applyAll t.1).kind? t.2 = (s.applyAll t.1).kind? t.2 := by
  intro t
  -- The stand-in is in the part, so bringing it along commutes with taking the part.
  have hkeeps : t.1.filter P.keeps = t.1 := List.filter_eq_self.2 (keeps_typeTarget origin name hstub)
  have h : (s.applyAll t.1).restrict P = (s.restrict P).applyAll t.1 := by
    rw [restrict_applyAll, hkeeps]
  rw [← h, kind?_restrict, if_pos (holdsId_typeTarget hs origin name hstub)]

/-- The answer to a supertype of the part is the same in the part. -/
theorem supertypeChanges_restrict (hs : P.Separated s) {source : String} (name : String)
    (clause : SuperClause) (hr : P.Fits (.supertype source name clause))
    (h : P.holdsReference (.supertype source name clause) = true) :
    supertypeChanges languages (s.restrict P) source name clause
      = supertypeChanges languages s source name clause := by
  have hsource : P.holdsId source = true := (hr source List.mem_cons_self).1.trans h
  unfold supertypeChanges
  rw [languageOf?_restrict languages hsource]
  cases hl : s.languageOf? languages source with
  | none => rfl
  | some e =>
    obtain ⟨l, kind⟩ := e
    -- The language of the part decides in which namespace the name is looked up, so the rest is the part's
    -- own.
    have hspace : kind.space = P.language.space := beq_iff_eq.1
      ((space_of_mem_ids hs hr List.mem_cons_self (kind?_of_languageOf? hl)).trans h)
    dsimp only
    rw [hspace, originOf_restrict hsource, typeTarget_restrict hs,
      kind?_typeTarget_restrict hs _ _ (isType_stubCategory l clause)]

/-- So is the answer to a receiver. -/
theorem extensionChanges_restrict (hs : P.Separated s) {source receiver : String}
    (hr : P.Fits (.extension source receiver))
    (h : P.holdsReference (.extension source receiver) = true) :
    extensionChanges languages (s.restrict P) source receiver
      = extensionChanges languages s source receiver := by
  have hsource : P.holdsId source = true := (hr source List.mem_cons_self).1.trans h
  unfold extensionChanges
  rw [languageOf?_restrict languages hsource]
  cases hl : s.languageOf? languages source with
  | none => rfl
  | some e =>
    obtain ⟨l, kind⟩ := e
    have hspace : kind.space = P.language.space := beq_iff_eq.1
      ((space_of_mem_ids hs hr List.mem_cons_self (kind?_of_languageOf? hl)).trans h)
    dsimp only
    rw [hspace, originOf_restrict hsource, typeTarget_restrict hs]

/-- So is the answer to an override. -/
theorem overrideChanges_restrict (hs : P.Separated s) {member owner name : String}
    (hr : P.Fits (.overriding member owner name))
    (h : P.holdsReference (.overriding member owner name) = true) :
    (s.restrict P).overrideChanges member owner name = s.overrideChanges member owner name := by
  have hmember : P.holdsId member = true := (hr member List.mem_cons_self).1.trans h
  have howner : P.holdsId owner = true :=
    (hr owner (List.mem_cons_of_mem _ List.mem_cons_self)).1.trans h
  unfold overrideChanges
  rw [kind?_restrict, if_pos hmember, overridden?_restrict hs howner]

/-- So is the answer to an annotation. -/
theorem annotationChanges_restrict (hs : P.Separated s) {source name : String}
    (hr : P.Fits (.annotated source name)) (h : P.holdsReference (.annotated source name) = true) :
    (s.restrict P).annotationChanges source name = s.annotationChanges source name := by
  have hsource : P.holdsId source = true := (hr source List.mem_cons_self).1.trans h
  unfold annotationChanges
  rw [kind?_restrict, if_pos hsource]
  cases hk : s.kind? source with
  | none => rfl
  | some kind =>
    have hspace : kind.space = P.language.space :=
      beq_iff_eq.1 ((space_of_mem_ids hs hr List.mem_cons_self hk).trans h)
    -- An annotation type is no file, so the namespace decides its side.
    have hadmits : P.Admits fun k => k.space == kind.space && k.category == .annotationType := by
      intro k hk
      rw [Bool.and_eq_true, beq_iff_eq, beq_iff_eq] at hk
      refine ⟨hk.1.trans hspace, fun hf => ?_⟩
      rw [hk.2] at hf
      cases hf
    dsimp only
    rw [originOf_restrict hsource, resolve_restrict hs hadmits]

/-- The type around a declaration of the part is in the part. -/
theorem holdsId_owner (hs : P.Separated s) {id : String} (h : P.holdsId id = true) :
    ∀ o ∈ (s.originOf id).owner, P.holdsId o = true := by
  unfold originOf origin?
  cases hd : s.declarations.get? id with
  | none => exact fun o ho => nomatch ho
  | some d =>
    obtain ⟨hmem, rfl⟩ := Register.get?_eq_some_iff.1 hd
    exact fun o ho => (hs (.declaration d) hmem o ho).trans h

/-- So is the answer to a call. -/
theorem callChanges_restrict (hs : P.Separated s) {caller callee : String} {qualifier : Option String}
    {line : Nat} (hr : P.Fits (.call caller callee qualifier line))
    (h : P.holdsReference (.call caller callee qualifier line) = true) :
    (s.restrict P).callChanges caller callee qualifier line
      = s.callChanges caller callee qualifier line := by
  have hcaller : P.holdsId caller = true := (hr caller List.mem_cons_self).1.trans h
  unfold callChanges
  rw [kind?_restrict, if_pos hcaller]
  cases hk : s.kind? caller with
  | none => rfl
  | some kind =>
    -- The caller is of the part, so its namespace is that of the part, and what is called is looked up there.
    have hspace : kind.space = P.language.space :=
      beq_iff_eq.1 ((space_of_mem_ids hs hr List.mem_cons_self hk).trans h)
    dsimp only
    rw [hspace, originOf_restrict hcaller, callee?_restrict hs (holdsId_owner hs hcaller)]

/-- Of the links of a file of the part, those to files of the part belong to it. -/
theorem filter_importLink? (hs : P.Separated s) {file source : String}
    (hsource : P.holdsId source = true) (line : Nat) (statement target : String) :
    (s.importLink? file source line statement target).filter P.keeps
      = if P.holdsPath target then s.importLink? file source line statement target else none := by
  unfold importLink?
  split
  · exact (ite_self none).symm
  · cases hf : s.files.get? target with
    | none => exact (ite_self none).symm
    | some id =>
      -- In a separated set the id of a file is on the side of its path.
      have hid : P.holdsId id = P.holdsPath target := hs (.file target id) hf
      have hkeeps : ∀ rel : Relationship, rel.source = source → rel.target = id →
          P.keeps (.relationship rel) = P.holdsPath target := by
        intro rel h₁ h₂
        rw [Part.keeps_relationship, h₁, h₂, hsource, hid, Bool.true_and]
      rw [Option.map_some, Option.filter_some, hkeeps _ rfl rfl]

/-- A link of the part is there if its target is. -/
theorem importLink?_restrict (file source : String) (line : Nat) (statement target : String) :
    (s.restrict P).importLink? file source line statement target
      = if P.holdsPath target then s.importLink? file source line statement target else none := by
  unfold importLink?
  rw [files_restrict]
  cases P.holdsPath target with
  | true => rfl
  | false => exact ite_self none

/-- **An import in the part links the same files of the part.** -/
theorem filter_importChanges (hs : P.Separated s) {file : String} (hf : P.holdsPath file = true)
    (i : ImportTarget) (line : Nat) (statement : String) :
    (importChanges languages s file P.language i line statement).filter P.keeps
      = importChanges languages (s.restrict P) file P.language i line statement := by
  unfold importChanges
  split
  · rw [files_restrict, if_pos hf]
    cases hsource : s.files.get? file with
    | none => rfl
    | some source =>
      have hid : P.holdsId source = true := (hs (.file file source) hsource).trans hf
      dsimp only
      -- Targets outside of the part give no link of the part, so only the others have to agree.
      rw [List.filter_filterMap]
      simp only [filter_importLink? hs hid, importLink?_restrict]
      rw [← List.filterMap_filter, ← List.filterMap_filter, filter_importTargets hs hf]
  · rfl

/-- The files of a closed and separated set have nodes in its part. -/
theorem mem_keys_files_restrict (hs : P.Separated s) (hclosed : s.Closed) (path id : String)
    (h : (s.restrict P).files.get? path = some id) : id ∈ (s.restrict P).nodes.keys := by
  rw [files_restrict] at h
  split at h
  · rename_i hpath
    exact Register.mem_keys_restrict.2 ⟨hclosed.file h, (hs (.file path id) h).trans hpath⟩
  · cases h

/-- A reference of the part that finds the same in the part changes nothing outside of it: what it
mentions are nodes of the part and stand-ins of the language. -/
theorem keeps_of_referenceChanges_eq (hs : P.Separated s) (hclosed : s.Closed) (hr : P.Fits r)
    (h : P.holdsReference r = true)
    (heq : referenceChanges languages (s.restrict P) r = referenceChanges languages s r) :
    ∀ c ∈ referenceChanges languages s r, P.keeps c = true := by
  have hnode : ∀ n, Change.node n ∈ referenceChanges languages s r → P.holdsId n.id = true :=
    fun n hn => (holdsId_standIn hs hr (answers_referenceChanges languages r _ hn)).trans h
  intro c hc
  have ha := answers_referenceChanges languages r c hc
  cases c with
  | node n => exact hnode n hc
  | relationship rel =>
    have htarget : P.holdsId rel.target = true := by
      -- In the part, a target is a node of the part or is brought along.
      have hg := grounded_referenceChanges (mem_keys_files_restrict hs hclosed) languages r
      rw [heq] at hg
      rcases hg _ hc rel.target (List.mem_cons_of_mem _ List.mem_cons_self) with hmem | hmem
      · exact holdsId_of_mem_keys_restrict hmem
      · obtain ⟨n, hn, hid⟩ := mem_nodeIds.1 hmem
        exact hid ▸ hnode n hn
    rw [Part.keeps_relationship, holdsId_of_startsAt hs hr ha, h, htarget, Bool.true_and]
  | inheritance child parent =>
    obtain ⟨hchild, hparent⟩ := sound_inheritance hs hr ha
    rw [Part.keeps_inheritance, hchild, hparent, h, Bool.true_and]
  | _ => exact ha.elim

/-- **What a reference changes in the part**: what it would change in the part alone, or nothing if it
starts elsewhere. -/
theorem filter_referenceChanges (hs : P.Separated s) (hclosed : s.Closed) (hr : P.Fits r) :
    (referenceChanges languages s r).filter P.keeps
      = if P.holdsReference r then referenceChanges languages (s.restrict P) r else [] := by
  cases h : P.holdsReference r with
  | false =>
    rw [if_neg (by decide), List.filter_eq_nil_iff]
    intro c hc
    rw [keeps_of_not_holdsReference hs hr h c hc]
    decide
  | true =>
    rw [if_pos rfl]
    -- All but imports find the same in the part as in the whole.
    have hself : referenceChanges languages (s.restrict P) r = referenceChanges languages s r →
        (referenceChanges languages s r).filter P.keeps = referenceChanges languages (s.restrict P) r := by
      intro heq
      rw [List.filter_eq_self.2 (keeps_of_referenceChanges_eq hs hclosed hr h heq), heq]
    cases r with
    | supertype source name clause => exact hself (supertypeChanges_restrict hs name clause hr h)
    | extension source receiver => exact hself (extensionChanges_restrict hs hr h)
    | overriding member owner name => exact hself (overrideChanges_restrict hs hr h)
    | annotated source name => exact hself (annotationChanges_restrict hs hr h)
    | call caller callee qualifier line => exact hself (callChanges_restrict hs hr h)
    | importing file l i line statement =>
      obtain rfl : l = P.language := hr h
      exact filter_importChanges hs h i line statement

/-! ### Runs -/

/-- **One step of the run and of the run of the part.** -/
theorem restrict_resolveReference (hs : P.Separated s) (hclosed : s.Closed) (hr : P.Fits r) :
    (resolveReference languages s r).restrict P
      = if P.holdsReference r then resolveReference languages (s.restrict P) r else s.restrict P := by
  rw [resolveReference_eq, restrict_applyAll, filter_referenceChanges hs hclosed hr]
  split
  · rw [resolveReference_eq]
  · rfl

/-- Separation and closedness along a run. -/
theorem separated_closed_step (languages : List Language) (hs : P.Separated s) (hclosed : s.Closed)
    (hr : P.Fits r) :
    P.Separated (s.applyAll (referenceChanges languages s r)) ∧
      (s.applyAll (referenceChanges languages s r)).Closed :=
  ⟨hs.applyAll (sound_referenceChanges hs hr),
    hclosed.applyAll (grounded_referenceChanges (fun _ _ => hclosed.file) languages r)⟩

/-- A reference of the part keeps all nodes on its side. -/
theorem holdsId_step (languages : List Language) (hs : P.Separated s) (hr : P.Fits r)
    (h : P.holdsReference r = true) (hn : ∀ n ∈ s.nodes.entries, P.holdsId n.id = true) :
    ∀ n ∈ (s.applyAll (referenceChanges languages s r)).nodes.entries, P.holdsId n.id = true := by
  let Q : Change → Prop := fun c => ∀ n, c = .node n → P.holdsId n.id = true
  -- Merging keeps the id of a node, and the stand-ins that are added are on the side of the reference.
  have hmerge : Mergeable Q := by
    rintro a b hid ha - n hn
    rw [← Change.node.inj hn, id_mergeFrom a b hid]
    exact ha a rfl
  have hall := forall_holds_applyAll hmerge (s := s) (l := referenceChanges languages s r)
    (fun c hc n hcn => hn n (by subst hcn; exact hc)) fun c hc n hcn => by
      subst hcn
      exact (holdsId_standIn hs hr (answers_referenceChanges languages r _ hc)).trans h
  exact fun n hmem => hall (.node n) hmem n rfl

/-- Any number of steps: those of the part are made there, and the others leave it as it is. -/
theorem restrict_foldl_resolveReference {l : List Reference} (hl : ∀ r ∈ l, P.Fits r)
    (hs : P.Separated s) (hclosed : s.Closed) :
    (l.foldl (resolveReference languages) s).restrict P
      = (l.filter P.holdsReference).foldl (resolveReference languages) (s.restrict P) := by
  induction l generalizing s with
  | nil => rfl
  | cons r l ih =>
    -- One step, after which the set is separated and closed as before.
    have hr : P.Fits r := hl r List.mem_cons_self
    have hl' : ∀ r' ∈ l, P.Fits r' := fun r' hr' => hl r' (List.mem_cons_of_mem r hr')
    obtain ⟨hs', hclosed'⟩ := separated_closed_step languages hs hclosed hr
    rw [← resolveReference_eq] at hs' hclosed'
    rw [List.foldl_cons, ih hl' hs' hclosed', restrict_resolveReference hs hclosed hr, List.filter_cons]
    split <;> rfl

/-- **Resolving all references commutes with taking the part.** -/
theorem restrict_resolvePending (hs : P.Separated s) (hclosed : s.Closed) :
    (s.resolvePending languages).restrict P = (s.restrict P).resolvePending languages := by
  -- References to types go first in the part as well.
  have hqueue : (s.restrict P).queue = s.queue.filter P.holdsReference := by
    unfold queue
    change (s.pending.filter P.holdsReference).filter _ ++ (s.pending.filter P.holdsReference).filter _ = _
    rw [List.filter_append, List.filter_filter, List.filter_filter, List.filter_filter,
      List.filter_filter]
    congr 1 <;> exact List.filter_congr fun r _ => Bool.and_comm _ _
  rw [resolvePending_eq, resolvePending_eq, hqueue,
    restrict_foldl_resolveReference (fun r hr => hs (.reference r) (mem_queue.1 hr)) hs.withPending
      hclosed.withPending]
  rfl

end WorkingSet

end CodeAtlas
