import CodeAtlas.Proofs.Part
import CodeAtlas.Proofs.Provenance

/-!
# Where imports lead

An import becomes relationships from the node of its file to the nodes of the files that it refers to. One
would like such a relationship to stay inside a language, but that depends on how the files are found
(`Reaches`):

* by declarations, which is how single names are found on the JVM and modules in Python. Declarations carry
  the namespace of their language, and the search asks for it;
* by scopes, which is how wildcards are found on the JVM. All files are searched, of whatever language, and
  a package and a module may have one name;
* by paths, in Dart. All files are searched here too, and a path may end in whatever it likes.

`links_of_imports` says that there is no other way: every relationship of an import leads from the file of
the import to another file, of the same language or one whose scope or path the import names.
`wildcard_leaves_language` is a project in which an import does leave its language.

Imports are resolved at points of a run at which the working set has already changed, so what is found has
to be traced back to the files. Resolution enters no declaration, no file and no scope, and the stand-ins
that it folds in move no node (`Settled`). So an answer is about the set as the walk over the files left it,
and there every entry was stated by one file (`statedBy_collected`, `owns_collected`).
-/

namespace CodeAtlas

/-! ### Texts and paths -/

namespace Text

variable {p : List Char}

/-- What is left of a text is an end of it. -/
theorem stripUpTo_suffix (n : Nat) (p s : List Char) : stripUpTo n p s <:+ s := by
  induction n generalizing s with
  | zero => exact List.suffix_rfl
  | succ n ih =>
    unfold stripUpTo
    cases hs : stripPrefix? p s with
    | none => exact List.suffix_rfl
    | some r =>
      obtain rfl := stripPrefix?_eq_some_iff.1 hs
      exact (ih r).trans (List.suffix_append p r)

/-- A text repeats at the front of another one at most as often as that one is long. -/
theorem stripPrefix?_stripUpTo (hp : p ≠ []) {n : Nat} {s : List Char} (h : s.length ≤ n) :
    stripPrefix? p (stripUpTo n p s) = none := by
  -- By induction on the fuel: each time the text gets shorter by the prefix, which is not empty.
  induction n generalizing s with
  | zero =>
    rw [List.length_eq_zero_iff.1 (Nat.le_zero.1 h)]
    cases p with
    | nil => exact absurd rfl hp
    | cons a p => rfl
  | succ n ih =>
    unfold stripUpTo
    cases hs : stripPrefix? p s with
    | none => exact hs
    | some r =>
      refine ih ?_
      obtain rfl := stripPrefix?_eq_some_iff.1 hs
      have hpos := List.length_pos_iff.2 hp
      rw [List.length_append] at h
      omega

/-- Once the prefix is gone it is gone. -/
theorem stripAll_stripAll (hp : p ≠ []) (s : List Char) : stripAll p (stripAll p s) = stripAll p s := by
  have hnone : stripPrefix? p (stripAll p s) = none := stripPrefix?_stripUpTo hp (Nat.le_refl _)
  generalize stripAll p s = t at hnone
  unfold stripAll
  cases t.length with
  | zero => rfl
  | succ n =>
    unfold stripUpTo
    rw [hnone]

/-- A text that is cut is put together again around the mark. -/
theorem eq_append_of_cut? {c : Char} {s a b : List Char} (h : cut? c s = some (a, b)) :
    s = a ++ c :: b := by
  induction s generalizing a with
  | nil => cases h
  | cons d s ih =>
    unfold cut? at h
    -- Either the mark is found here, or it is cut further down.
    split at h
    · rename_i hd
      obtain ⟨rfl, rfl⟩ := Prod.mk.inj (Option.some.inj h)
      rw [hd]
      rfl
    · obtain ⟨e, he, hab⟩ := Option.map_eq_some_iff.1 h
      obtain ⟨rfl, rfl⟩ := Prod.mk.inj hab
      rw [ih he]
      rfl

end Text

/-- **A normal path stays as it is.** -/
theorem Path.normalize_normalize (path : String) : normalize (normalize path) = normalize path := by
  unfold normalize Text.strippedAll Text.exchange
  simp only [String.toList_ofList]
  generalize hs : (path.toList.map fun c => if c = '\\' then '/' else c) = slashed
  -- All backslashes are gone after the first time, and stripping brings none back.
  have hslash : ∀ c ∈ slashed, c ≠ '\\' := by
    intro c hc
    rw [← hs] at hc
    obtain ⟨d, -, rfl⟩ := List.mem_map.1 hc
    split
    · decide
    · assumption
  have hsame : ((Text.stripAll "./".toList slashed).map fun c => if c = '\\' then '/' else c)
      = Text.stripAll "./".toList slashed := by
    have hchar : ∀ c ∈ Text.stripAll "./".toList slashed, (if c = '\\' then '/' else c) = c :=
      fun c hc => if_neg (hslash c ((Text.stripUpTo_suffix _ _ _).subset hc))
    rw [List.map_congr_left hchar, List.map_id']
  rw [hsame, Text.stripAll_stripAll (by decide)]

/-! ### What a file states -/

/-- Whether a reference is an import. -/
def Reference.isImport : Reference → Bool
  | .importing .. => true
  | _ => false

/-- Whether a reference is made by a declaration, and not by an import or a call. -/
def Reference.isOfDeclaration : Reference → Bool
  | .importing .. => false
  | .call .. => false
  | _ => true

/-- A reference of a declaration is no import. -/
theorem Reference.isImport_of_isOfDeclaration {ref : Reference} (h : ref.isOfDeclaration = true) :
    ref.isImport = false := by
  cases ref with
  | importing => cases h
  | _ => rfl

/-- The reference of an import. -/
def ImportDecl.reference (d : ImportDecl) (f : FileSite) : Reference :=
  .importing f.path f.language { path := d.path, member := d.member, wildcard := d.wildcard } d.line
    d.statement

/-- **What a record at a site states about files, scopes and imports.** -/
def Change.StatedBy (f : FileSite) (r : SourceRecord) : Change → Prop
  | .file path id => path = f.path ∧ id = f.fileId
  | .scope path name => path = f.path ∧ ∃ n, f.scopeNode? r.scope? = some (name, n)
  | .reference ref => ref.isImport = true → ∃ d ∈ r.facts.imports, ref = d.reference f
  | _ => True

namespace FileSite

variable {f : FileSite} {r : SourceRecord}

/-- To declare a node states nothing about files, scopes and imports. -/
theorem statedBy_declare {n : Node} {origin : Origin} :
    ∀ c ∈ Change.declare n origin, c.StatedBy f r := by
  intro c hc
  rcases List.mem_cons.1 hc with rfl | hc
  · trivial
  · obtain rfl := List.mem_singleton.1 hc
    trivial

/-- Nothing is stated by references other than imports. -/
theorem statedBy_references {refs : List Reference} (h : ∀ ref ∈ refs, ref.isImport = false) :
    ∀ c ∈ refs.map Change.reference, c.StatedBy f r := by
  intro c hc
  obtain ⟨ref, href, rfl⟩ := List.mem_map.1 hc
  intro himport
  rw [h ref href] at himport
  cases himport

/-- Neither does a member. -/
theorem statedBy_memberChanges (g : FileSite) {n : Node} {owner : Option String} {k : Category}
    {refs : List Reference} (h : ∀ ref ∈ refs, ref.isOfDeclaration = true) :
    ∀ c ∈ g.memberChanges n owner k refs, c.StatedBy f r := by
  intro c hc
  rcases List.mem_append.1 hc with hc | hc
  · exact statedBy_declare c hc
  rcases List.mem_cons.1 hc with rfl | hc
  · trivial
  · exact statedBy_references (fun ref href => ref.isImport_of_isOfDeclaration (h ref href)) c hc

/-- Neither do types. -/
theorem statedBy_typeChanges (g : FileSite) (l : List TypeDecl) :
    ∀ c ∈ g.typeChanges l, c.StatedBy f r := by
  induction l generalizing g with
  | nil => exact fun c hc => nomatch hc
  | cons d l ih =>
    intro c hc
    rcases List.mem_append.1 hc with hc | hc
    · exact statedBy_declare c hc
    · exact ih _ c hc

/-- Annotations are references of declarations. -/
theorem isOfDeclaration_annotationRefs (g : FileSite) (id : String) (annotations : List String) :
    ∀ ref ∈ g.annotationRefs id annotations, ref.isOfDeclaration = true := by
  intro ref href
  unfold annotationRefs at href
  split at href
  · obtain ⟨a, -, rfl⟩ := List.mem_map.1 href
    rfl
  · cases href

theorem isOfDeclaration_receiverRefs (id : String) (receiver : Option String) :
    ∀ ref ∈ receiverRefs id receiver, ref.isOfDeclaration = true := by
  intro ref href
  obtain ⟨a, -, rfl⟩ := List.mem_map.1 href
  rfl

/-- All that a type refers to is of a declaration. -/
theorem isOfDeclaration_typeRefs (g : FileSite) (id : String) (d : TypeDecl) :
    ∀ ref ∈ g.typeRefs id d, ref.isOfDeclaration = true := by
  intro ref href
  rcases List.mem_append.1 href with href | href
  · rcases List.mem_append.1 href with href | href
    · obtain ⟨e, -, rfl⟩ := List.mem_map.1 href
      rfl
    · obtain ⟨a, -, rfl⟩ := List.mem_map.1 href
      rfl
  · exact g.isOfDeclaration_annotationRefs id d.annotations ref href

/-- So is what a callable overrides. -/
theorem isOfDeclaration_overrideRefs (g : FileSite) (d : CallableDecl) :
    ∀ ref ∈ g.overrideRefs d, ref.isOfDeclaration = true := by
  intro ref href
  unfold overrideRefs at href
  split at href
  · split at href
    · obtain rfl := List.mem_singleton.1 href
      rfl
    · cases href
  · cases href

/-- **A record states its own scope and its own imports**, and no more. -/
theorem statedBy_recordChanges : ∀ c ∈ f.recordChanges r, c.StatedBy f r := by
  intro c hc
  unfold recordChanges at hc
  simp only [List.mem_append] at hc
  -- Scope, imports, types, links of types, callables, fields, calls.
  rcases hc with (((((hc | hc) | hc) | hc) | hc) | hc) | hc
  · unfold scopeChanges at hc
    cases hs : f.scopeNode? r.scope? with
    | none =>
      rw [hs] at hc
      cases hc
    | some e =>
      rw [hs] at hc
      rcases List.mem_append.1 hc with hc | hc
      · exact statedBy_declare c hc
      rcases List.mem_cons.1 hc with rfl | hc
      · trivial
      · obtain rfl := List.mem_singleton.1 hc
        exact ⟨rfl, e.2, hs⟩
  · obtain ⟨d, hd, hc⟩ := List.mem_flatMap.1 hc
    -- The scope is known by now, but the path and the language are those of the file.
    have href : d.reference (f.enter r.scope?) = d.reference f := by
      unfold ImportDecl.reference
      rw [f.path_enter, language_enter]
    rcases List.mem_cons.1 hc with rfl | hc
    · trivial
    rcases List.mem_cons.1 hc with rfl | hc
    · trivial
    · obtain rfl := List.mem_singleton.1 hc
      exact fun _ => ⟨d, hd, href⟩
  · exact statedBy_typeChanges _ _ c hc
  · obtain ⟨d, -, hc⟩ := List.mem_flatMap.1 hc
    unfold linkChanges at hc
    split at hc
    · cases hc
    · rcases List.mem_cons.1 hc with rfl | hc
      · trivial
      · exact statedBy_references (fun ref href =>
          ref.isImport_of_isOfDeclaration (isOfDeclaration_typeRefs _ _ d ref href)) c hc
  · obtain ⟨d, -, hc⟩ := List.mem_flatMap.1 hc
    refine statedBy_memberChanges _ (fun ref href => ?_) c hc
    rcases List.mem_append.1 href with href | href
    · rcases List.mem_append.1 href with href | href
      · exact isOfDeclaration_overrideRefs _ d ref href
      · exact isOfDeclaration_receiverRefs _ _ ref href
    · exact isOfDeclaration_annotationRefs _ _ _ ref href
  · obtain ⟨d, -, hc⟩ := List.mem_flatMap.1 hc
    refine statedBy_memberChanges _ (fun ref href => ?_) c hc
    rcases List.mem_append.1 href with href | href
    · exact isOfDeclaration_receiverRefs _ _ ref href
    · exact isOfDeclaration_annotationRefs _ _ _ ref href
  · refine statedBy_references (fun ref href => ?_) c hc
    obtain ⟨call, -, hcall⟩ := List.mem_filterMap.1 href
    obtain ⟨caller, -, rfl⟩ := Option.map_eq_some_iff.1 hcall
    rfl

end FileSite

/-! ### What the walk over the files leaves -/

namespace ParseResult

variable (r : ParseResult) (languages : List Language)

/-- The working set when all files have been walked and no reference has been resolved. -/
def collected : WorkingSet :=
  ({} : WorkingSet).applyAll (r.files.flatMap (·.changes languages))

/-- A build walks over the files and then resolves. -/
theorem workingSet_eq : workingSet languages r = (r.collected languages).resolvePending languages := by
  unfold workingSet collected
  rw [foldl_addParsedFile]

theorem closed_collected : (r.collected languages).Closed :=
  WorkingSet.Closed.empty.applyAll (WorkingSet.grounded_flatMap _ _)

variable {r languages}

/-- **All that was collected was stated by one of the files**, warnings aside. -/
theorem statedBy_collected : ∀ c, (r.collected languages).Holds c →
    (∃ message, c = .warning message) ∨
      ∃ f ∈ r.files, ∃ record, f.built languages = .ok record ∧ c.StatedBy f.site record := by
  -- Merging keeps it, since it says nothing about nodes; so it is enough to look at each single change.
  refine WorkingSet.forall_holds_applyAll ?_ (fun c hc => absurd hc (WorkingSet.not_holds_empty c)) ?_
  · rintro a b - (⟨message, h⟩ | ⟨f, hf, record, hb, -⟩) -
    · cases h
    · exact .inr ⟨f, hf, record, hb, trivial⟩
  · intro c hc
    obtain ⟨f, hf, hc⟩ := List.mem_flatMap.1 hc
    unfold ParsedFile.changes at hc
    cases hb : f.built languages with
    | error skip =>
      rw [hb] at hc
      exact .inl ⟨_, List.mem_singleton.1 hc⟩
    | ok record =>
      rw [hb] at hc
      refine .inr ⟨f, hf, record, hb, ?_⟩
      rcases List.mem_cons.1 hc with rfl | hc
      · trivial
      rcases List.mem_cons.1 hc with rfl | hc
      · exact ⟨rfl, f.fileId_site.symm⟩
      · exact FileSite.statedBy_recordChanges c hc

/-- The entry of a path is the node of a file with that path. -/
theorem file_collected {path id : String} (h : (r.collected languages).files.get? path = some id) :
    ∃ f ∈ r.files, f.path = path ∧ f.node.id = id := by
  rcases statedBy_collected (.file path id) h with ⟨message, h⟩ | ⟨f, hf, record, -, hpath, hid⟩
  · cases h
  · exact ⟨f, hf, hpath.symm, (hid.trans f.fileId_site).symm⟩

/-- **The path and the language of the file that a node was brought by**; only the node of the file itself
is of no language. -/
def Owns (r : ParseResult) (n : Node) : Prop :=
  ∃ f ∈ r.files, n.path = Path.normalize f.path ∧
    (n.kind.category ≠ .file → n.kind.space = f.language.space)

/-- **Every node comes from a file of the project**, and but for the nodes of files it is of the language of
that file. -/
theorem owns_collected : ∀ n ∈ (r.collected languages).nodes.entries, r.Owns n := by
  refine WorkingSet.forall_nodes_walk ?_ ?_
  · -- Path and kind are taken from the same node.
    intro a b ha hb
    unfold Node.mergeFrom
    split
    · exact hb
    · exact ha
  -- The node of a file, or one of its record.
  · rintro n ⟨f, hf, record, -, rfl | hn⟩
    · exact ⟨f, hf, f.made_node.path_eq, fun h => absurd rfl h⟩
    · refine ⟨f, hf, (f.site.made_recordNodes record n hn).path_eq, fun _ => ?_⟩
      rw [← FileSite.filterMap_node?_recordChanges, Change.mem_filterMap_node?] at hn
      exact (FileSite.declares_recordChanges n hn).space

end ParseResult

/-! ### Points of the resolution -/

namespace WorkingSet

variable {s t : WorkingSet}

/-- Folding stand-ins in moves no node. -/
theorem node?_applyAll_of_stubs {l : List Change} (hl : ∀ n, Change.node n ∈ l → n.isStub = true)
    {id : String} {a : Node} (ha : t.node? id = some a) :
    ∃ b, (t.applyAll l).node? id = some b ∧ b.path = a.path ∧ b.kind = a.kind := by
  -- By induction on the changes. A stand-in that meets a node gives way to it.
  induction l generalizing t a with
  | nil => exact ⟨a, ha, rfl, rfl⟩
  | cons c l ih =>
    have hstep : ∃ b, (t.apply c).node? id = some b ∧ b.path = a.path ∧ b.kind = a.kind := by
      cases c with
      | node n =>
        have hget : (t.apply (.node n)).node? id
            = if id = n.id then some ((t.node? id).elim n fun b => b.mergeFrom n) else t.node? id :=
          Register.get?_upsert (h := id_mergeFrom) _ _ _
        rw [ha] at hget
        split at hget
        · refine ⟨_, hget, ?_⟩
          change (a.mergeFrom n).path = a.path ∧ (a.mergeFrom n).kind = a.kind
          rw [Node.mergeFrom_eq fun _ => hl n List.mem_cons_self]
          exact ⟨rfl, rfl⟩
        · exact ⟨a, hget, rfl, rfl⟩
      | _ => exact ⟨a, ha, rfl, rfl⟩
    obtain ⟨b, hb, hpath, hkind⟩ := hstep
    obtain ⟨b', hb', hpath', hkind'⟩ := ih (fun n hn => hl n (List.mem_cons_of_mem c hn)) hb
    exact ⟨b', hb', hpath'.trans hpath, hkind'.trans hkind⟩

/-- **A point of the resolution**: the tables that imports are resolved from are those of the set that it
started from, and no node has moved. -/
structure Settled (s t : WorkingSet) : Prop where
  declarations : t.declarations = s.declarations
  files : t.files = s.files
  scopes : t.scopes = s.scopes
  node : ∀ {id a}, s.node? id = some a → ∃ b, t.node? id = some b ∧ b.path = a.path ∧ b.kind = a.kind

theorem Settled.start (s : WorkingSet) : s.Settled { s with pending := [] } :=
  ⟨rfl, rfl, rfl, fun ha => ⟨_, ha, rfl, rfl⟩⟩

/-- Every answer leads from one such point to the next. -/
theorem Settled.applyAll (h : s.Settled t) (languages : List Language) (ref : Reference) :
    s.Settled (t.applyAll (referenceChanges languages t ref)) := by
  have hnone : ∀ {α : Type} (pick : Change → Option α), (∀ n, pick (.node n) = none) →
      (∀ rel, pick (.relationship rel) = none) → (∀ a b, pick (.inheritance a b) = none) →
      (referenceChanges languages t ref).filterMap pick = [] :=
    fun pick hn hr hi => filterMap_referenceChanges pick hn hr hi languages ref
  -- An answer folds in stand-ins and relates nodes; of the tables that imports look at it changes none.
  refine ⟨?_, ?_, ?_, fun ha => ?_⟩
  · rw [applyAll_eq, hnone Change.declaration? (fun _ => rfl) (fun _ => rfl) fun _ _ => rfl]
    exact h.declarations
  · rw [applyAll_eq, hnone Change.file? (fun _ => rfl) (fun _ => rfl) fun _ _ => rfl]
    exact h.files
  · rw [applyAll_eq, hnone Change.scope? (fun _ => rfl) (fun _ => rfl) fun _ _ => rfl]
    exact h.scopes
  · have hstubs : ∀ n, Change.node n ∈ referenceChanges languages t ref → n.isStub = true := by
      intro n hn
      obtain ⟨k, name, rfl⟩ := exists_stub_of_mem languages hn
      exact Node.isStub_stub k name
    obtain ⟨b, hb, hpath, hkind⟩ := h.node ha
    obtain ⟨b', hb', hpath', hkind'⟩ := node?_applyAll_of_stubs hstubs hb
    exact ⟨b', hb', hpath'.trans hpath, hkind'.trans hkind⟩

/-! ### What the targets of an import are -/

/-- **A path at which something of a namespace is declared.** -/
def DeclaredAt (s : WorkingSet) (ns : Namespace) (path : String) : Prop :=
  ∃ d ∈ s.declarations.entries, ∃ n, s.node? d.id = some n ∧ n.path = path ∧ n.kind.space = ns ∧
    n.kind.category ≠ .file

/-- A path that is found by a qualified name is one at which it is declared. -/
theorem declaredAt_of_mem {ns : Namespace} {qualified path : String} {q : Node → Bool}
    (hq : ∀ n, q n = true → n.kind.space = ns ∧ n.kind.category ≠ .file)
    (h : path ∈ (((s.byQualifiedName qualified).filterMap s.node?).filter q).map (·.path)) :
    s.DeclaredAt ns path := by
  obtain ⟨n, hn, rfl⟩ := List.mem_map.1 h
  obtain ⟨hn, hqn⟩ := List.mem_filter.1 hn
  obtain ⟨id, hid, hnode⟩ := List.mem_filterMap.1 hn
  obtain ⟨d, hd, rfl⟩ := List.mem_map.1 hid
  exact ⟨d, List.mem_of_mem_filter hd, n, hnode, rfl, hq n hqn⟩

/-- So is a path found among the files that declare a name. -/
theorem declaredAt_of_mem_declaringFiles {ns : Namespace} {qualified path : String}
    (h : path ∈ s.declaringFiles ns qualified) : s.DeclaredAt ns path := by
  refine declaredAt_of_mem (fun n hn => ?_) (mem_of_mem_sortedNames h)
  rw [Bool.and_eq_true, Bool.and_eq_true, beq_iff_eq, Bool.not_eq_true'] at hn
  refine ⟨hn.1.1, fun hfile => ?_⟩
  -- Files count as scopes, which do not declare.
  rw [hfile] at hn
  exact absurd hn.1.2 (by decide)

theorem declaredAt_of_mem_moduleFiles {name path : String} (h : path ∈ s.moduleFiles name) :
    s.DeclaredAt .generic path := by
  refine declaredAt_of_mem (fun n hn => ?_) h
  rw [beq_iff_eq] at hn
  rw [hn]
  exact ⟨rfl, by decide⟩

/-- What the first list with a member holds is in one of the lists. -/
theorem exists_of_mem_firstNonempty {l : List (List String)} {x : String} (h : x ∈ firstNonempty l) :
    ∃ m ∈ l, x ∈ m := by
  unfold firstNonempty at h
  cases hl : l.find? fun x => !x.isEmpty with
  | none =>
    rw [hl] at h
    cases h
  | some m =>
    rw [hl] at h
    exact ⟨m, List.mem_of_find?_eq_some hl, h⟩

/-- The scope that a wildcard names. -/
def importedScope (path : String) : String :=
  String.ofList (Text.stripAllEnd ".*".toList path.toList)

/-- **The paths that an import in Dart names**: below the `lib` directory of any package, or seen from the
directory of the importing file. -/
inductive NamesPath (file path target : String) : Prop where
  | package (name inner : List Char) : path.toList = "package:".toList ++ (name ++ '/' :: inner) →
    (target = "lib/" ++ String.ofList inner ∨
      Text.hasEnd ("/" ++ ("lib/" ++ String.ofList inner)) target = true) →
    NamesPath file path target
  | relative : target = joinRelative file path → NamesPath file path target

/-- A file that a Dart import finds is one that its path names. -/
theorem namesPath_of_mem_fileTargets {file path target : String} (h : target ∈ s.fileTargets file path) :
    NamesPath file path target := by
  unfold fileTargets at h
  split at h
  · cases h
  -- A path of a package, or one relative to the file.
  split at h
  · rename_i rest hrest
    split at h
    · rename_i name inner hcut
      have htarget := (List.mem_filter.1 h).2
      rw [Bool.or_eq_true, beq_iff_eq] at htarget
      refine .package name inner ?_ htarget
      rw [Text.stripPrefix?_eq_some_iff.1 hrest, Text.eq_append_of_cut? hcut]
    · cases h
  · dsimp only at h
    split at h
    · exact .relative (List.mem_singleton.1 h)
    · cases h

/-- **How an import finds a file**: by something that is declared there, by the scope of the file, or by its
path. -/
theorem found_of_mem_importTargets {l : Language} {file target : String} {i : ImportTarget}
    (h : target ∈ s.importTargets l file i) :
    s.DeclaredAt l.space target ∨
      ((l = .java ∨ l = .kotlin) ∧ i.wildcard = true ∧
        s.scopes.get? target = some (importedScope i.path)) ∨
      (l = .dart ∧ NamesPath file i.path target) := by
  -- Java and Kotlin search in the same way, each in its own namespace.
  have hjvm : target ∈ s.qualifiedTargets l.space i → s.DeclaredAt l.space target ∨
      (i.wildcard = true ∧ s.scopes.get? target = some (importedScope i.path)) := by
    intro h
    unfold qualifiedTargets at h
    dsimp only at h
    split at h
    · rename_i hwildcard
      rcases List.mem_append.1 (mem_of_mem_sortedNames h) with h | h
      · exact .inr ⟨hwildcard, beq_iff_eq.1 (List.mem_filter.1 h).2⟩
      · exact .inl (declaredAt_of_mem_declaringFiles h)
    · obtain ⟨files, hfiles, hmem⟩ := exists_of_mem_firstNonempty h
      obtain ⟨name, -, rfl⟩ := List.mem_map.1 hfiles
      exact .inl (declaredAt_of_mem_declaringFiles hmem)
  -- Each language has a search of its own.
  cases l with
  | java => exact (hjvm h).imp_right fun h => .inl ⟨.inl rfl, h⟩
  | kotlin => exact (hjvm h).imp_right fun h => .inl ⟨.inr rfl, h⟩
  | dart => exact .inr (.inr ⟨rfl, namesPath_of_mem_fileTargets h⟩)
  | python =>
    change target ∈ s.moduleTargets file i at h
    unfold moduleTargets at h
    split at h
    · cases h
    · obtain ⟨files, hfiles, hmem⟩ := exists_of_mem_firstNonempty h
      obtain ⟨name, -, rfl⟩ := List.mem_map.1 hfiles
      exact .inl (declaredAt_of_mem_moduleFiles hmem)

/-- Only imports give relationships between files. -/
theorem isImport_of_relates {ref : Reference} {rel : Relationship} (h : Relates ref rel)
    (hkind : rel.kind = .imports) : ref.isImport = true := by
  -- No other reference makes a relationship whose verb is that of imports.
  have hverb : rel.kind.verb = .importing := congrArg RelKind.verb hkind
  cases ref with
  | importing file l i line statement => rfl
  | supertype source name clause =>
    obtain ⟨ns, verb, hmem, target, rfl⟩ := h
    have hnone : ∀ v ∈ Verb.inheritances, v ≠ .importing := by decide
    exact absurd hverb (hnone verb hmem)
  | call caller callee qualifier line =>
    obtain ⟨target, rfl⟩ := h
    cases hverb
  | _ =>
    obtain ⟨_, _, rfl⟩ := h
    cases hverb

end WorkingSet

/-! ### From files to files -/

/-- **What an import of a file may lead to.** -/
inductive Reaches (languages : List Language) (f : ParsedFile) (d : ImportDecl) (g : ParsedFile) : Prop where
  /-- A file of the same language. -/
  | language : g.language = f.language → Reaches languages f d g
  /-- A file of any language whose scope a wildcard names. -/
  | scope {record : SourceRecord} {n : Node} : f.language = .java ∨ f.language = .kotlin →
    d.wildcard = true → g.built languages = .ok record →
    g.site.scopeNode? record.scope? = some (WorkingSet.importedScope d.path, n) →
    Reaches languages f d g
  /-- A file of any language whose path an import in Dart names. -/
  | path : f.language = .dart → WorkingSet.NamesPath f.path d.path g.path → Reaches languages f d g

namespace ParseResult

variable {r : ParseResult} {languages : List Language} {t : WorkingSet}

/-- **A relationship that an import leads along**, from the file that it stands in to another file of the
project. -/
def LeadsAlong (r : ParseResult) (languages : List Language) (rel : Relationship) : Prop :=
  ∃ f ∈ r.files, ∃ g ∈ r.files, rel.source = f.node.id ∧ rel.target = g.node.id ∧ f.path ≠ g.path ∧
    ∃ record, f.built languages = .ok record ∧ ∃ d ∈ record.facts.imports, Reaches languages f d g

/-- What is declared at a path was brought by a file with that path. -/
theorem owns_of_declaredAt (ht : (r.collected languages).Settled t) {ns : Namespace} {path : String}
    (h : t.DeclaredAt ns path) : ∃ f ∈ r.files, path = Path.normalize f.path ∧ ns = f.language.space := by
  obtain ⟨d, hd, n, hn, rfl, rfl, hfile⟩ := h
  rw [ht.declarations] at hd
  -- The node was there before the resolution, and is where it was.
  have hkey := r.closed_collected languages (.declaration d) hd d.id List.mem_cons_self
  obtain ⟨a, ha⟩ := Option.isSome_iff_exists.1 (Register.isSome_get?_iff.2 hkey)
  obtain ⟨b, hb, hpath, hkind⟩ := ht.node ha
  obtain rfl : b = n := Option.some.inj (hb.symm.trans hn)
  obtain ⟨f, hf, hfpath, hspace⟩ := owns_collected a (Register.get?_eq_some_iff.1 ha).1
  rw [hkind] at hfile ⊢
  exact ⟨f, hf, hpath.trans hfpath, hspace hfile⟩

variable (h : (r.files.map fun f => Path.normalize f.path).Nodup)
include h

theorem eq_of_path_eq {f g : ParsedFile} (hf : f ∈ r.files) (hg : g ∈ r.files)
    (hpath : Path.normalize f.path = Path.normalize g.path) : f = g :=
  List.inj_on_of_nodup_map h hf hg hpath

/-- **One step of the resolution**: an answer that relates files leads along an import. -/
theorem leadsAlong_of_answer (ht : (r.collected languages).Settled t) {ref : Reference}
    (href : ref ∈ (r.collected languages).pending) {rel : Relationship}
    (hrel : Change.relationship rel ∈ WorkingSet.referenceChanges languages t ref)
    (hkind : rel.kind = .imports) : r.LeadsAlong languages rel := by
  have himport := WorkingSet.isImport_of_relates (WorkingSet.relates_of_mem hrel) hkind
  rcases statedBy_collected (.reference ref) href with ⟨message, hw⟩ | ⟨f, hf, record, hb, hstated⟩
  · cases hw
  -- The reference is an import of the record of some file.
  obtain ⟨d, hd, rfl⟩ := hstated himport
  obtain ⟨source, target, id, hsource, hid, ⟨htarget, hne⟩, heq⟩ := WorkingSet.mem_importChanges hrel
  obtain rfl := Change.relationship.inj heq
  rw [ht.files] at hsource hid
  obtain ⟨f', hf', hpath', rfl⟩ := file_collected hsource
  obtain rfl : f' = f := eq_of_path_eq h hf' hf (congrArg _ hpath')
  obtain ⟨g, hg, rfl, rfl⟩ := file_collected hid
  refine ⟨f', hf, g, hg, rfl, rfl, hne.symm, record, hb, d, hd, ?_⟩
  -- The file that was found is the one whose path it was found under.
  rcases WorkingSet.found_of_mem_importTargets htarget with hdecl | ⟨hl, hwildcard, hscope⟩ | ⟨hl, hnames⟩
  · obtain ⟨g', hg', hpath, hspace⟩ := owns_of_declaredAt ht hdecl
    have hgg : g = g' := by
      refine eq_of_path_eq h hg hg' ?_
      rw [hpath, Path.normalize_normalize]
    exact .language (Part.space_injective (hgg ▸ hspace).symm)
  · rw [ht.scopes] at hscope
    rcases statedBy_collected (.scope g.path _) hscope with ⟨message, hw⟩ | ⟨g', hg', record', hb', hs⟩
    · cases hw
    obtain ⟨hpath, n, hn⟩ := hs
    obtain rfl : g = g' := eq_of_path_eq h hg hg' (congrArg _ hpath)
    exact .scope hl hwildcard hb' hn
  · exact .path hl hnames

end ParseResult

/-- **Where imports lead.** Every relationship of an import goes from the file that the import stands in to
another file of the project. That file is of the same language, unless it was looked for by its scope or by
its path, where languages are not told apart. Files are told apart by their normal paths, since these are the
ones that declarations keep. -/
theorem links_of_imports (languages : List Language) (r : ParseResult)
    (h : (r.files.map fun f => Path.normalize f.path).Nodup) :
    ∀ rel ∈ (workingSet languages r).relationships.entries, rel.kind = .imports →
      r.LeadsAlong languages rel := by
  rw [r.workingSet_eq]
  -- The invariant of the resolution says that every link of an import leads along. To keep it, the set also
  -- has to be settled: resolving adds no declarations.
  refine (WorkingSet.resolvePending_invariant (Q := fun t => (r.collected languages).Settled t ∧
    ∀ rel ∈ t.relationships.entries, rel.kind = .imports → r.LeadsAlong languages rel)
    ⟨.start _, ?_⟩ ?_).2
  · -- The walk over the files relates only what holds something to what it holds.
    refine WorkingSet.forall_relationships_applyAll (fun rel hrel => nomatch hrel) fun rel hrel hkind => ?_
    obtain ⟨f, -, hrel⟩ := List.mem_flatMap.1 hrel
    obtain ⟨record, -, hlink⟩ := ParsedFile.mem_recordLinks_of_mem_changes hrel
    have hfresh : f.site.Fresh := ⟨rfl, rfl⟩
    have hcontains := (hfresh.holds_recordLinks rel hlink).1
    rw [hkind] at hcontains
    cases hcontains
  · rintro t ⟨ht, hrels⟩ ref href
    exact ⟨ht.applyAll languages ref, WorkingSet.forall_relationships_applyAll hrels
      fun rel hrel hkind => ParseResult.leadsAlong_of_answer h ht href hrel hkind⟩

/-- A project in which a package that is imported has the name of a module. -/
def moduleAndPackage : ParseResult :=
  let wildcard : ImportDecl :=
    { path := "app.util", member := none, localName := none, wildcard := true, isStatic := false, line := 2
      statement := "import app.util.*;" }
  let type (name : String) (span : Span) : TypeDecl := { name, kind := .plainClass, span }
  { files := [
      .ofRecord "Main.java" (.java (some "app") 1
        { imports := [wildcard], types := [type "Main" ⟨3, 3⟩] }),
      .ofRecord "app/util.py" (.python "app.util" none { types := [type "Helper" ⟨1, 2⟩] })] }

/-- Both files have paths of their own, so the imports of the project lead as they should. -/
theorem links_of_imports_moduleAndPackage :
    (moduleAndPackage.files.map fun f => Path.normalize f.path).Nodup ∧
      ∀ rel ∈ (workingSet Language.all moduleAndPackage).relationships.entries, rel.kind = .imports →
        moduleAndPackage.LeadsAlong Language.all rel :=
  have hnodup : (moduleAndPackage.files.map fun f => Path.normalize f.path).Nodup := by decide +kernel
  ⟨hnodup, links_of_imports Language.all moduleAndPackage hnodup⟩

/-- **An import may leave its language**: here a wildcard on the JVM leads to a module in Python. -/
theorem wildcard_leaves_language :
    (moduleAndPackage.files.map (·.path)).Nodup ∧
      ∃ rel ∈ (workingSet Language.all moduleAndPackage).relationships.entries, rel.kind = .imports ∧
        ∀ f ∈ moduleAndPackage.files, ∀ g ∈ moduleAndPackage.files,
          rel.source = f.node.id → rel.target = g.node.id → f.language ≠ g.language := by
  decide +kernel

end CodeAtlas
