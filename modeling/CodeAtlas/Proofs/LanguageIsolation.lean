import CodeAtlas.Schema.Standard
import CodeAtlas.Proofs.PartResolution
import CodeAtlas.Proofs.Plan

/-!
# Languages do not interfere

The files of all languages go through one working set, one index of names and one table of files. Still,
what a build plans for one language is what it would plan for the files of that language alone
(`statements_of_language`).

The proof relates the two runs step by step, through the part of the working set that belongs to the
language:

* a file of the language contributes changes of the part and nothing else, and a file of another language
  contributes none (`keeps_changes`). So the parts agree when all files have been walked;
* resolving references commutes with taking the part (`WorkingSet.restrict_resolvePending`). So the parts
  agree when all references are resolved (`restrict_workingSet`);
* in the run over the files of the language there is nothing but the part (`holdsId_workingSet`).

Two things are asked of the files: distinct paths, since files are looked up by path, and that no two files
of different languages share an id. An id covers the path, so the second can fail only where two paths differ
in nothing that an id covers, or where two digests collide.
-/

namespace CodeAtlas

/-! ### Files -/

namespace ParseResult

/-- The part of a project that belongs to a language. -/
def part (r : ParseResult) (l : Language) : Part :=
  ⟨l, r.filesOf l⟩

/-- **The project of the files of one language.** -/
def only (r : ParseResult) (l : Language) : ParseResult :=
  { r with files := r.filesOf l }

/-- **Files that can be told apart**: distinct paths, and no id for files of two languages. -/
structure Distinct (r : ParseResult) : Prop where
  paths : (r.files.map (·.path)).Nodup
  ids : ∀ f ∈ r.files, ∀ g ∈ r.files, f.node.id = g.node.id → f.language = g.language

variable {r : ParseResult} {l : Language} {f : ParsedFile}

/-- The files of a language are files of the project. -/
theorem mem_filesOf : f ∈ r.filesOf l ↔ f ∈ r.files ∧ f.language = l := by
  unfold filesOf
  rw [List.mem_filter, beq_iff_eq]

/-- The path of a file is on the side of its language. -/
theorem Distinct.holdsPath (h : r.Distinct) (hf : f ∈ r.files) :
    (r.part l).holdsPath f.path = decide (f.language = l) := by
  rw [Bool.eq_iff_iff, decide_eq_true_iff]
  unfold Part.holdsPath
  rw [List.any_eq_true]
  constructor
  · -- A file of the part with the same path is the same file.
    rintro ⟨g, hg, hpath⟩
    obtain ⟨hmem, hgl⟩ := mem_filesOf.1 hg
    rwa [List.inj_on_of_nodup_map h.paths hmem hf (beq_iff_eq.1 hpath)] at hgl
  · exact fun hl => ⟨f, mem_filesOf.2 ⟨hf, hl⟩, beq_self_eq_true _⟩

/-- The node of a file is on the side of its language. -/
theorem Distinct.holdsId (h : r.Distinct) (hf : f ∈ r.files) :
    (r.part l).holdsId f.node.id = decide (f.language = l) := by
  rw [Part.holdsId_of_file f.identified_node rfl, Bool.eq_iff_iff, decide_eq_true_iff, List.any_eq_true]
  constructor
  · -- A file of the part with the same id is at least of the same language.
    rintro ⟨g, hg, hid⟩
    obtain ⟨hmem, hgl⟩ := mem_filesOf.1 hg
    exact (h.ids f hf g hmem (beq_iff_eq.1 hid).symm).trans hgl
  · exact fun hl => ⟨f, mem_filesOf.2 ⟨hf, hl⟩, beq_self_eq_true _⟩

end ParseResult

/-- A reference from a site is on the side of the language of the site. -/
theorem Part.holdsReference_of_from {P : Part} {f : FileSite} {ref : Reference}
    (hids : ∀ id ∈ ref.ids, OfLanguage f.language id) (hfrom : ref.From f)
    (hpath : P.holdsPath f.path = decide (f.language = P.language)) :
    P.holdsReference ref = decide (f.language = P.language) := by
  have hid : ∀ id ∈ ref.ids, P.holdsId id = decide (f.language = P.language) :=
    fun id h => Part.holdsId_of_language (hids id h)
  cases ref with
  | importing file l i line statement => exact hfrom.1 ▸ hpath
  | overriding member owner name =>
    -- The only reference that mentions two nodes; they are of the same language.
    change (P.holdsId member && (P.holdsId owner && true)) = _
    rw [hid member List.mem_cons_self, hid owner (List.mem_cons_of_mem _ List.mem_cons_self),
      Bool.and_true, Bool.and_self]
  | _ => exact (Bool.and_true _).trans (hid _ List.mem_cons_self)

namespace ParsedFile

variable {r : ParseResult} {l : Language} {f : ParsedFile} {languages : List Language}

/-- **A file contributes changes of its own language and no others**, warnings aside. -/
theorem keeps_changes (h : r.Distinct) (hf : f ∈ r.files) :
    ∀ c ∈ f.changes languages, c.warning? = none →
      (r.part l).keeps c = decide (f.language = l) := by
  intro c hc hw
  unfold changes at hc
  cases hb : f.built languages with
  | error skip =>
    rw [hb] at hc
    obtain rfl := List.mem_singleton.1 hc
    cases hw
  | ok record =>
    rw [hb] at hc
    -- The node and the path of the file, and then what its record contributes.
    rcases List.mem_cons.1 hc with rfl | hc
    · rw [Part.keeps_node, h.holdsId hf]
    rcases List.mem_cons.1 hc with rfl | hc
    · exact h.holdsPath hf
    have hwithin := f.within_language record c hc
    have hid : ∀ {id : String}, OfLanguage f.language id →
        (r.part l).holdsId id = decide (f.language = l) := fun hid => Part.holdsId_of_language hid
    -- Every change that is left is about ids of the language of its file, or about the path of the file.
    cases c with
    | node n => exact hid hwithin
    | declaration d => exact hid hwithin.1
    | scope path name => exact (hwithin : path = f.path) ▸ h.holdsPath hf
    | relationship rel =>
      -- A relationship may start at the file, which is on the same side as its declarations.
      have hsource : (r.part l).holdsId rel.source = decide (f.language = l) := by
        rcases hwithin.1 with hs | hs
        · rw [hs, f.fileId_site, h.holdsId hf]
        · exact hid hs
      rw [Part.keeps_relationship, hsource, hid hwithin.2, Bool.and_self]
    | reference ref => exact Part.holdsReference_of_from hwithin.1 hwithin.2 (h.holdsPath hf)
    | _ => exact hwithin.elim

/-- **A file contributes nothing that mixes the sides.** -/
theorem sound_changes (h : r.Distinct) (hf : f ∈ r.files) :
    ∀ c ∈ f.changes languages, (r.part l).Sound c := by
  intro c hc
  unfold changes at hc
  cases hb : f.built languages with
  | error skip =>
    rw [hb] at hc
    obtain rfl := List.mem_singleton.1 hc
    trivial
  | ok record =>
    rw [hb] at hc
    rcases List.mem_cons.1 hc with rfl | hc
    · exact f.identified_node
    rcases List.mem_cons.1 hc with rfl | hc
    · exact (h.holdsId hf).trans (h.holdsPath hf).symm
    have hwithin := f.within_language record c hc
    -- What a change is about lies on one side: either all in the part or all outside of it.
    cases c with
    | node n => exact (FileSite.declares_recordChanges n hc).identified
    | declaration d =>
      exact fun o ho => (Part.holdsId_of_language (hwithin.2 o ho)).trans
        (Part.holdsId_of_language hwithin.1).symm
    | reference ref =>
      have hside := Part.holdsReference_of_from (P := r.part l) hwithin.1 hwithin.2 (h.holdsPath hf)
      have hids : ∀ id ∈ ref.ids, (r.part l).holdsId id = (r.part l).holdsReference ref ∧
          ∀ k, kindOfId? id = some k → k.category ≠ .file := by
        intro id hid
        refine ⟨(Part.holdsId_of_language (hwithin.1 id hid)).trans hside.symm, fun k hk => ?_⟩
        obtain ⟨k', hk', -, hfile⟩ := hwithin.1 id hid
        rw [hk'] at hk
        exact Option.some.inj hk ▸ hfile
      cases ref with
      | importing file l' i line statement =>
        -- The path decides the file, and so the language of the import.
        intro hpath
        obtain ⟨rfl, rfl⟩ := hwithin.2
        exact of_decide_eq_true ((h.holdsPath hf).symm.trans hpath)
      | _ => exact hids
    | file path id => exact hwithin.elim
    | inheritance child parent => exact hwithin.elim
    | _ => trivial

end ParsedFile

/-! ### The two runs -/

section Runs

variable {r : ParseResult} (l : Language) (languages : List Language) (h : r.Distinct)
include h

/-- The changes of the part come from the files of the language. -/
theorem filter_keeps_flatMap {files : List ParsedFile} (hfiles : ∀ f ∈ files, f ∈ r.files) :
    (files.flatMap (·.changes languages)).filter (r.part l).keeps
      = ((files.filter fun f => f.language == l).flatMap (·.changes languages)).filter
        (r.part l).keeps := by
  -- By induction on the files: one of another language adds nothing that the part keeps.
  induction files with
  | nil => rfl
  | cons f files ih =>
    have ih := ih fun g hg => hfiles g (List.mem_cons_of_mem f hg)
    rw [List.flatMap_cons, List.filter_append, ih, List.filter_cons]
    split
    · rw [List.flatMap_cons, List.filter_append]
    · -- Nothing of a file of another language belongs to the part.
      rename_i hl
      have hnil : (f.changes languages).filter (r.part l).keeps = [] := by
        rw [List.filter_eq_nil_iff]
        intro c hc
        cases hw : c.warning? with
        | none =>
          rw [ParsedFile.keeps_changes h (hfiles f List.mem_cons_self) c hc hw, decide_eq_true_iff]
          exact fun he => hl (beq_iff_eq.2 he)
        | some m =>
          cases c with
          | warning m => exact Bool.false_ne_true
          | _ => cases hw
      rw [hnil, List.nil_append]

/-- What files contribute is separated and closed. -/
theorem separated_collected {files : List ParsedFile} (hfiles : ∀ f ∈ files, f ∈ r.files) :
    (r.part l).Separated (({} : WorkingSet).applyAll (files.flatMap (·.changes languages))) := by
  refine Part.Separated.empty.applyAll fun c hc => ?_
  obtain ⟨f, hf, hc⟩ := List.mem_flatMap.1 hc
  exact ParsedFile.sound_changes h (hfiles f hf) c hc

/-- **The part of a run** is the run of the changes of the part. -/
theorem restrict_run {files : List ParsedFile} (hfiles : ∀ f ∈ files, f ∈ r.files) :
    ((files.foldl (addParsedFile languages) {}).resolvePending languages).restrict (r.part l)
      = (({} : WorkingSet).applyAll
          ((files.flatMap (·.changes languages)).filter (r.part l).keeps)).resolvePending languages := by
  rw [foldl_addParsedFile, WorkingSet.restrict_resolvePending (separated_collected l languages h hfiles)
    (WorkingSet.Closed.empty.applyAll (WorkingSet.grounded_flatMap files languages)),
    WorkingSet.restrict_applyAll]
  rfl

/-- **The part of the working set of a project** is the part of the working set of the files of the
language. -/
theorem restrict_workingSet :
    (workingSet languages r).restrict (r.part l)
      = (workingSet languages (r.only l)).restrict (r.part l) := by
  have hall := restrict_run l languages h fun f (hf : f ∈ r.files) => hf
  have honly := restrict_run l languages h fun f (hf : f ∈ r.filesOf l) => List.mem_of_mem_filter hf
  -- Both are the run of the same changes.
  rw [filter_keeps_flatMap l languages h fun f hf => hf] at hall
  exact hall.trans honly.symm

/-- Everything that the files of the language contribute belongs to the part. -/
theorem keeps_collected :
    ∀ c, (({} : WorkingSet).applyAll ((r.filesOf l).flatMap (·.changes languages))).Holds c →
      c.warning? = none → (r.part l).keeps c = true := by
  refine WorkingSet.forall_holds_applyAll ?_ (fun c hc => absurd hc (WorkingSet.not_holds_empty c)) ?_
  · intro a b hid ha _ _
    rw [Part.keeps_node, WorkingSet.id_mergeFrom a b hid]
    exact ha rfl
  · intro c hc hw
    -- What arrives is contributed by a file of the language, and a file contributes to its part only.
    obtain ⟨f, hf, hc⟩ := List.mem_flatMap.1 hc
    obtain ⟨hmem, hl⟩ := ParseResult.mem_filesOf.1 hf
    rw [ParsedFile.keeps_changes h hmem c hc hw]
    exact decide_eq_true hl

/-- **The run over the files of a language holds nothing but the part.** -/
theorem holdsId_workingSet :
    ∀ n ∈ (workingSet languages (r.only l)).nodes.entries, (r.part l).holdsId n.id = true := by
  have hs := separated_collected l languages h fun f (hf : f ∈ r.filesOf l) => List.mem_of_mem_filter hf
  have hkeeps := keeps_collected l languages h
  unfold workingSet
  rw [foldl_addParsedFile]
  -- References of the part bring only nodes of the part, as long as the set is separated.
  refine (WorkingSet.resolvePending_invariant (Q := fun t => (r.part l).Separated t ∧
    ∀ n ∈ t.nodes.entries, (r.part l).holdsId n.id = true) ?_ ?_).2
  · exact ⟨hs.withPending, fun n hn => hkeeps (.node n) hn rfl⟩
  · intro t ht ref href
    have hr := hs (.reference ref) href
    exact ⟨ht.1.applyAll (WorkingSet.sound_referenceChanges ht.1 hr),
      WorkingSet.holdsId_step languages ht.1 hr (hkeeps (.reference ref) href rfl) ht.2⟩

/-- **The sides do not mix in the working set of a project.** -/
theorem separated_workingSet : (r.part l).Separated (workingSet languages r) := by
  have hs := separated_collected l languages h fun f (hf : f ∈ r.files) => hf
  unfold workingSet
  rw [foldl_addParsedFile]
  exact WorkingSet.resolvePending_invariant hs.withPending fun t ht ref href => ht.applyAll
    (WorkingSet.sound_referenceChanges ht (hs (.reference ref) href))

/-- The nodes of the part are those of the run over the language alone. -/
theorem filter_nodes_workingSet :
    ((workingSet languages r).nodes.entries.filter fun n => (r.part l).holdsId n.id)
      = (workingSet languages (r.only l)).nodes.entries := by
  rw [← WorkingSet.nodes_restrict, restrict_workingSet l languages h, WorkingSet.nodes_restrict]
  exact List.filter_eq_self.2 (holdsId_workingSet l languages h)

/-- The relationships between nodes of the part are those of that run. -/
theorem filter_relationships_workingSet :
    ((workingSet languages r).relationships.entries.filter fun rel =>
        (r.part l).holdsId rel.source && (r.part l).holdsId rel.target)
      = (workingSet languages (r.only l)).relationships.entries := by
  rw [← WorkingSet.relationships_restrict, restrict_workingSet l languages h,
    WorkingSet.relationships_restrict]
  refine List.filter_eq_self.2 fun rel hrel => ?_
  -- Both ends are nodes of the run, and these are all in the part.
  have hend : ∀ id ∈ (workingSet languages (r.only l)).nodes.keys, (r.part l).holdsId id = true := by
    intro id hid
    obtain ⟨n, hn, rfl⟩ := Register.mem_keys_iff.1 hid
    exact holdsId_workingSet l languages h n hn
  have hclosed := closed_workingSet languages (r.only l) (.relationship rel) hrel
  rw [Bool.and_eq_true]
  exact ⟨hend _ (hclosed _ List.mem_cons_self),
    hend _ (hclosed _ (List.mem_cons_of_mem _ List.mem_cons_self))⟩

end Runs

/-! ### Plans -/

namespace ParseResult

variable (r : ParseResult) (l : Language)

/-- **Whether a node belongs to a language**: it is the file of one of its files, or no file and in its
namespace. -/
def ownsNode (n : Node) : Bool :=
  if n.kind.category = .file then (r.filesOf l).any fun f => f.node.id == n.id
  else n.kind.space == l.space

/-- **Whether a statement of a plan belongs to a language**: it merges a node of the language, or a
relationship between two planned nodes of the language. -/
def ownsStatement (p : Plan) : Statement → Bool
  | .mergeNode n => r.ownsNode l n
  | .mergeRelationship rel =>
    (p.nodes.any fun n => r.ownsNode l n && n.id == rel.source) &&
      p.nodes.any fun n => r.ownsNode l n && n.id == rel.target

/-- Whether a node belongs to a language can be told from its id. -/
theorem ownsNode_eq {n : Node} (hn : n.Identified) : r.ownsNode l n = (r.part l).holdsId n.id := by
  unfold ownsNode
  split
  · rename_i hfile
    exact (Part.holdsId_of_file (P := r.part l) hn hfile).symm
  · rename_i hfile
    exact (Part.holdsId_of_kind (P := r.part l) hn hfile).symm

end ParseResult

namespace Plan

variable {P : Part} {schema : Schema}

/-- The kind behind an id of the part is not affected by what is left out. -/
theorem kindAmong?_filter {nodes : List Node} {id : String} (h : P.holdsId id = true) :
    kindAmong? (nodes.filter fun n => P.holdsId n.id) id = kindAmong? nodes id := by
  unfold kindAmong?
  rw [← List.head?_filter, ← List.head?_filter, List.filter_filter]
  congr 2
  refine List.filter_congr fun n _ => ?_
  -- Only nodes with this id count, and these are in the part.
  by_cases hn : n.id = id
  · rw [hn, h, Bool.and_true]
  · simp [hn]

/-- Relationships of the part are judged by the nodes of the part. -/
theorem relationshipWarning?_filter {nodes : List Node} {rel : Relationship}
    (hs : P.holdsId rel.source = true) (ht : P.holdsId rel.target = true) :
    relationshipWarning? schema (nodes.filter fun n => P.holdsId n.id) rel
      = relationshipWarning? schema nodes rel := by
  unfold relationshipWarning?
  rw [kindAmong?_filter hs, kindAmong?_filter ht]

/-- The planned nodes of a part are the nodes that are planned for it. -/
theorem nodesOf_filter {s t : WorkingSet}
    (h : (s.nodes.entries.filter fun n => P.holdsId n.id) = t.nodes.entries) :
    (nodesOf schema s).filter (fun n => P.holdsId n.id) = nodesOf schema t := by
  unfold nodesOf
  rw [← h, List.filter_filter, List.filter_filter]
  exact List.filter_congr fun n _ => Bool.and_comm _ _

/-- The planned relationships of a part are the relationships that are planned for it. -/
theorem relationshipsOf_filter {s t : WorkingSet}
    (hn : (s.nodes.entries.filter fun n => P.holdsId n.id) = t.nodes.entries)
    (hr : (s.relationships.entries.filter fun rel => P.holdsId rel.source && P.holdsId rel.target)
      = t.relationships.entries) :
    ((relationshipsOf schema s).filter fun rel => P.holdsId rel.source && P.holdsId rel.target)
      = relationshipsOf schema t := by
  unfold relationshipsOf
  rw [← hr, ← nodesOf_filter hn, List.filter_filter, List.filter_filter]
  refine List.filter_congr fun rel _ => ?_
  -- A relationship with an end elsewhere is in neither list.
  cases hs : P.holdsId rel.source with
  | false => simp
  | true =>
    cases ht : P.holdsId rel.target with
    | false => simp
    | true => rw [relationshipWarning?_filter hs ht, Bool.and_true, Bool.true_and, Bool.and_true]

end Plan

section Statements

variable {r : ParseResult} (h : r.Distinct) (settings : BuildSettings) (l : Language)
include h

/-- A planned node belongs to the language if its id is in the part. -/
theorem ownsNode_of_mem_plan {n : Node} (hn : n ∈ (plan settings r).nodes) :
    r.ownsNode l n = (r.part l).holdsId n.id := by
  unfold plan at hn
  rw [Plan.ofWorkingSet_eq] at hn
  exact r.ownsNode_eq l (separated_workingSet l settings.languages h (.node n) (Plan.mem_nodesOf.1 hn).1)

/-- An end of a planned relationship belongs to the language if it is in the part. -/
theorem any_ownsNode_of_mem_plan {n : Node} (hn : n ∈ (plan settings r).nodes) :
    ((plan settings r).nodes.any fun m => r.ownsNode l m && m.id == n.id)
      = (r.part l).holdsId n.id := by
  rw [Bool.eq_iff_iff, List.any_eq_true]
  -- The node that is owned has the same id, and whether it is owned is told by the id alone.
  constructor
  · rintro ⟨m, hm, howns⟩
    rw [Bool.and_eq_true, beq_iff_eq, ownsNode_of_mem_plan h settings l hm] at howns
    exact howns.2 ▸ howns.1
  · intro hid
    refine ⟨n, hn, ?_⟩
    rw [ownsNode_of_mem_plan h settings l hn, hid, beq_self_eq_true]
    rfl

/-- A planned relationship belongs to a language if both of its ends do. -/
theorem ownsStatement_of_mem_plan {rel : Relationship} (hrel : rel ∈ (plan settings r).relationships) :
    r.ownsStatement l (plan settings r) (.mergeRelationship rel)
      = ((r.part l).holdsId rel.source && (r.part l).holdsId rel.target) := by
  -- Both ends are planned, so they have nodes that say where they belong.
  obtain ⟨a, b, ha, hb, hsource, htarget, -⟩ :=
    (Plan.wellFormed_statements settings.schema (workingSet settings.languages r)).relationshipsAccepted
      rel ((Plan.mergeRelationship_mem_statements _).2 hrel)
  change (((plan settings r).nodes.any fun n => r.ownsNode l n && n.id == rel.source) &&
    (plan settings r).nodes.any fun n => r.ownsNode l n && n.id == rel.target) = _
  rw [← hsource, ← htarget,
    any_ownsNode_of_mem_plan h settings l ((Plan.mergeNode_mem_statements _).1 ha),
    any_ownsNode_of_mem_plan h settings l ((Plan.mergeNode_mem_statements _).1 hb)]

end Statements

/-- **Languages do not interfere.** What a build plans for the nodes of a language and for the
relationships between them is, statement by statement, what it plans for the files of that language
alone. -/
theorem statements_of_language (settings : BuildSettings) (r : ParseResult) (l : Language)
    (h : r.Distinct) :
    (plan settings r).statements.filter (r.ownsStatement l (plan settings r))
      = (plan settings (r.only l)).statements := by
  -- The two working sets agree on the part, and a plan is made from nodes and relationships one by one.
  have hnodes : (plan settings r).nodes.filter (fun n => (r.part l).holdsId n.id)
      = (plan settings (r.only l)).nodes := by
    unfold plan
    rw [Plan.ofWorkingSet_eq, Plan.ofWorkingSet_eq]
    exact Plan.nodesOf_filter (filter_nodes_workingSet l settings.languages h)
  have hrels : (plan settings r).relationships.filter
        (fun rel => (r.part l).holdsId rel.source && (r.part l).holdsId rel.target)
      = (plan settings (r.only l)).relationships := by
    unfold plan
    rw [Plan.ofWorkingSet_eq, Plan.ofWorkingSet_eq]
    exact Plan.relationshipsOf_filter (filter_nodes_workingSet l settings.languages h)
      (filter_relationships_workingSet l settings.languages h)
  have hstatements : ∀ p : Plan,
      p.statements = p.nodes.map .mergeNode ++ p.relationships.map .mergeRelationship := fun _ => rfl
  -- The test on statements is the test on ids, for nodes and for relationships.
  rw [hstatements, hstatements, List.filter_append, List.filter_map, List.filter_map, ← hnodes, ← hrels]
  congr 2
  · exact List.filter_congr fun n hn => ownsNode_of_mem_plan h settings l hn
  · exact List.filter_congr fun rel hrel => ownsStatement_of_mem_plan h settings l hrel

/-- A project in which two languages declare a class of one name in a scope of one name, and a class that
names it. -/
def twoLanguages : ParseResult :=
  let animal : TypeDecl := { name := "Animal", kind := .plainClass, span := ⟨2, 2⟩ }
  let dog : TypeDecl :=
    { name := "Dog", kind := .plainClass, superclass := some "Animal", span := ⟨3, 3⟩ }
  { files := [.ofRecord "Animal.java" (.java (some "zoo") 1 { types := [animal, dog] }),
      .ofRecord "Animal.kt" (.kotlin (some "zoo") 1 { types := [animal] })] }

theorem distinct_twoLanguages : twoLanguages.Distinct :=
  ⟨by decide +kernel, by decide +kernel⟩

/-- The class of the other language makes the name no less clear. -/
theorem statements_of_language_twoLanguages :
    twoLanguages.Distinct ∧
      (plan { schema := .standard } twoLanguages).statements.filter
          (twoLanguages.ownsStatement .java (plan { schema := .standard } twoLanguages))
        = (plan { schema := .standard } (twoLanguages.only .java)).statements :=
  ⟨distinct_twoLanguages,
    statements_of_language { schema := .standard } twoLanguages .java distinct_twoLanguages⟩

end CodeAtlas
