import CodeAtlas.Proofs.NameResolution

/-!
# Names that are found in their own file

What a simple name refers to depends on all files of a project. If it has one declaration in all, that one
is meant; if it has several, the number of those in the file and in the scope that ask decides. So a file
that is added elsewhere may make a name ambiguous, or unambiguous, for others. It cannot do so for a file that
declares the name itself: `resolve_of_interleaving` says that **a name that refers to a declaration of the
asking file keeps referring to it**, whatever is declared in other files, before or after.

Two runs are compared, one of which also takes in declarations of other files. Their ids are new, so the ids
of the first run are a part of the second one that evolves on its own, and what comes to it from outside lives
in other files (`ExtendedElsewhere`). Taking in a declaration keeps this relation, be it in both runs or in the
second one only, and so do whole runs, by induction over the way in which they are interleaved. In two sets
that are so related, the candidates of the smaller one are a part of those of the larger one, and the part
holds all that live in the asking file (`choice?_eq_some_iff_of_file`). So the two may reach their answers in
different branches, but the answer is the same.
-/

namespace CodeAtlas

/-- **A list made of two others**, each of which keeps its order. -/
inductive Interleaving {α : Type} : List α → List α → List α → Prop
  | nil : Interleaving [] [] []
  | left (a : α) {l m n : List α} : Interleaving l m n → Interleaving (a :: l) m (a :: n)
  | right (a : α) {l m n : List α} : Interleaving l m n → Interleaving l (a :: m) (a :: n)

namespace WorkingSet

/-- The set with declarations taken in one after the other. -/
def declareAll (s : WorkingSet) (l : List (Node × Origin)) : WorkingSet :=
  l.foldl (fun s c => s.addDeclaration c.1 c.2) s

/-- **A set that extends another one outside of a file.** The ids that are kept tell the part that the two
have in common, and no declaration of another id lives in the file. -/
structure ExtendedElsewhere (keep : String → Bool) (file : String) (s t : WorkingSet) : Prop where
  nodes : t.nodes.restrict keep = s.nodes
  declarations : t.declarations.restrict keep = s.declarations
  elsewhere : ∀ d ∈ t.declarations.entries, keep d.id = false → d.origin.file ≠ file

variable {keep : String → Bool} {file : String} {s t : WorkingSet} {origin : Origin}

/-! ### One declaration, and a run -/

namespace ExtendedElsewhere

/-- Two empty sets. -/
theorem empty : ExtendedElsewhere keep file {} {} where
  nodes := rfl
  declarations := rfl
  elsewhere := fun _ hd => nomatch hd

/-- A declaration that both sets take in. -/
theorem both (h : ExtendedElsewhere keep file s t) {n : Node} (hn : keep n.id = true) (o : Origin) :
    ExtendedElsewhere keep file (s.addDeclaration n o) (t.addDeclaration n o) where
  nodes := by
    change (t.nodes.upsert Node.mergeFrom id_mergeFrom n).restrict keep
      = s.nodes.upsert Node.mergeFrom id_mergeFrom n
    rw [Register.restrict_upsert, if_pos hn, h.nodes]
  declarations := by
    change (t.declarations.insertNew _).restrict keep = s.declarations.insertNew _
    rw [Register.restrict_insertNew, if_pos hn, h.declarations]
  elsewhere := by
    -- The new declaration is kept, so it is none of those that only the larger set has.
    intro d hd hkeep
    rcases Register.mem_insertNew hd with hd | rfl
    · exact h.elsewhere d hd hkeep
    · rw [hn] at hkeep
      cases hkeep

/-- A declaration of another file that only the larger set takes in. -/
theorem more (h : ExtendedElsewhere keep file s t) {n : Node} (hn : keep n.id = false) {o : Origin}
    (ho : o.file ≠ file) : ExtendedElsewhere keep file s (t.addDeclaration n o) where
  nodes := by
    change (t.nodes.upsert Node.mergeFrom id_mergeFrom n).restrict keep = s.nodes
    rw [Register.restrict_upsert, hn, if_neg Bool.false_ne_true, h.nodes]
  declarations := by
    change (t.declarations.insertNew _).restrict keep = s.declarations
    rw [Register.restrict_insertNew, hn, if_neg Bool.false_ne_true, h.declarations]
  elsewhere := by
    -- The new declaration is of another file, as are all that are not kept.
    intro d hd hkeep
    rcases Register.mem_insertNew hd with hd | rfl
    · exact h.elsewhere d hd hkeep
    · exact ho

/-- **Interleaved runs stay related.** -/
theorem declareAll (h : ExtendedElsewhere keep file s t) {calls extra all : List (Node × Origin)}
    (hall : Interleaving calls extra all) (hcalls : ∀ c ∈ calls, keep c.1.id = true)
    (hextra : ∀ c ∈ extra, keep c.1.id = false ∧ c.2.file ≠ file) :
    ExtendedElsewhere keep file (s.declareAll calls) (t.declareAll all) := by
  -- Along the way in which the two runs are interleaved.
  induction hall generalizing s t with
  | nil => exact h
  | left c _ ih =>
    exact ih (h.both (hcalls c List.mem_cons_self) c.2)
      (fun d hd => hcalls d (List.mem_cons_of_mem c hd)) hextra
  | right c _ ih =>
    obtain ⟨hkeep, hfile⟩ := hextra c List.mem_cons_self
    exact ih (h.more hkeep hfile) hcalls fun d hd => hextra d (List.mem_cons_of_mem c hd)

end ExtendedElsewhere

/-- The nodes are taken in one after the other. -/
theorem nodes_declareAll (s : WorkingSet) (l : List (Node × Origin)) :
    (s.declareAll l).nodes = s.nodes.upsertAll Node.mergeFrom id_mergeFrom (l.map (·.1)) := by
  induction l generalizing s with
  | nil => rfl
  | cons c l ih => exact ih (s.addDeclaration c.1 c.2)

theorem mem_keys_declareAll {l : List (Node × Origin)} {c : Node × Origin} (hc : c ∈ l) :
    c.1.id ∈ (s.declareAll l).nodes.keys := by
  rw [nodes_declareAll]
  exact Register.mem_keys_upsertAll.2 (.inr ⟨c.1, List.mem_map_of_mem hc, rfl⟩)

/-! ### The choice among candidates -/

/-- **A choice that falls on the asking file** falls on the first candidate there, however many others there
are. -/
theorem choice?_eq_some_iff_of_file {l : List Declaration} {d : Declaration}
    (hd : d.origin.file = origin.file) :
    choice? origin l = some d ↔ l.find? (fun e => e.origin.file == origin.file) = some d := by
  -- A single candidate is chosen anyway; among several the file goes first.
  match l with
  | [] => exact Iff.rfl
  | [e] =>
    constructor
    · intro h
      obtain rfl : e = d := Option.some.inj h
      exact List.find?_cons_of_pos (beq_iff_eq.2 hd)
    · intro h
      exact congrArg some (List.mem_singleton.1 (List.mem_of_find?_eq_some h)).symm
  | a :: b :: r =>
    change nearest? origin (a :: b :: r) = some d ↔ _
    generalize a :: b :: r = m
    constructor
    · intro h
      -- A candidate of the scope is chosen only if there is none in the file.
      have hmem : d ∈ m := mem_of_nearest? h
      unfold nearest? at h
      cases hfind : m.find? fun e => e.origin.file == origin.file with
      | some e =>
        rw [hfind] at h
        exact h
      | none => exact absurd (beq_iff_eq.2 hd) (List.find?_eq_none.1 hfind d hmem)
    · intro h
      unfold nearest?
      rw [h]

namespace ExtendedElsewhere

variable {accept : NodeKind → Bool} (h : ExtendedElsewhere keep file s t)
include h

/-- A declaration with a kept id is accepted in both sets or in none. -/
theorem accepts_eq {d : Declaration} (hd : keep d.id = true) : t.accepts accept d = s.accepts accept d := by
  unfold accepts kind? node?
  rw [← h.nodes, Register.get?_restrict, if_pos hd]

/-- The candidates of the smaller set are those of the larger set whose ids are kept. -/
theorem candidates_eq (simple : String) :
    s.candidates accept simple = (t.candidates accept simple).filter fun d => keep d.id := by
  unfold candidates
  rw [← h.declarations, Register.entries_restrict, List.filter_filter, List.filter_filter]
  refine List.filter_congr fun d _ => ?_
  cases hd : keep d.id with
  | false => rw [Bool.and_false, Bool.false_and]
  | true => rw [Bool.and_true, Bool.true_and, h.accepts_eq hd]

/-- The first candidate of the file is the same in both sets. -/
theorem find?_candidates (simple : String) :
    (t.candidates accept simple).find? (fun d => d.origin.file == file)
      = (s.candidates accept simple).find? fun d => d.origin.file == file := by
  rw [h.candidates_eq, ← List.head?_filter, ← List.head?_filter, List.filter_filter]
  congr 1
  -- Those that only the larger set has are of other files.
  refine List.filter_congr fun d hd => ?_
  cases hkeep : keep d.id with
  | true => rw [Bool.and_true]
  | false =>
    have hfile : d.origin.file ≠ file := h.elsewhere d (mem_candidates.1 hd).1 hkeep
    rw [Bool.and_false, beq_eq_false_iff_ne]
    exact hfile

end ExtendedElsewhere

/-- Without a dot, the simple name decides. -/
theorem referent?_of_notMem {name : String} {accept : NodeKind → Bool} (h : '.' ∉ name.toList) :
    s.referent? name origin accept = choice? origin (s.candidates accept (simpleName name)) := by
  have hdot : name.toList.contains '.' = false := by simpa using h
  unfold referent?
  rw [hdot]
  rfl

/-- **A name of the asking file refers to the same in a set that is extended elsewhere.** -/
theorem ExtendedElsewhere.resolve_eq_some (h : ExtendedElsewhere keep origin.file s t) {name : String}
    (hname : '.' ∉ name.toList) {accept : NodeKind → Bool} {id : String}
    (hresolve : s.resolve name origin accept = some id)
    (hown : ∃ o, s.origin? id = some o ∧ o.file = origin.file) :
    t.resolve name origin accept = some id := by
  rw [resolve_eq] at hresolve ⊢
  obtain ⟨d, hd, rfl⟩ := Option.map_eq_some_iff.1 hresolve
  -- The declaration that is found is the one whose origin is known.
  have hfile : d.origin.file = origin.file := by
    obtain ⟨o, ho, hofile⟩ := hown
    rw [origin?_of_mem (mem_of_referent? hd).1] at ho
    rw [Option.some.inj ho]
    exact hofile
  rw [referent?_of_notMem hname, choice?_eq_some_iff_of_file hfile, ← h.find?_candidates] at hd
  rw [referent?_of_notMem hname, (choice?_eq_some_iff_of_file hfile).2 hd]
  rfl

/-- **Names of a file do not depend on other files.** If a run takes in some declarations, and another run
takes in the same ones in the same order, with declarations of new ids in other files among them, then a
simple name that refers to a declaration of the asking file after the first run refers to the same
declaration after the second one. -/
theorem resolve_of_interleaving {calls extra all : List (Node × Origin)}
    (hall : Interleaving calls extra all) {file : String}
    (hid : ∀ c ∈ extra, c.1.id ∉ (declareAll {} calls).nodes.keys) (hfile : ∀ c ∈ extra, c.2.file ≠ file)
    (name : String) (hname : '.' ∉ name.toList) (origin : Origin) (horigin : origin.file = file)
    (accept : NodeKind → Bool) {id : String}
    (hresolve : (declareAll {} calls).resolve name origin accept = some id)
    (hown : ∃ o, (declareAll {} calls).origin? id = some o ∧ o.file = file) :
    (declareAll {} all).resolve name origin accept = some id ∧
      (declareAll {} all).declarations.get? id = (declareAll {} calls).declarations.get? id := by
  subst horigin
  -- What is kept are the ids that the first run knows.
  have hextended : ExtendedElsewhere (fun id => decide (id ∈ (declareAll {} calls).nodes.keys))
      origin.file (declareAll {} calls) (declareAll {} all) := by
    refine ExtendedElsewhere.empty.declareAll hall (fun c hc => ?_) fun c hc => ⟨?_, hfile c hc⟩
    · exact decide_eq_true (mem_keys_declareAll hc)
    · exact decide_eq_false (hid c hc)
  refine ⟨hextended.resolve_eq_some hname hresolve hown, ?_⟩
  obtain ⟨k, hk, -⟩ := kind?_of_resolve hresolve
  rw [← hextended.declarations, Register.get?_restrict, if_pos (decide_eq_true (mem_keys_of_kind? hk))]

/-- A class of one name, in a package and a file. -/
def animalIn (package file : String) : Node × Origin :=
  (.declared ⟨.java, .plainClass⟩ (package ++ ".Animal") "Animal" file 1, { file, scope := some package })

/-- A class is found from its own file, although it is not the first one of its name, and not the only one in
its package. -/
theorem resolve_of_interleaving_threeClasses :
    (declareAll {} [animalIn "p" "Own.java"]).resolve "Animal" { file := "Own.java", scope := some "p" }
        (fun k => k.category.isType) = some (animalIn "p" "Own.java").1.id ∧
      (declareAll {} [animalIn "p" "First.java", animalIn "p" "Own.java", animalIn "q" "Last.java"]).resolve
          "Animal" { file := "Own.java", scope := some "p" } (fun k => k.category.isType)
        = some (animalIn "p" "Own.java").1.id ∧
      (declareAll {} [animalIn "p" "First.java", animalIn "p" "Own.java",
          animalIn "q" "Last.java"]).declarations.get? (animalIn "p" "Own.java").1.id
        = (declareAll {} [animalIn "p" "Own.java"]).declarations.get? (animalIn "p" "Own.java").1.id := by
  -- The class of the file comes second of the three.
  have hall : Interleaving [animalIn "p" "Own.java"] [animalIn "p" "First.java", animalIn "q" "Last.java"]
      [animalIn "p" "First.java", animalIn "p" "Own.java", animalIn "q" "Last.java"] :=
    .right _ (.left _ (.right _ .nil))
  have hresolve : (declareAll {} [animalIn "p" "Own.java"]).resolve "Animal"
      { file := "Own.java", scope := some "p" } (fun k => k.category.isType)
      = some (animalIn "p" "Own.java").1.id := by decide +kernel
  have hown : (declareAll {} [animalIn "p" "Own.java"]).origin? (animalIn "p" "Own.java").1.id
      = some { file := "Own.java", scope := some "p" } := by decide +kernel
  refine ⟨hresolve, resolve_of_interleaving hall ?_ ?_ "Animal" ?_ _ rfl _ hresolve ⟨_, hown, rfl⟩⟩
  · decide +kernel
  · decide +kernel
  · decide

end WorkingSet

end CodeAtlas
