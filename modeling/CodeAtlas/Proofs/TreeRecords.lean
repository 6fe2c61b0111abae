import CodeAtlas.Proofs.Scoping
import CodeAtlas.JavaSource.Walker
import CodeAtlas.PythonSource.Walker

/-!
# The walks through syntax trees fill records that are well scoped

The statement is `wellScoped_records`, about every tree that a parser delivers. For each language there is an invariant
of the walk, one lemma for each thing that the walk finds, and then an induction over the tree.

* The walk through a Java tree keeps a stack of owners. The invariant is that every owner on it is listed
  (`Java.Walker.Sound`). That a walk comes back with the stack that it started with is a statement of its own
  (`Java.Walker.owners_visit`).
* The walk through a Python tree hands the owner down. What is found in a body is found before the next statement
  is visited, so the owner has to stay listed: the walk only adds types (`Python.Found`). The span of a
  definition starts at its name, and is in order because the name lies in the definition.
-/

namespace CodeAtlas

open Declarations (Lists Scoped)

/-! ### Java -/

namespace Java.Walker

/-- **What the walk keeps true**: what has been found is scoped, and the types around are listed. -/
structure Sound (w : Walker) : Prop where
  facts : w.facts.Scoped
  owners_listed : ∀ owner ∈ w.owners, Lists w.facts.types owner

namespace Sound

variable {w : Walker}

theorem start : Sound {} where
  facts := Declarations.scoped_empty
  owners_listed := fun _ h => by cases h

/-- What belongs to the innermost type around belongs to a listed type. -/
theorem owner_listed (h : w.Sound) {owner : String} (ho : w.owner = some owner) : Lists w.facts.types owner :=
  h.owners_listed owner (List.mem_of_mem_head? (Option.mem_def.mpr ho))

/-- Neither directive takes part. -/
theorem visitPackage (h : w.Sound) (n : SyntaxNode) : (w.visitPackage n).Sound := by
  unfold Walker.visitPackage
  split
  · exact ⟨h.facts, h.owners_listed⟩
  · exact h

theorem visitImport (h : w.Sound) (n : SyntaxNode) : (w.visitImport n).Sound where
  facts := { h.facts with }
  owners_listed := h.owners_listed

/-- A type, with the fields that its header declares. They are listed first, and yet belong to it. -/
theorem addType (h : w.Sound) {header : List FieldDecl} {d : TypeDecl} (hspan : d.span.Ordered)
    (henclosing : d.enclosing = w.owner) (hspans : ∀ f ∈ header, f.span.Ordered)
    (howners : ∀ f ∈ header, f.owner = some d.nestedName) : (w.addType header d).Sound where
  facts := by
    have htype := h.facts.addType hspan fun outer ho => h.owner_listed (henclosing ▸ ho)
    refine htype.addFields hspans ?_
    intro f hf owner ho
    rw [howners f hf] at ho
    cases ho
    exact ⟨d, List.mem_append_right _ List.mem_cons_self, rfl⟩
  owners_listed := fun owner ho => (h.owners_listed owner ho).append [d]

/-- A callable belongs to the type around it. -/
theorem addCallable (h : w.Sound) {d : CallableDecl} (hspan : d.span.Ordered) (howner : d.owner = w.owner) :
    (w.addCallable d).Sound where
  facts := h.facts.addCallable hspan fun _ ho => h.owner_listed (howner ▸ ho)
  owners_listed := h.owners_listed

theorem addFields (h : w.Sound) {l : List FieldDecl} (hspan : ∀ f ∈ l, f.span.Ordered)
    (howner : ∀ f ∈ l, f.owner = w.owner) : (w.addFields l).Sound where
  facts := h.facts.addFields hspan fun f hf _ ho => h.owner_listed (howner f hf ▸ ho)
  owners_listed := h.owners_listed

/-- The body of a type that is listed. -/
theorem enter (h : w.Sound) {nested : String} (hlisted : Lists w.facts.types nested) : (w.enter nested).Sound where
  facts := h.facts
  owners_listed := List.forall_mem_cons.mpr ⟨hlisted, h.owners_listed⟩

theorem leave (h : w.Sound) : w.leave.Sound where
  facts := h.facts
  owners_listed := fun owner ho => h.owners_listed owner (List.mem_of_mem_tail ho)

end Sound

/-- The components of a record have the span of their list and belong to the record. -/
theorem componentFields_scoped {kind : TypeKind} {nested : String} {n : SyntaxNode} :
    ∀ f ∈ componentFields kind nested n, f.span.Ordered ∧ f.owner = some nested := by
  intro f hf
  unfold componentFields at hf
  split at hf
  · obtain ⟨p, -, rfl⟩ := List.mem_map.mp hf
    exact ⟨NodeInfo.ordered_span _, rfl⟩
  · cases hf

/-- The fields of a declaration belong to the type around it. -/
theorem fieldDecls_scoped {owner : Option String} {n : SyntaxNode} :
    ∀ f ∈ fieldDecls owner n, f.span.Ordered ∧ f.owner = owner := by
  intro f hf
  obtain ⟨declarator, -, hdeclarator⟩ := List.mem_filterMap.mp hf
  obtain ⟨name, -, rfl⟩ := Option.map_eq_some_iff.mp hdeclarator
  exact ⟨n.info.ordered_span, rfl⟩

theorem constantDecls_scoped {owner : Option String} {n : SyntaxNode} :
    ∀ f ∈ constantDecls owner n, f.span.Ordered ∧ f.owner = owner := by
  intro f hf
  obtain ⟨name, -, rfl⟩ := Option.map_eq_some_iff.mp (Option.mem_toList.mp hf)
  exact ⟨n.info.ordered_span, rfl⟩

mutual

/-- **A visit keeps the invariant**, whatever the node is. -/
theorem sound_visit {w : Walker} (h : w.Sound) (previous : Option SyntaxNode) :
    (n : SyntaxNode) → (w.visit previous n).Sound
  | ⟨info, children⟩ => by
    rw [visit]
    split
    · exact h.visitPackage _
    · exact h.visitImport _
    · split
      -- The type is listed before its body is entered.
      · refine Sound.leave (sound_visitBody (Sound.enter (h.addType ?_ rfl ?_ ?_) ?_) children)
        · exact NodeInfo.ordered_span _
        · exact fun f hf => (componentFields_scoped f hf).1
        · exact fun f hf => (componentFields_scoped f hf).2
        · exact ⟨_, List.mem_append_right _ List.mem_cons_self, rfl⟩
      · exact h
    · split
      · exact sound_visitBody (h.addCallable (NodeInfo.ordered_span _) rfl) children
      · exact h
    · exact h.addFields (fun f hf => (fieldDecls_scoped f hf).1) (fun f hf => (fieldDecls_scoped f hf).2)
    · exact h.addFields (fun f hf => (constantDecls_scoped f hf).1) (fun f hf => (constantDecls_scoped f hf).2)
    · exact h
    · exact sound_visitChildren h none children

/-- So does the walk through the children of a node. -/
theorem sound_visitChildren {w : Walker} (h : w.Sound) (previous : Option SyntaxNode) :
    (l : List SyntaxNode) → (w.visitChildren previous l).Sound
  | [] => by
    rw [visitChildren]
    exact h
  | c :: rest => by
    rw [visitChildren]
    refine sound_visitChildren ?_ (some c) rest
    split
    · exact sound_visit h previous c
    · exact h

/-- So does the walk through the body of a type. -/
theorem sound_visitBody {w : Walker} (h : w.Sound) : (l : List SyntaxNode) → (w.visitBody l).Sound
  | [] => by
    rw [visitBody]
    exact h
  | ⟨info, children⟩ :: rest => by
    rw [visitBody]
    split
    · exact sound_visitChildren h none children
    · exact sound_visitBody h rest

end

mutual

/-- **A visit restores the stack of owners**, whatever the node is. -/
theorem owners_visit (w : Walker) (previous : Option SyntaxNode) :
    (n : SyntaxNode) → (w.visit previous n).owners = w.owners
  | ⟨info, children⟩ => by
    rw [visit]
    split
    · unfold visitPackage
      split <;> rfl
    · rfl
    · split
      -- The type is on top of the stack when its body has been visited, and popped then.
      · rw [leave, owners_visitBody]
        rfl
      · rfl
    · split
      · exact owners_visitBody _ children
      · rfl
    · rfl
    · rfl
    · rfl
    · exact owners_visitChildren w none children

theorem owners_visitChildren (w : Walker) (previous : Option SyntaxNode) :
    (l : List SyntaxNode) → (w.visitChildren previous l).owners = w.owners
  | [] => by rw [visitChildren]
  | c :: rest => by
    rw [visitChildren, owners_visitChildren]
    split
    · exact owners_visit w previous c
    · rfl

theorem owners_visitBody (w : Walker) : (l : List SyntaxNode) → (w.visitBody l).owners = w.owners
  | [] => by rw [visitBody]
  | ⟨info, children⟩ :: rest => by
    rw [visitBody]
    split
    · exact owners_visitChildren w none children
    · exact owners_visitBody w rest

end

end Java.Walker

/-- **The record of a Java tree is well scoped.** -/
theorem Java.wellScoped_recordOf (t : SyntaxTree) : (Java.recordOf t).facts.WellScoped :=
  (Java.Walker.sound_visit .start none t.root).facts.wellScoped _ _

/-! ### Python -/

namespace Python

/-- **What a part of the walk finds**: it is scoped together with what was found before, of which no type is
lost. -/
structure Found (before after : Declarations) : Prop where
  facts : after.Scoped
  types_subset : before.types ⊆ after.types

/-- The class around is listed, if there is one. -/
def OwnerListed (owner : Option String) (d : Declarations) : Prop :=
  ∀ name, owner = some name → Lists d.types name

/-- A listed owner stays so when types are added. -/
theorem OwnerListed.mono {owner : Option String} {d d' : Declarations} (h : OwnerListed owner d)
    (hsub : d.types ⊆ d'.types) : OwnerListed owner d' :=
  fun name hname => (h name hname).mono hsub

namespace Found

variable {d d' d'' : Declarations}

theorem refl (h : d.Scoped) : Found d d := ⟨h, List.Subset.refl _⟩

theorem trans (h : Found d d') (h' : Found d' d'') : Found d d'' :=
  ⟨h'.facts, List.Subset.trans h.types_subset h'.types_subset⟩

end Found

/-- The span of a definition is in order: its name lies in it. -/
theorem ordered_spanFrom {outer : NodeInfo} {name : SyntaxNode} (hname : name.Nested)
    (hwithin : name.info.Within outer) : (spanFrom outer name).Ordered := by
  obtain ⟨info, children⟩ := name
  have hrows : info.firstRow ≤ outer.lastRow := Nat.le_trans hname.1 hwithin.lastRow_le
  change info.firstRow + 1 ≤ max (outer.lastRow + 1) (outer.firstRow + 1)
  omega

/-- The arguments of a class change neither its name, nor its span, nor what it belongs to. -/
theorem addBase_frame (decl : TypeDecl) (n : SyntaxNode) :
    (addBase decl n).enclosing = decl.enclosing ∧ (addBase decl n).span = decl.span := by
  unfold addBase
  split
  · exact ⟨rfl, rfl⟩
  · split
    · split <;> exact ⟨rfl, rfl⟩
    · exact ⟨rfl, rfl⟩

theorem foldl_addBase_frame (decl : TypeDecl) (l : List SyntaxNode) :
    (l.foldl addBase decl).enclosing = decl.enclosing ∧ (l.foldl addBase decl).span = decl.span := by
  induction l generalizing decl with
  | nil => exact ⟨rfl, rfl⟩
  | cons n rest ih =>
    have hframe := addBase_frame decl n
    have hrest := ih (addBase decl n)
    exact ⟨hrest.1.trans hframe.1, hrest.2.trans hframe.2⟩

section Definitions

variable {owner : Option String} {outer : NodeInfo} {decorators : List String} {d : Declarations}
  {n name : SyntaxNode}

theorem enclosing_classDecl : (classDecl owner outer decorators n name).enclosing = owner :=
  (foldl_addBase_frame _ _).1

theorem span_classDecl : (classDecl owner outer decorators n name).span = spanFrom outer name :=
  (foldl_addBase_frame _ _).2

/-- A definition lies in what holds it together with its decorators, and so does its name. -/
theorem ordered_spanFrom_childIn? (hn : n.Nested) (hwithin : n.info.Within outer)
    (hname : n.childIn? "name" = some name) : (spanFrom outer name).Ordered := by
  have hchild := hn.of_mem (SyntaxNode.mem_children_of_childIn? hname)
  exact ordered_spanFrom hchild.2 (hchild.1.trans hwithin)

/-- A class is found before what its body defines, and is then listed itself. -/
theorem found_addType (h : d.Scoped) (howner : OwnerListed owner d) (hn : n.Nested) (hwithin : n.info.Within outer)
    (hname : n.childIn? "name" = some name) : Found d (addType d (classDecl owner outer decorators n name)) where
  facts := by
    refine h.addType ?_ ?_
    · rw [span_classDecl]
      exact ordered_spanFrom_childIn? hn hwithin hname
    · rw [enclosing_classDecl]
      exact howner
  types_subset := List.subset_append_left _ _

/-- A class that has just been added is listed. -/
theorem ownerListed_addType (t : TypeDecl) : OwnerListed (some t.nestedName) (addType d t) := by
  intro name hname
  cases hname
  exact ⟨t, List.mem_append_right _ List.mem_cons_self, rfl⟩

/-- A function is found in the class around it. -/
theorem found_visitFunction (h : d.Scoped) (howner : OwnerListed owner d) (hn : n.Nested)
    (hwithin : n.info.Within outer) : Found d (visitFunction owner outer decorators d n) := by
  unfold visitFunction
  split
  next name hname =>
    exact ⟨h.addCallable (ordered_spanFrom_childIn? hn hwithin hname) howner, List.Subset.refl _⟩
  next => exact .refl h

/-- A variable has the span of its statement. -/
theorem found_addVariables (h : d.Scoped) (howner : OwnerListed owner d) :
    Found d (addVariables d (assigned? owner n).toList) := by
  -- There is one variable or none, with the span of the statement.
  have hvariable : ∀ f ∈ (assigned? owner n).toList, f.span = n.info.span ∧ f.owner = owner := by
    intro f hf
    obtain ⟨assignment, -, hassignment⟩ := Option.bind_eq_some_iff.mp (Option.mem_toList.mp hf)
    obtain ⟨left, -, hleft⟩ := Option.bind_eq_some_iff.mp hassignment
    cases hleft
    exact ⟨rfl, rfl⟩
  refine ⟨h.addFields ?_ ?_, List.Subset.refl _⟩
  · intro f hf
    rw [(hvariable f hf).1]
    exact n.info.ordered_span
  · intro f hf
    rw [(hvariable f hf).2]
    exact howner

end Definitions

open SyntaxNode (NestedIn)

mutual

/-- **What is found in a block** is scoped if the owner of the block is listed. -/
theorem found_visitBlock {owner : Option String} {d : Declarations} {outer : NodeInfo} (h : d.Scoped)
    (howner : OwnerListed owner d) : (l : List SyntaxNode) → NestedIn outer l → Found d (visitBlock owner d l)
  | [], _ => by
    rw [visitBlock]
    exact .refl h
  | c :: rest, hl => by
    rw [visitBlock]
    -- The owner stays listed behind each statement.
    have hstatement : Found d (if c.info.isNamed then visitStatement owner d c else d) := by
      split
      · exact found_visitStatement h howner c hl.1.2
      · exact .refl h
    exact hstatement.trans
      (found_visitBlock hstatement.facts (howner.mono hstatement.types_subset) rest hl.2)

/-- A statement is a class, a function, a decorated definition, a variable or something else. -/
theorem found_visitStatement {owner : Option String} {d : Declarations} (h : d.Scoped)
    (howner : OwnerListed owner d) : (n : SyntaxNode) → n.Nested → Found d (visitStatement owner d n)
  | ⟨info, children⟩, hn => by
    have hwithin : info.Within info := ⟨Nat.le_refl _, Nat.le_refl _⟩
    rw [visitStatement]
    split
    · split
      next name hname =>
        -- The class is listed first, and only then does its body find it as the owner.
        have hclass : Found d (addType d (classDecl owner info [] ⟨info, children⟩ name)) :=
          found_addType h howner hn hwithin hname
        exact hclass.trans (found_visitBody hclass.facts (ownerListed_addType _) children hn.2)
      next => exact .refl h
    · exact found_visitFunction h howner hn hwithin
    · exact found_visitDefinition h howner children hn.2
    · exact found_addVariables h howner
    · exact .refl h

/-- Behind decorators the first definition counts. -/
theorem found_visitDefinition {owner : Option String} {outer : NodeInfo} {decorators : List String}
    {d : Declarations} (h : d.Scoped) (howner : OwnerListed owner d) :
    (l : List SyntaxNode) → NestedIn outer l → Found d (visitDefinition owner outer decorators d l)
  | [], _ => by
    rw [visitDefinition]
    exact .refl h
  | ⟨info, children⟩ :: rest, hl => by
    obtain ⟨⟨hwithin, hn⟩, hrest⟩ := hl
    rw [visitDefinition]
    dsimp only
    -- A child that is no definition is passed, and the next one is looked at.
    split
    · split
      · split
        next name hname =>
          have hclass : Found d (addType d (classDecl owner outer decorators ⟨info, children⟩ name)) :=
            found_addType h howner hn hwithin hname
          exact hclass.trans (found_visitBody hclass.facts (ownerListed_addType _) children hn.2)
        next => exact .refl h
      · exact found_visitFunction h howner hn hwithin
      · exact .refl h
    · exact found_visitDefinition h howner rest hrest

/-- The body of a class is the block among its children. -/
theorem found_visitBody {owner : Option String} {d : Declarations} {outer : NodeInfo} (h : d.Scoped)
    (howner : OwnerListed owner d) : (l : List SyntaxNode) → NestedIn outer l → Found d (visitBody owner d l)
  | [], _ => by
    rw [visitBody]
    exact .refl h
  | ⟨info, children⟩ :: rest, hl => by
    rw [visitBody]
    split
    · exact found_visitBlock h howner children hl.1.2.2
    · exact found_visitBody h howner rest hl.2

end

/-- **The record of a Python tree is well scoped.** -/
theorem wellScoped_recordOf (path : String) (t : SyntaxTree) : (recordOf path t).facts.WellScoped := by
  obtain ⟨⟨info, children⟩, hn⟩ := t
  have howner : OwnerListed none {} := fun _ h => by cases h
  have hfound := found_visitBlock Declarations.scoped_empty howner children hn.2
  exact hfound.facts.wellScoped _ _

end Python

/-! ### Both languages -/

/-- **The records of Java and Python are well scoped**, whatever tree the parser delivers: spans are in order, calls
are sorted, what a declaration belongs to is listed, and an enclosing type comes before the types inside it. No call of
the tree is lost. The walk through a Java tree comes back from every node with the stack of owners that it went in
with. -/
theorem wellScoped_records :
    (∀ t : SyntaxTree, (Java.recordOf t).facts.WellScoped) ∧
    (∀ (path : String) (t : SyntaxTree), (Python.recordOf path t).facts.WellScoped) ∧
    (∀ t : SyntaxTree, (Java.recordOf t).facts.calls.Perm (Java.calls t.root)) ∧
    (∀ (path : String) (t : SyntaxTree), (Python.recordOf path t).facts.calls.Perm (Python.calls false t.root)) ∧
    ∀ (w : Java.Walker) (previous : Option SyntaxNode) (n : SyntaxNode), (w.visit previous n).owners = w.owners := by
  refine ⟨Java.wellScoped_recordOf, Python.wellScoped_recordOf, ?_, ?_, Java.Walker.owners_visit⟩
  · intro t
    exact List.mergeSort_perm _ _
  · intro path t
    exact List.mergeSort_perm _ _

end CodeAtlas
