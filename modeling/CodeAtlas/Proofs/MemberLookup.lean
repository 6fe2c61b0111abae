import CodeAtlas.Proofs.NameResolution
import CodeAtlas.Proofs.Overriding

/-!
# The member that a call finds is a nearest one

A call without a qualifier, or on a named type, is looked up in a type and then in what the type inherits.
`WorkingSet.memberInHierarchy?` does so by a search from the type along the recorded supertypes, which may
form any graph. There may be diamonds, and a type may be among its own ancestors.

`memberInHierarchy?_nearest` says what the search finds. It finds nothing exactly if neither the type nor
any ancestor declares a callable of the name, and otherwise it finds the first callable of that name that
is declared in a type at the least distance among those that declare one. Unlike the search for an
overridden member, it looks at the type itself, at distance zero.

The members of a type are kept as ids. Since ids tell declarations, they are read here as declarations
(`callableMember?_eq`), which carry the order in which they were entered.
-/

namespace CodeAtlas.WorkingSet

/-- A declaration that a type owns, and whose node is a callable of the given name. -/
def IsCallableOf (s : WorkingSet) (type name : String) (d : Declaration) : Prop :=
  d.origin.owner = some type ∧
    ∃ n, s.node? d.id = some n ∧ n.name = name ∧ n.kind.category.isCallable = true

/-- A type that owns a callable of the given name. -/
def OwnsCallable (s : WorkingSet) (name type : String) : Prop :=
  ∃ d ∈ s.declarations.entries, s.IsCallableOf type name d

/-- **A nearest callable of a name**, seen from a type: the first one that was entered for some type above
it, and no type that owns one is nearer. -/
def NearestCallable (s : WorkingSet) (owner name id : String) : Prop :=
  ∃ type n, s.Ascends n owner type ∧
    (∃ d, s.IsFirst (s.IsCallableOf type name) d ∧ d.id = id) ∧
    ∀ other m, s.Ascends m owner other → s.OwnsCallable name other → n ≤ m

variable {s : WorkingSet} {owner name type id : String}

/-! ### The members of one type -/

/-- Whether a declaration is a callable of a type, as the search asks. -/
def isCallableOf (s : WorkingSet) (type name : String) (d : Declaration) : Bool :=
  d.origin.owner == some type &&
    (s.node? d.id).any fun n => n.name == name && n.kind.category.isCallable

/-- The test says what it should. -/
theorem isCallableOf_iff (d : Declaration) :
    s.isCallableOf type name d = true ↔ s.IsCallableOf type name d := by
  unfold isCallableOf IsCallableOf
  simp only [Bool.and_eq_true, beq_iff_eq, Option.any_eq_true]

/-- **A search among the members of a type is one among all declarations.** -/
theorem callableMember?_eq (s : WorkingSet) (name type : String) :
    s.callableMember? (fun _ => true) name type
      = (s.declarations.entries.find? (s.isCallableOf type name)).map (·.id) := by
  unfold callableMember? membersOf declared
  rw [List.find?_map, List.find?_filter]
  congr 2
  funext d
  simp only [Function.comp_apply, Bool.true_and, isCallableOf, Bool.decide_and, Bool.decide_eq_true]

/-- A member that is found is the first callable of its name. -/
theorem exists_isFirst_of_callableMember? (h : s.callableMember? (fun _ => true) name type = some id) :
    ∃ d, s.IsFirst (s.IsCallableOf type name) d ∧ d.id = id := by
  rw [callableMember?_eq] at h
  obtain ⟨d, hd, hid⟩ := Option.map_eq_some_iff.mp h
  exact ⟨d, (find?_eq_some_iff_isFirst isCallableOf_iff).mp hd, hid⟩

/-- None is found exactly if the type owns none. -/
theorem callableMember?_eq_none_iff :
    s.callableMember? (fun _ => true) name type = none ↔ ¬ s.OwnsCallable name type := by
  rw [callableMember?_eq, Option.map_eq_none_iff, List.find?_eq_none]
  simp only [isCallableOf_iff, OwnsCallable, not_exists, not_and]

/-! ### The search -/

theorem nearestCallable_of_memberInHierarchy? (h : s.memberInHierarchy? owner name = some id) :
    s.NearestCallable owner name id := by
  obtain ⟨n, type, hdistance, hfound, hnearer⟩ := Reach.distance_of_nearest? h
  refine ⟨type, n, hdistance.1, exists_isFirst_of_callableMember? hfound, ?_⟩
  intro other m hascends howns
  refine Nat.le_of_not_lt fun hlt => ?_
  exact callableMember?_eq_none_iff.mp (hnearer m hlt other hascends) howns

/-- **A call finds a nearest member.** The search has no answer exactly if no type that recorded
supertypes lead to, the first one included, owns a callable of the name. -/
theorem memberInHierarchy?_nearest (s : WorkingSet) (owner name : String) :
    (s.memberInHierarchy? owner name = none ↔
      ∀ type n, s.Ascends n owner type → ¬ s.OwnsCallable name type) ∧
    ∀ id, s.memberInHierarchy? owner name = some id → s.NearestCallable owner name id := by
  refine ⟨⟨?_, ?_⟩, fun id => nearestCallable_of_memberInHierarchy?⟩
  -- The search goes through all that is above the type, so what it does not find is not there.
  · intro h type n hascends
    exact callableMember?_eq_none_iff.mp (Reach.eq_none_of_nearest?_eq_none h hascends)
  · intro hnone
    -- An answer would come from one of the types that own nothing of the name.
    refine Option.eq_none_iff_forall_ne_some.mpr fun id hid => ?_
    obtain ⟨type, n, hascends, ⟨d, ⟨before, after, hentries, hcallable, -⟩, -⟩, -⟩ :=
      nearestCallable_of_memberInHierarchy? hid
    refine hnone type n hascends ⟨d, ?_, hcallable⟩
    rw [hentries]
    exact List.mem_append_right before List.mem_cons_self

end CodeAtlas.WorkingSet
