import CodeAtlas.Proofs.Register
import CodeAtlas.Proofs.Search
import CodeAtlas.Graph.Resolution

/-!
# The member that is overridden is a nearest one

An override is resolved by a search through the supertypes of the owner of a member. The recorded supertypes
may form any graph. There may be diamonds and cycles, and the owner itself may be among its ancestors.

An ancestor *offers* a member to override if it owns a callable of the same name that is not the overriding
member itself (`Offers`). A member is `NearestOverridden` if it is offered by an ancestor other than the
owner, and no ancestor at a smaller distance offers one. What the resolution does is said by
`OverrideOutcome`: it relates the overriding member to a nearest overridden one, unless the two are related
already or there is none; and it does nothing else (`resolveOverride_outcome`).

The search leaves out the owner and starts at its supertypes. That is the same as a search that starts at the
owner and has no answer there (`overridden?_eq`), so the facts on searches from one place apply.
-/

namespace CodeAtlas.WorkingSet

/-- A callable of a type that a member of the given name may override. -/
def Offers (s : WorkingSet) (member name type target : String) : Prop :=
  target ∈ s.membersOf type ∧ target ≠ member ∧
    ∃ n, s.node? target = some n ∧ n.name = name ∧ n.kind.category.isCallable = true

/-- **The way up from a type to an ancestor**, along `n` recorded supertypes. -/
def Ascends (s : WorkingSet) (n : Nat) (type ancestor : String) : Prop :=
  Reach.Path id s.supertypes.entries n type ancestor

/-- **A nearest member to override**: some ancestor other than the owner offers it, and no ancestor that is
nearer to the owner offers any. -/
def NearestOverridden (s : WorkingSet) (member owner name target : String) : Prop :=
  ∃ type n, type ≠ owner ∧ s.Ascends n owner type ∧ s.Offers member name type target ∧
    ∀ m < n, ∀ nearer, nearer ≠ owner → s.Ascends m owner nearer → ∀ t, ¬ s.Offers member name nearer t

/-- **What the resolution of an override makes of a working set.** -/
inductive OverrideOutcome (s : WorkingSet) (space : Namespace) (member owner name : String) :
    WorkingSet → Prop
  /-- The relationship to a nearest overridden member is new. It is added, and nothing else changes. -/
  | added (target : String) (s' : WorkingSet) :
    s.NearestOverridden member owner name target →
    (Relationship.between ⟨space, .overriding⟩ member target).key ∉ s.relationships.keys →
    s'.relationships.entries
      = s.relationships.entries ++ [Relationship.between ⟨space, .overriding⟩ member target] →
    s' = { s with relationships := s'.relationships } →
    OverrideOutcome s space member owner name s'
  /-- The relationship to a nearest overridden member is there already. -/
  | present (target : String) :
    s.NearestOverridden member owner name target →
    (Relationship.between ⟨space, .overriding⟩ member target).key ∈ s.relationships.keys →
    OverrideOutcome s space member owner name s
  /-- No ancestor offers a member to override. -/
  | missing :
    (∀ type n, type ≠ owner → s.Ascends n owner type → ∀ t, ¬ s.Offers member name type t) →
    OverrideOutcome s space member owner name s

variable {s : WorkingSet} {member owner name type target : String}

/-! ### What a type offers -/

/-- The test on members says whether a type offers one. -/
theorem offers_iff :
    s.Offers member name type target ↔ target ∈ s.membersOf type ∧
      (target != member &&
        (s.node? target).any fun n => n.name == name && n.kind.category.isCallable) = true := by
  unfold Offers
  simp only [Bool.and_eq_true, bne_iff_ne, ne_eq, Option.any_eq_true, beq_iff_eq]

/-- A member that is found is offered. -/
theorem offers_of_callableMember? (h : s.callableMember? (· != member) name type = some target) :
    s.Offers member name type target := by
  unfold callableMember? at h
  have hfound := List.find?_some h
  exact offers_iff.mpr ⟨List.mem_of_find?_eq_some h, hfound⟩

/-- If none is found, none is offered. -/
theorem not_offers_of_callableMember? (h : s.callableMember? (· != member) name type = none)
    (target : String) : ¬ s.Offers member name type target := by
  intro hoffers
  obtain ⟨hmem, hfound⟩ := offers_iff.mp hoffers
  exact List.find?_eq_none.mp h target hmem hfound

/-! ### The search -/

/-- What a type answers when the search visits it: the owner offers nothing. -/
def overriddenIn (s : WorkingSet) (member owner name type : String) : Option String :=
  if type = owner then none else s.callableMember? (· != member) name type

/-- What a type answers is offered by it, and it is not the owner. -/
theorem offers_of_overriddenIn (h : s.overriddenIn member owner name type = some target) :
    type ≠ owner ∧ s.Offers member name type target := by
  unfold overriddenIn at h
  split at h
  · cases h
  · next hne => exact ⟨hne, offers_of_callableMember? h⟩

/-- A type without an answer offers nothing, unless it is the owner. -/
theorem not_offers_of_overriddenIn (h : s.overriddenIn member owner name type = none) (hne : type ≠ owner)
    (target : String) : ¬ s.Offers member name type target := by
  unfold overriddenIn at h
  rw [if_neg hne] at h
  exact not_offers_of_callableMember? h target

/-- The supertypes of a type are where the search goes from it. -/
theorem supertypesOf_eq (s : WorkingSet) (type : String) :
    s.supertypesOf type = (Reach.outgoing type s.supertypes.entries).map (·.2) :=
  rfl

/-- **The search for an overridden member is a search from the owner.** -/
theorem overridden?_eq (s : WorkingSet) (member owner name : String) :
    s.overridden? member owner name
      = Reach.nearest? (s.overriddenIn member owner name) s.supertypes.entries [owner] := by
  have howner : s.overriddenIn member owner name owner = none := by
    unfold overriddenIn
    rw [if_pos rfl]
  rw [Reach.nearest?, howner]
  dsimp only
  rw [List.nil_append, ← supertypesOf_eq]
  rfl

theorem nearestOverridden_of_overridden? (h : s.overridden? member owner name = some target) :
    s.NearestOverridden member owner name target := by
  rw [overridden?_eq] at h
  obtain ⟨n, type, hdistance, hfound, hnearer⟩ := Reach.distance_of_nearest? h
  obtain ⟨hne, hoffers⟩ := offers_of_overriddenIn hfound
  refine ⟨type, n, hne, hdistance.1, hoffers, ?_⟩
  intro m hm nearer hne' hascends
  exact not_offers_of_overriddenIn (hnearer m hm nearer hascends) hne'

/-- If the search finds nothing, no ancestor offers anything. -/
theorem not_offers_of_overridden? (h : s.overridden? member owner name = none) {n : Nat}
    (hne : type ≠ owner) (hascends : s.Ascends n owner type) (t : String) :
    ¬ s.Offers member name type t := by
  rw [overridden?_eq] at h
  have hnone : s.overriddenIn member owner name type = none :=
    Reach.eq_none_of_nearest?_eq_none h hascends
  exact not_offers_of_overriddenIn hnone hne t

/-! ### The resolution -/

/-- **An override is resolved to a nearest overridden member.** An id that no node has is related to
nothing. -/
theorem resolveOverride_outcome (s : WorkingSet) (member owner name : String) :
    match s.kind? member with
    | some kind => OverrideOutcome s kind.space member owner name (s.resolveOverride member owner name)
    | none => s.resolveOverride member owner name = s := by
  unfold resolveOverride
  cases s.kind? member with
  | none => rfl
  | some kind =>
    cases h : s.overridden? member owner name with
    | none =>
      refine .missing ?_
      intro type n hne hascends
      exact not_offers_of_overridden? h hne hascends
    | some target =>
      have hnearest := nearestOverridden_of_overridden? h
      dsimp only
      -- The relationship may be there already, and then entering it changes nothing.
      by_cases hkey : (Relationship.between ⟨kind.space, .overriding⟩ member target).key
          ∈ s.relationships.keys
      · have hsame : s.relate (.between ⟨kind.space, .overriding⟩ member target) = s := by
          unfold relate
          rw [Register.insertNew_of_mem hkey]
        rw [hsame]
        exact .present target hnearest hkey
      · exact .added target _ hnearest hkey (Register.entries_insertNew_of_notMem hkey) rfl

end CodeAtlas.WorkingSet
