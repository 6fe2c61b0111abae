import CodeAtlas.Proofs.SchemaTables
import Mathlib.Data.List.Induction

/-!
# What a sequence of registrations comes to

A schema is built by a sequence of registrations, and the same kind may be registered several times, by
different parts of the program and with different lists. One would like the order not to matter.

For the verdicts it does not (`verdicts_ofRegistrations`). A kind is known if some registration names it, a
property is required if some registration of the kind requires it, and a kind of relationship connects what
some single registration of it connects. So a schema accepts the same nodes and relationships, whatever the
order of its registrations.

For the two lists of properties it does. A registration leaves out of the optional properties what is
required already, but a property that is allowed first and required later stays in the list of what is
allowed (`allowed_then_required`). Beyond this the lists are in order, and `lists_ofRegistrations` says
exactly which properties end up in both: those that are promoted in this way (`Promotes`).

Both rest on what one registration does to the lists of a kind (`Grows`), whether it is about one kind of
nodes, about several or about none.
-/

namespace CodeAtlas

/-! ### Registrations -/

/-- **One registration**: of a kind of node, of several kinds of one namespace alike, or of a kind of
relationship. -/
inductive Registration where
  | node (kind : NodeKind) (required optional : List String)
  | nodes (ns : Namespace) (categories : List Category) (required optional : List String)
  | relationship (kind : RelKind) (sources targets : List NodeKind)
  deriving DecidableEq

namespace Registration

/-- The kinds of nodes that a registration names. -/
def nodeKinds : Registration → List NodeKind
  | node kind _ _ => [kind]
  | nodes ns categories _ _ => Schema.kindsOf ns categories
  | relationship _ _ _ => []

/-- The properties that a registration requires of the kinds that it names, the core properties aside. -/
def required : Registration → List String
  | node _ required _ => required
  | nodes _ _ required _ => required
  | relationship _ _ _ => []

/-- The properties that a registration allows beyond those. -/
def optional : Registration → List String
  | node _ _ optional => optional
  | nodes _ _ _ optional => optional
  | relationship _ _ _ => []

/-- **A registration requires a property of a kind**: it names the kind, and the property is a core property
or one that it lists. -/
def Requires (c : Registration) (k : NodeKind) (p : String) : Prop :=
  k ∈ c.nodeKinds ∧ p ∈ Schema.coreProperties ++ c.required

/-- **A registration allows a property of a kind.** -/
def Allows (c : Registration) (k : NodeKind) (p : String) : Prop :=
  k ∈ c.nodeKinds ∧ p ∈ c.optional

end Registration

namespace Schema

/-- A schema with one more registration. -/
def register (s : Schema) : Registration → Schema
  | .node kind required optional => s.node kind required optional
  | .nodes ns categories required optional => s.nodesOf ns categories required optional
  | .relationship kind sources targets => s.relationship kind sources targets

/-- **The schema of a sequence of registrations.** -/
def ofRegistrations (l : List Registration) : Schema :=
  l.foldl register empty

theorem ofRegistrations_concat (l : List Registration) (c : Registration) :
    ofRegistrations (l ++ [c]) = (ofRegistrations l).register c :=
  List.foldl_append

/-! ### Lists that take in what is new -/

section AddNew

variable {α : Type} [BEq α]

/-- What is new in two lists is taken in one after the other. -/
theorem addNew_append (l new more : List α) : addNew l (new ++ more) = addNew (addNew l new) more :=
  List.foldl_append

/-- What was there stays where it was. -/
theorem prefix_addNew (l new : List α) : l <+: addNew l new := by
  unfold addNew
  induction new generalizing l with
  | nil => exact List.prefix_rfl
  | cons b new ih =>
    rw [List.foldl_cons]
    split
    · exact ih l
    · exact (List.prefix_append l [b]).trans (ih (l ++ [b]))

variable [LawfulBEq α] {l new : List α}

theorem mem_addNew {a : α} : a ∈ addNew l new ↔ a ∈ l ∨ a ∈ new := by
  rw [← List.contains_iff_mem, contains_addNew, Bool.or_eq_true, List.contains_iff_mem,
    List.contains_iff_mem]

/-- Nothing is repeated. -/
theorem nodup_addNew (h : l.Nodup) (new : List α) : (addNew l new).Nodup := by
  unfold addNew
  -- Along the new members: one that is there already is passed over.
  induction new generalizing l with
  | nil => exact h
  | cons b new ih =>
    rw [List.foldl_cons]
    split
    · exact ih h
    next hb =>
      refine ih (List.nodup_append.2 ⟨h, List.nodup_singleton b, ?_⟩)
      rintro x hx y hy rfl
      exact hb (List.contains_iff_mem.2 (List.mem_singleton.1 hy ▸ hx))

end AddNew

/-! ### One registration -/

/-- **What a registration does to the lists of each kind.** The kinds that it names are known from then on,
and they require what it requires. They allow what it allows, unless they require it. -/
structure Grows (s t : Schema) (kinds : List NodeKind) (required optional : List String) : Prop where
  isRegistered (k : NodeKind) : t.isRegistered k = true ↔ s.isRegistered k = true ∨ k ∈ kinds
  mem_requiredOf (k : NodeKind) (p : String) :
    p ∈ t.requiredOf k ↔ p ∈ s.requiredOf k ∨ k ∈ kinds ∧ p ∈ coreProperties ++ required
  mem_optionalOf (k : NodeKind) (p : String) :
    p ∈ t.optionalOf k ↔ p ∈ s.optionalOf k ∨ k ∈ kinds ∧ p ∈ optional ∧ p ∉ t.requiredOf k

variable {s t u : Schema} {required optional : List String}

/-- A registration of one kind changes the lists of that kind only. -/
theorem spec?_node (s : Schema) (kind : NodeKind) (required optional : List String) (k : NodeKind) :
    (s.node kind required optional).spec? k =
      if k = kind then some (NodeSpec.extend ((s.spec? kind).getD ⟨[], []⟩) required optional)
      else s.spec? k :=
  lookup_adjust kind k _ _ _

/-- Where no kind of node is named, nothing changes. -/
theorem Grows.of_nodes_eq (h : t.nodes = s.nodes) (required optional : List String) :
    Grows s t [] required optional where
  isRegistered k := by simp [Schema.isRegistered, spec?, h]
  mem_requiredOf k p := by simp [requiredOf, spec?, h]
  mem_optionalOf k p := by simp [optionalOf, spec?, h]

/-- What a registration of one kind does. -/
theorem grows_node (s : Schema) (kind : NodeKind) (required optional : List String) :
    Grows s (s.node kind required optional) [kind] required optional where
  isRegistered k := by
    unfold Schema.isRegistered
    rw [spec?_node]
    by_cases h : k = kind <;> simp [h]
  mem_requiredOf k p := by
    unfold requiredOf
    rw [spec?_node]
    -- Only the entry of the kind itself is written again, with the new properties behind the old ones.
    by_cases h : k = kind
    · subst h
      rw [if_pos rfl]
      cases s.spec? k <;> simp [NodeSpec.extend, mem_addNew]
    · simp [h]
  mem_optionalOf k p := by
    unfold optionalOf requiredOf
    rw [spec?_node]
    by_cases h : k = kind
    · subst h
      rw [if_pos rfl]
      cases s.spec? k <;> simp [NodeSpec.extend, mem_addNew]
    · simp [h]

/-- Two registrations with the same lists are one of the kinds of both. -/
theorem Grows.trans {kinds more : List NodeKind} (h : Grows s t kinds required optional)
    (h' : Grows t u more required optional) : Grows s u (kinds ++ more) required optional where
  isRegistered k := by
    rw [h'.isRegistered, h.isRegistered, List.mem_append, or_assoc]
  mem_requiredOf k p := by
    have hkinds : k ∈ kinds ++ more ↔ k ∈ kinds ∨ k ∈ more := List.mem_append
    rw [h'.mem_requiredOf, h.mem_requiredOf, hkinds, or_and_right, or_assoc]
  mem_optionalOf k p := by
    have hreq := h.mem_requiredOf k p
    have hreq' := h'.mem_requiredOf k p
    rw [h'.mem_optionalOf, h.mem_optionalOf, List.mem_append]
    -- A kind that the first one names requires all of the lists already.
    by_cases hk : k ∈ kinds
    · have hsame : p ∈ u.requiredOf k ↔ p ∈ t.requiredOf k := by
        rw [hreq', or_iff_left_of_imp]
        exact fun hmore => hreq.2 (.inr ⟨hk, hmore.2⟩)
      rw [hsame]
      tauto
    · simp [hk]

theorem grows_nodesOf (s : Schema) (ns : Namespace) (categories : List Category)
    (required optional : List String) :
    Grows s (s.nodesOf ns categories required optional) (kindsOf ns categories) required optional := by
  unfold nodesOf
  induction categories generalizing s with
  | nil => exact .of_nodes_eq rfl _ _
  | cons c categories ih => exact (grows_node s ⟨ns, c⟩ required optional).trans (ih _)

/-- **What one registration does**, whatever it is of. -/
theorem grows_register (s : Schema) (c : Registration) :
    Grows s (s.register c) c.nodeKinds c.required c.optional := by
  cases c with
  | node kind required optional => exact grows_node s kind required optional
  | nodes ns categories required optional => exact grows_nodesOf s ns categories required optional
  | relationship kind sources targets =>
    exact .of_nodes_eq (s := s) (t := s.relationship kind sources targets) rfl _ _

/-! ### Sequences of registrations -/

variable {l : List Registration} {k : NodeKind} {p : String}

/-- A kind is known if some registration names it. -/
theorem isRegistered_ofRegistrations :
    (ofRegistrations l).isRegistered k = true ↔ ∃ c ∈ l, k ∈ c.nodeKinds := by
  induction l using List.reverseRecOn with
  | nil => simp [ofRegistrations, isRegistered, spec?, empty]
  | append_singleton l c ih =>
    rw [ofRegistrations_concat, (grows_register _ c).isRegistered, ih]
    simp [or_and_right, exists_or]

/-- **A property is required if some registration of the kind requires it.** -/
theorem mem_requiredOf_ofRegistrations :
    p ∈ (ofRegistrations l).requiredOf k ↔ ∃ c ∈ l, c.Requires k p := by
  induction l using List.reverseRecOn with
  | nil => simp [ofRegistrations, requiredOf, spec?, empty]
  | append_singleton l c ih =>
    rw [ofRegistrations_concat, (grows_register _ c).mem_requiredOf, ih]
    simp [or_and_right, exists_or, Registration.Requires]

/-- **A property is optional if some registration of the kind allows it** when none requires it yet. -/
theorem mem_optionalOf_ofRegistrations :
    p ∈ (ofRegistrations l).optionalOf k ↔ ∃ before c after, l = before ++ c :: after ∧ c.Allows k p ∧
      ∀ b ∈ before ++ [c], ¬b.Requires k p := by
  -- From the end of the sequence, since a property that is required by then is not added.
  induction l using List.reverseRecOn with
  | nil => simp [ofRegistrations, optionalOf, spec?, empty]
  | append_singleton l c ih =>
    have hrequired : p ∉ ((ofRegistrations l).register c).requiredOf k ↔
        ∀ b ∈ l ++ [c], ¬b.Requires k p := by
      rw [← ofRegistrations_concat, mem_requiredOf_ofRegistrations]
      simp only [not_exists, not_and]
    rw [ofRegistrations_concat, (grows_register _ c).mem_optionalOf, ih, hrequired]
    -- The registration that allows the property is the last one, or it stands among those before.
    constructor
    · rintro (⟨before, d, after, rfl, hallows, hnot⟩ | ⟨hk, hp, hnot⟩)
      · exact ⟨before, d, after ++ [c], by simp, hallows, hnot⟩
      · exact ⟨l, c, [], rfl, ⟨hk, hp⟩, hnot⟩
    · rintro ⟨before, d, after, hl, hallows, hnot⟩
      rcases List.eq_nil_or_concat after with rfl | ⟨after, e, rfl⟩
      · obtain ⟨rfl, hd⟩ := List.append_inj' hl rfl
        obtain rfl := List.singleton_inj.1 hd
        exact .inr ⟨hallows.1, hallows.2, hnot⟩
      · rw [List.concat_eq_append, ← List.cons_append, ← List.append_assoc] at hl
        exact .inl ⟨before, d, after, (List.append_inj' hl rfl).1, hallows, hnot⟩

/-! ### Verdicts -/

/-- Registering nodes changes no relationship. -/
theorem relationships_nodesOf (ns : Namespace) (categories : List Category)
    (required optional : List String) :
    (s.nodesOf ns categories required optional).relationships = s.relationships := by
  unfold nodesOf
  induction categories generalizing s with
  | nil => rfl
  | cons c categories ih => exact ih

variable {kind : RelKind} {a b : NodeKind}

/-- A kind of relationship is known from its registration on. -/
theorem hasRelationship_register (s : Schema) (c : Registration) :
    (s.register c).hasRelationship kind = true ↔
      s.hasRelationship kind = true ∨ ∃ sources targets, c = .relationship kind sources targets := by
  -- Registrations of nodes leave the relationships alone.
  cases c with
  | node k required optional => simp [register, hasRelationship, node]
  | nodes ns categories required optional => simp [register, hasRelationship, relationships_nodesOf]
  | relationship k sources targets =>
    unfold hasRelationship register relationship
    rw [lookup_adjust]
    by_cases h : kind = k
    · simp [h]
    · simp [h, Ne.symm h]

/-- It connects what the registration lists. -/
theorem connects_register (s : Schema) (c : Registration) :
    (s.register c).connects kind a b = true ↔ s.connects kind a b = true ∨
      ∃ sources targets, c = .relationship kind sources targets ∧ a ∈ sources ∧ b ∈ targets := by
  -- Only a registration of the same kind of relationship adds pairs, and it takes none away.
  cases c with
  | node k required optional => simp [register, connects_node]
  | nodes ns categories required optional => simp [register, connects_nodesOf]
  | relationship k sources targets =>
    unfold register
    rw [connects_relationship]
    by_cases h : kind = k
    · simp [h]
    · simp [h, Ne.symm h]

/-- **A kind of relationship is known if some registration is of it**, even one that connects nothing. -/
theorem hasRelationship_ofRegistrations :
    (ofRegistrations l).hasRelationship kind = true ↔
      ∃ sources targets, .relationship kind sources targets ∈ l := by
  induction l using List.reverseRecOn with
  | nil => simp [ofRegistrations, hasRelationship, empty]
  | append_singleton l c ih =>
    rw [ofRegistrations_concat, hasRelationship_register, ih]
    simp [exists_or, eq_comm]

/-- **A kind of relationship connects what some single registration of it connects.** -/
theorem connects_ofRegistrations :
    (ofRegistrations l).connects kind a b = true ↔
      ∃ sources targets, .relationship kind sources targets ∈ l ∧ a ∈ sources ∧ b ∈ targets := by
  induction l using List.reverseRecOn with
  | nil => simp [ofRegistrations, connects_empty]
  | append_singleton l c ih =>
    rw [ofRegistrations_concat, connects_register, ih]
    simp [exists_or, or_and_right, eq_comm]

/-- The verdict on a relationship in terms of what is known and what is connected. -/
theorem checkRelationship_eq (s : Schema) (r : Relationship) (source target : NodeKind) :
    s.checkRelationship r source target =
      if s.hasRelationship r.kind then
        if s.connects r.kind source target then .ok ()
        else .error (.invalidPair r.kind.label source.label target.label)
      else .error (.unknownRelationship r.kind.label) := by
  unfold checkRelationship hasRelationship connects
  cases s.relationships.lookup r.kind with
  | none => simp
  | some pairs => simp

/-- **A node is accepted if its kind is named and the node shows all that is required of it.** What it shows
has to be neither blank nor the text of an empty list. -/
theorem checkNode_ofRegistrations {n : Node} :
    (ofRegistrations l).checkNode n = .ok () ↔
      (∃ c ∈ l, n.kind ∈ c.nodeKinds) ∧
        ∀ p, (p ∈ coreProperties ∨ ∃ c ∈ l, n.kind ∈ c.nodeKinds ∧ p ∈ c.required) →
          ∃ v ∈ n.fieldText? p, Text.isBlankString v = false ∧ v ≠ "[]" := by
  rw [checkNode_eq_ok_iff, isRegistered_ofRegistrations]
  refine and_congr_right fun ⟨c, hc, hk⟩ => forall_congr' fun p => imp_congr ?_ isPresent_iff
  rw [mem_requiredOf_ofRegistrations]
  simp only [Registration.Requires, List.mem_append]
  constructor
  · rintro ⟨d, hd, hkd, hcore | hp⟩
    · exact .inl hcore
    · exact .inr ⟨d, hd, hkd, hp⟩
  · -- The core properties come with any registration that names the kind, and there is one.
    rintro (hcore | ⟨d, hd, hkd, hp⟩)
    · exact ⟨c, hc, hk, .inl hcore⟩
    · exact ⟨d, hd, hkd, .inr hp⟩

/-- A kind of relationship is called unknown exactly if nothing registers it. -/
theorem checkRelationship_eq_unknown_iff {r : Relationship} {source target : NodeKind} :
    s.checkRelationship r source target = .error (.unknownRelationship r.kind.label) ↔
      ¬s.hasRelationship r.kind = true := by
  rw [checkRelationship_eq]
  split
  next h => split <;> simp [h]
  next h => simp [h]

/-- **The order of the registrations makes no difference to a relationship**, not even to the reason for which
it is refused. -/
theorem checkRelationship_of_perm {l l' : List Registration} (h : l.Perm l') (r : Relationship)
    (source target : NodeKind) :
    (ofRegistrations l).checkRelationship r source target =
      (ofRegistrations l').checkRelationship r source target := by
  have hknown : (ofRegistrations l).hasRelationship r.kind = (ofRegistrations l').hasRelationship r.kind := by
    rw [Bool.eq_iff_iff, hasRelationship_ofRegistrations, hasRelationship_ofRegistrations]
    simp only [h.mem_iff]
  have hconnects : (ofRegistrations l).connects r.kind source target =
      (ofRegistrations l').connects r.kind source target := by
    rw [Bool.eq_iff_iff, connects_ofRegistrations, connects_ofRegistrations]
    simp only [h.mem_iff]
  -- The verdict asks the schema two questions, and both have the same answers.
  rw [checkRelationship_eq, checkRelationship_eq, hknown, hconnects]

/-- **The verdicts of a schema are those of its registrations together.** A node is accepted if some
registration names its kind and the node shows a text, neither blank nor that of an empty list, for every
core property and for all that any registration of the kind requires. A relationship is accepted if some
registration of its kind lists both ends, and its kind is unknown if there is no registration of it. So
the order of the registrations makes no difference to what is accepted. -/
theorem verdicts_ofRegistrations (l : List Registration) :
    (∀ n, (ofRegistrations l).checkNode n = .ok () ↔
      (∃ c ∈ l, n.kind ∈ c.nodeKinds) ∧
        ∀ p, (p ∈ coreProperties ∨ ∃ c ∈ l, n.kind ∈ c.nodeKinds ∧ p ∈ c.required) →
          ∃ v ∈ n.fieldText? p, Text.isBlankString v = false ∧ v ≠ "[]") ∧
    (∀ r source target, (ofRegistrations l).checkRelationship r source target = .ok () ↔
      ∃ sources targets, .relationship r.kind sources targets ∈ l ∧ source ∈ sources ∧ target ∈ targets) ∧
    (∀ r source target, (ofRegistrations l).checkRelationship r source target =
        .error (.unknownRelationship r.kind.label) ↔
      ¬∃ sources targets, .relationship r.kind sources targets ∈ l) ∧
    ∀ l', l.Perm l' →
      (∀ n, (ofRegistrations l).checkNode n = .ok () ↔ (ofRegistrations l').checkNode n = .ok ()) ∧
      ∀ r source target, (ofRegistrations l).checkRelationship r source target =
        (ofRegistrations l').checkRelationship r source target := by
  refine ⟨fun n => checkNode_ofRegistrations, fun r source target => ?_, fun r source target => ?_,
    fun l' hl => ⟨fun n => ?_, checkRelationship_of_perm hl⟩⟩
  · rw [checkRelationship_eq_ok_iff, connects_ofRegistrations]
  · rw [checkRelationship_eq_unknown_iff, hasRelationship_ofRegistrations]
  · -- The accepted nodes are told by what is among the registrations, not by where it stands.
    rw [checkNode_ofRegistrations, checkNode_ofRegistrations]
    simp only [hl.mem_iff]

/-- Two orders of the same registrations: a node that lacks two properties is refused for another one of
them, but it is refused by both. -/
theorem verdicts_ofRegistrations_reverse :
    let kind : NodeKind := ⟨.java, .plainClass⟩
    let l : List Registration := [.node kind ["doc"] [], .relationship .calls [kind] [kind],
      .nodes .java [.plainClass, .interface] ["owner"] ["doc"], .relationship .calls [] [kind]]
    let n := Node.withId "a" kind "A" "A" "A.java" (some 1)
    let r := Relationship.between .calls "a" "a"
    (ofRegistrations l).checkNode n = .error (.missingProperty "JavaClass" "a" "doc") ∧
      (ofRegistrations l.reverse).checkNode n = .error (.missingProperty "JavaClass" "a" "owner") ∧
      l.Perm l.reverse ∧
      ((ofRegistrations l).checkNode n = .ok () ↔ (ofRegistrations l.reverse).checkNode n = .ok ()) ∧
      (ofRegistrations l).checkRelationship r kind kind
        = (ofRegistrations l.reverse).checkRelationship r kind kind := by
  intro kind l n r
  have hperm : l.Perm l.reverse := (List.reverse_perm l).symm
  obtain ⟨-, -, -, hsame⟩ := verdicts_ofRegistrations l
  exact ⟨by decide +kernel, by decide +kernel, hperm, (hsame _ hperm).1 n, (hsame _ hperm).2 r kind kind⟩

/-! ### Lists of properties -/

/-- **The lists of a specification are in order**, each by itself. -/
structure OrderlyLists (spec : NodeSpec) : Prop where
  core_first : coreProperties <+: spec.required
  required_nodup : spec.required.Nodup
  optional_nodup : spec.optional.Nodup

/-- A registration keeps the lists of a kind in order, and the first one puts them so. -/
theorem orderlyLists_extend {spec : NodeSpec} (h : spec = ⟨[], []⟩ ∨ OrderlyLists spec)
    (required optional : List String) : OrderlyLists (NodeSpec.extend spec required optional) where
  core_first := by
    rcases h with rfl | h
    · -- The first registration of a kind starts with the core properties, all of them new.
      have hcore : addNew [] coreProperties = coreProperties := by decide
      unfold NodeSpec.extend
      dsimp only
      rw [addNew_append, hcore]
      exact prefix_addNew coreProperties required
    · exact h.core_first.trans (prefix_addNew _ _)
  required_nodup := by
    refine nodup_addNew ?_ _
    rcases h with rfl | h
    · exact List.nodup_nil
    · exact h.required_nodup
  optional_nodup := by
    refine nodup_addNew ?_ _
    rcases h with rfl | h
    · exact List.nodup_nil
    · exact h.optional_nodup

/-- The lists of every kind are in order. -/
def Orderly (s : Schema) : Prop :=
  ∀ k spec, s.spec? k = some spec → OrderlyLists spec

/-- A registration of one kind keeps all lists in order. -/
theorem Orderly.node (h : s.Orderly) (kind : NodeKind) (required optional : List String) :
    (s.node kind required optional).Orderly := by
  intro k spec hspec
  rw [spec?_node] at hspec
  split at hspec
  · obtain rfl := Option.some.inj hspec
    refine orderlyLists_extend ?_ required optional
    cases hold : s.spec? kind with
    | none => exact .inl rfl
    | some old => exact .inr (h kind old hold)
  · exact h k spec hspec

/-- So does any registration. -/
theorem Orderly.register (h : s.Orderly) (c : Registration) : (s.register c).Orderly := by
  cases c with
  | node kind required optional => exact h.node kind required optional
  | nodes ns categories required optional =>
    unfold Schema.register nodesOf
    induction categories generalizing s with
    | nil => exact h
    | cons c categories ih => exact ih (h.node ⟨ns, c⟩ required optional)
  | relationship kind sources targets => exact h

/-- So the lists are in order after any sequence of registrations. -/
theorem orderly_ofRegistrations (l : List Registration) : (ofRegistrations l).Orderly := by
  induction l using List.reverseRecOn with
  | nil => exact fun k spec hspec => nomatch hspec
  | append_singleton l c ih =>
    rw [ofRegistrations_concat]
    exact ih.register c

/-- **A property is promoted**: a registration of the kind allows it when none requires it yet, and a later
one requires it. -/
def Promotes (l : List Registration) (k : NodeKind) (p : String) : Prop :=
  ∃ before c after, l = before ++ c :: after ∧ c.Allows k p ∧
    (∀ b ∈ before ++ [c], ¬b.Requires k p) ∧ ∃ b ∈ after, b.Requires k p

/-- **The properties in both lists are those that are promoted.** -/
theorem mem_both_iff_promotes :
    p ∈ (ofRegistrations l).requiredOf k ∧ p ∈ (ofRegistrations l).optionalOf k ↔ Promotes l k p := by
  rw [mem_requiredOf_ofRegistrations, mem_optionalOf_ofRegistrations]
  constructor
  · -- What requires the property cannot stand before the registration that allowed it.
    rintro ⟨⟨d, hd, hrequires⟩, before, c, after, rfl, hallows, hnot⟩
    refine ⟨before, c, after, rfl, hallows, hnot, d, ?_, hrequires⟩
    by_contra hafter
    refine hnot d ?_ hrequires
    simpa [hafter] using hd
  · rintro ⟨before, c, after, rfl, hallows, hnot, d, hd, hrequires⟩
    exact ⟨⟨d, by simp [hd], hrequires⟩, before, c, after, rfl, hallows, hnot⟩

/-- **The lists of a kind behind any sequence of registrations.** What is required starts with the core
properties, and no list holds a property twice. The two lists have in common what is promoted, so they are
disjoint if and only if no registration requires what an earlier one has put among the optional properties. -/
theorem lists_ofRegistrations (l : List Registration) (k : NodeKind)
    (hk : (ofRegistrations l).isRegistered k = true) :
    coreProperties <+: (ofRegistrations l).requiredOf k ∧
      ((ofRegistrations l).requiredOf k).Nodup ∧ ((ofRegistrations l).optionalOf k).Nodup ∧
      (∀ p, p ∈ (ofRegistrations l).requiredOf k ∧ p ∈ (ofRegistrations l).optionalOf k ↔ Promotes l k p) ∧
      (((ofRegistrations l).requiredOf k).Disjoint ((ofRegistrations l).optionalOf k) ↔
        ∀ p, ¬Promotes l k p) := by
  obtain ⟨spec, hspec⟩ := Option.isSome_iff_exists.1 hk
  have horderly := orderly_ofRegistrations l k spec hspec
  have hrequired : (ofRegistrations l).requiredOf k = spec.required := by simp [requiredOf, hspec]
  have hoptional : (ofRegistrations l).optionalOf k = spec.optional := by simp [optionalOf, hspec]
  -- The lists of the kind are those of its specification.
  refine ⟨?_, ?_, ?_, fun p => mem_both_iff_promotes, ?_⟩
  · rw [hrequired]
    exact horderly.core_first
  · rw [hrequired]
    exact horderly.required_nodup
  · rw [hoptional]
    exact horderly.optional_nodup
  · simp only [← mem_both_iff_promotes, not_and]
    rfl

/-- Three registrations of a kind, of which the last one requires what the first one allows. -/
theorem lists_ofRegistrations_promoted :
    let kind : NodeKind := ⟨.java, .plainClass⟩
    let l : List Registration := [.nodes .java [.plainClass, .enum] ["owner"] ["doc", "name", "doc"],
      .node kind [] ["type", "owner"], .node kind ["doc", "line_number"] ["doc"]]
    (ofRegistrations l).isRegistered kind = true ∧
      coreProperties <+: (ofRegistrations l).requiredOf kind ∧
      ((ofRegistrations l).requiredOf kind).Nodup ∧ ((ofRegistrations l).optionalOf kind).Nodup ∧
      Promotes l kind "doc" ∧
      ¬((ofRegistrations l).requiredOf kind).Disjoint ((ofRegistrations l).optionalOf kind) := by
  intro kind l
  have hk : (ofRegistrations l).isRegistered kind = true := by decide +kernel
  obtain ⟨hcore, hrequired, hoptional, hboth, hdisjoint⟩ := lists_ofRegistrations l kind hk
  -- That both lists hold the property is evaluated, and the general statement says why they do.
  have hdoc : Promotes l kind "doc" := (hboth "doc").1 (by decide +kernel)
  exact ⟨hk, hcore, hrequired, hoptional, hdoc, fun h => hdisjoint.1 h "doc" hdoc⟩

/-- **A property that is allowed first and required later** stands in both lists. -/
theorem allowed_then_required :
    let kind : NodeKind := ⟨.java, .plainClass⟩
    let s := ofRegistrations [.node kind [] ["doc"], .node kind ["doc"] []]
    s.requiredOf kind = ["name", "file_path", "line_number", "doc"] ∧ s.optionalOf kind = ["doc"] := by
  decide +kernel

end Schema

end CodeAtlas
