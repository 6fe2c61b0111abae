import CodeAtlas.Syntax.Tree
import CodeAtlas.Proofs.OutlineSoundness

/-!
# Records that are well scoped

A record lists its declarations one by one, and each says what it belongs to by the nested name of a type. The
record is `WellScoped` if every such name is that of a type of the record, if the type around another one is listed
before it, and if spans and calls are in order.

While a record is being filled there are no calls yet, and what is left is `Scoped`. It holds of the empty record,
and it is kept by each of the three ways of listing a declaration (`Scoped.addType`, `Scoped.addCallable`,
`Scoped.addFields`).
-/

namespace CodeAtlas

/-- A span that does not end before it starts. -/
def Span.Ordered (s : Span) : Prop :=
  s.first ≤ s.last

/-- A span that is made of two lines is in order. -/
theorem Span.ordered_new (first last : Nat) : (Span.new first last).Ordered :=
  Span.first_le_last_new first last

/-- The lines of a node are in order, whatever its rows are. -/
theorem NodeInfo.ordered_span (i : NodeInfo) : i.span.Ordered :=
  Span.ordered_new _ _

/-! ### Calls in order -/

namespace CallSite

/-- Calls are compared by line, and on a line by what is called. -/
theorem precedes_iff (a b : CallSite) :
    a.precedes b = true ↔ a.line < b.line ∨ (a.line = b.line ∧ a.callee ≤ b.callee) := by
  unfold CallSite.precedes
  rw [Bool.or_eq_true, Bool.and_eq_true, Bool.not_eq_true', decide_eq_true_eq, beq_iff_eq,
    decide_eq_false_iff_not, String.not_lt]

/-- The comparison is transitive. -/
theorem precedes_trans (a b c : CallSite) (hab : a.precedes b = true) (hbc : b.precedes c = true) :
    a.precedes c = true := by
  rw [precedes_iff] at hab hbc ⊢
  rcases hab with hab | ⟨hab, hab'⟩
  · left
    omega
  · rcases hbc with hbc | ⟨hbc, hbc'⟩
    · left
      omega
    · exact .inr ⟨hab.trans hbc, String.le_trans hab' hbc'⟩

/-- Of two calls one precedes the other. -/
theorem precedes_total (a b : CallSite) : (a.precedes b || b.precedes a) = true := by
  rw [Bool.or_eq_true, precedes_iff, precedes_iff]
  rcases Nat.lt_trichotomy a.line b.line with hlt | heq | hgt
  · exact .inl (.inl hlt)
  · rcases String.le_total a.callee b.callee with hle | hle
    · exact .inl (.inr ⟨heq, hle⟩)
    · exact .inr (.inr ⟨heq.symm, hle⟩)
  · exact .inr (.inl hgt)

end CallSite

/-! ### Declarations -/

namespace Declarations

/-- **Declarations that belong to listed types.** -/
structure Scoped (d : Declarations) : Prop where
  type_spans : ∀ t ∈ d.types, t.span.Ordered
  callable_spans : ∀ c ∈ d.callables, c.span.Ordered
  field_spans : ∀ f ∈ d.fields, f.span.Ordered
  callable_owners : ∀ c ∈ d.callables, ∀ owner, c.owner = some owner → Lists d.types owner
  field_owners : ∀ f ∈ d.fields, ∀ owner, f.owner = some owner → Lists d.types owner
  /-- What encloses a type is listed before it. -/
  enclosing_before : ∀ earlier t later, d.types = earlier ++ t :: later →
    ∀ outer, t.enclosing = some outer → Lists earlier outer

/-- **Declarations that are well scoped**, with calls in the order in which they are listed: by line, and on a line
by the name of what is called. -/
structure WellScoped (d : Declarations) : Prop extends Scoped d where
  calls_sorted : d.calls.Pairwise fun a b => a.line < b.line ∨ (a.line = b.line ∧ a.callee ≤ b.callee)

theorem scoped_empty : Scoped {} where
  type_spans := fun _ h => by cases h
  callable_spans := fun _ h => by cases h
  field_spans := fun _ h => by cases h
  callable_owners := fun _ h => by cases h
  field_owners := fun _ h => by cases h
  enclosing_before := (sound_empty 0).enclosing_before

namespace Scoped

variable {d : Declarations}

/-- A type whose enclosing type is listed. -/
theorem addType (h : d.Scoped) {t : TypeDecl} (hspan : t.span.Ordered)
    (henclosing : ∀ outer, t.enclosing = some outer → Lists d.types outer) :
    Scoped { d with types := d.types ++ [t] } where
  type_spans := List.forall_mem_append.mpr ⟨h.type_spans, List.forall_mem_singleton.mpr hspan⟩
  callable_spans := h.callable_spans
  field_spans := h.field_spans
  callable_owners := fun c hc owner ho => (h.callable_owners c hc owner ho).append [t]
  field_owners := fun f hf owner ho => (h.field_owners f hf owner ho).append [t]
  enclosing_before := enclosing_before_concat h.enclosing_before henclosing

/-- A callable whose owner is listed. -/
theorem addCallable (h : d.Scoped) {c : CallableDecl} (hspan : c.span.Ordered)
    (howner : ∀ owner, c.owner = some owner → Lists d.types owner) :
    Scoped { d with callables := d.callables ++ [c] } where
  type_spans := h.type_spans
  callable_spans := List.forall_mem_append.mpr ⟨h.callable_spans, List.forall_mem_singleton.mpr hspan⟩
  field_spans := h.field_spans
  callable_owners := List.forall_mem_append.mpr ⟨h.callable_owners, List.forall_mem_singleton.mpr howner⟩
  field_owners := h.field_owners
  enclosing_before := h.enclosing_before

/-- Fields whose owners are listed. -/
theorem addFields (h : d.Scoped) {l : List FieldDecl} (hspan : ∀ f ∈ l, f.span.Ordered)
    (howner : ∀ f ∈ l, ∀ owner, f.owner = some owner → Lists d.types owner) :
    Scoped { d with fields := d.fields ++ l } where
  type_spans := h.type_spans
  callable_spans := h.callable_spans
  field_spans := List.forall_mem_append.mpr ⟨h.field_spans, hspan⟩
  callable_owners := h.callable_owners
  field_owners := List.forall_mem_append.mpr ⟨h.field_owners, howner⟩
  enclosing_before := h.enclosing_before

end Scoped

/-- **A filled record is well scoped** once its imports are added and its calls are sorted. -/
theorem Scoped.wellScoped {d : Declarations} (h : d.Scoped) (imports : List ImportDecl) (calls : List CallSite) :
    WellScoped { d with imports, calls := calls.mergeSort CallSite.precedes } where
  type_spans := h.type_spans
  callable_spans := h.callable_spans
  field_spans := h.field_spans
  callable_owners := h.callable_owners
  field_owners := h.field_owners
  enclosing_before := h.enclosing_before
  calls_sorted := by
    -- The calls are sorted by the comparison, which orders them by their lines first.
    have hsorted : (calls.mergeSort CallSite.precedes).Pairwise fun a b => a.precedes b = true :=
      List.pairwise_mergeSort CallSite.precedes_trans CallSite.precedes_total calls
    exact hsorted.imp fun hab => (CallSite.precedes_iff _ _).mp hab

end Declarations

end CodeAtlas
