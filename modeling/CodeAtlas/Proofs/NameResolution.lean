import Mathlib.Data.List.TakeWhile
import CodeAtlas.Proofs.Change

/-!
# What names refer to

`WorkingSet.resolve` works on ids: it filters lists of ids by the kinds of their nodes and looks the
origins of ids up again. Here the same rule is read on declarations (`referent?`, `resolve_eq`), where ids
do not get in the way, and then in the order of preference that it stands for.

A dotted name first refers to the first declaration with exactly that qualified name. If there is none,
**its qualifier no longer counts**: the last segment alone decides, as for a simple name, and the answer
is the only declaration of that name, the first one in the file that asks, or the only one in its scope.
`resolve_eq_some_iff_of_dotted` states this in full, both ways. So a name that several declarations
outside the asking file share stays open unless one of them is alone in the scope, but a dotted reference
may lead to a declaration of a quite different qualified name (`exists_resolve_other_qualifier`).
-/

namespace CodeAtlas.WorkingSet

/-! ### Resolution on declarations -/

section Referent

variable (s : WorkingSet) (name : String) (origin : Origin) (accept : NodeKind → Bool)

/-- Whether the kind of a declaration is accepted. -/
def accepts (d : Declaration) : Bool :=
  (s.kind? d.id).any accept

/-- The first declaration with a qualified name whose kind is accepted. -/
def qualified? : Option Declaration :=
  s.declarations.entries.find? fun d => d.qualifiedName == name && s.accepts accept d

/-- The declarations of a simple name whose kinds are accepted. -/
def candidates (simple : String) : List Declaration :=
  s.declarations.entries.filter fun d => d.simpleName == simple && s.accepts accept d

/-- The first of several declarations in the same file, or the only one in the same scope. -/
def nearest? (l : List Declaration) : Option Declaration :=
  match l.find? fun d => d.origin.file == origin.file with
  | some d => some d
  | none =>
    if origin.scope.isSome then
      match l.filter fun d => d.origin.scope == origin.scope with
      | [d] => some d
      | _ => none
    else none

/-- The choice among the declarations of a simple name. -/
def choice? : List Declaration → Option Declaration
  | [] => none
  | [d] => some d
  | l => nearest? origin l

/-- **The declaration that a name refers to**, seen from a place. -/
def referent? : Option Declaration :=
  match if name.toList.contains '.' then s.qualified? name accept else none with
  | some d => some d
  | none => choice? origin (s.candidates accept (simpleName name))

end Referent

variable {s : WorkingSet} {name : String} {origin : Origin} {accept : NodeKind → Bool}

/-- The accepted ids among those of some declarations. -/
theorem accepted_declared (p : Declaration → Bool) :
    s.accepted accept (s.declared p)
      = (s.declarations.entries.filter fun d => p d && s.accepts accept d).map (·.id) := by
  unfold accepted declared
  rw [List.filter_map, List.filter_filter]
  congr 1
  refine List.filter_congr fun d _ => ?_
  rw [Bool.and_comm]
  rfl

/-- The origin of the id of a declaration is the origin of the declaration. -/
theorem origin?_of_mem {d : Declaration} (h : d ∈ s.declarations.entries) :
    s.origin? d.id = some d.origin := by
  unfold origin?
  rw [Register.get?_eq_some_iff.2 ⟨h, rfl⟩]
  rfl

/-- The choice among ids is the choice among their declarations. -/
theorem choose_map {l : List Declaration} (h : ∀ d ∈ l, d ∈ s.declarations.entries) :
    s.choose origin (l.map (·.id)) = (nearest? origin l).map (·.id) := by
  -- A condition on the origins of ids is one on the declarations.
  have horigin : ∀ q : Origin → Bool, ∀ d ∈ l, ((fun id => (s.origin? id).any q) ∘ (·.id)) d
      = q d.origin := by
    intro q d hd
    change (s.origin? d.id).any q = _
    rw [origin?_of_mem (h d hd)]
    rfl
  unfold choose nearest?
  rw [List.find?_map, List.filter_map,
    List.filter_congr (horigin fun o => o.scope == origin.scope)]
  have hfind : l.find? ((fun id => (s.origin? id).any fun o => o.file == origin.file) ∘ (·.id))
      = l.find? fun d => d.origin.file == origin.file := by
    rw [← List.head?_filter, ← List.head?_filter,
      List.filter_congr (horigin fun o => o.file == origin.file)]
  rw [hfind]
  -- A declaration of the same file is nearest; else a single one of the scope is, if there is a scope.
  cases l.find? fun d => d.origin.file == origin.file with
  | some d => rfl
  | none =>
    cases origin.scope.isSome with
    | false => rfl
    | true =>
      generalize (l.filter fun d => d.origin.scope == origin.scope) = m
      match m with
      | [] => rfl
      | [d] => rfl
      | d :: e :: r => rfl

/-- **Resolution is resolution on declarations.** -/
theorem resolve_eq :
    s.resolve name origin accept = (s.referent? name origin accept).map (·.id) := by
  unfold resolve referent? byQualifiedName bySimpleName
  rw [accepted_declared, accepted_declared, List.head?_map, List.head?_filter]
  -- A qualified name is looked up only if the name has a dot; both sides agree on that.
  have hqualified : (if name.toList.contains '.' then
        (s.qualified? name accept).map (·.id) else none)
      = (if name.toList.contains '.' then s.qualified? name accept else none).map (·.id) := by
    split <;> rfl
  unfold qualified? at hqualified ⊢
  dsimp only
  rw [hqualified]
  cases (if name.toList.contains '.' then
      s.declarations.entries.find? fun d => d.qualifiedName == name && s.accepts accept d
    else none) with
  | some d => rfl
  | none =>
    have hmem : ∀ d ∈ s.candidates accept (simpleName name), d ∈ s.declarations.entries :=
      fun d hd => List.mem_of_mem_filter hd
    unfold candidates at hmem ⊢
    generalize (s.declarations.entries.filter fun d =>
      d.simpleName == simpleName name && s.accepts accept d) = l at hmem ⊢
    -- None, a single one, or a choice among several.
    rcases l with _ | ⟨d, _ | ⟨e, r⟩⟩
    · rfl
    · rfl
    · exact choose_map hmem

/-- A candidate is an accepted declaration of the simple name. -/
theorem mem_candidates {simple : String} {d : Declaration} :
    d ∈ s.candidates accept simple
      ↔ d ∈ s.declarations.entries ∧ d.simpleName = simple ∧ s.accepts accept d = true := by
  unfold candidates
  rw [List.mem_filter, Bool.and_eq_true, beq_iff_eq]

/-- The nearest one is one of the list. -/
theorem mem_of_nearest? {l : List Declaration} {d : Declaration} (h : nearest? origin l = some d) :
    d ∈ l := by
  unfold nearest? at h
  -- Both ways to choose take a member of the list.
  cases hf : l.find? fun d => d.origin.file == origin.file with
  | some e =>
    rw [hf] at h
    obtain rfl := Option.some.inj h
    exact List.mem_of_find?_eq_some hf
  | none =>
    rw [hf] at h
    dsimp only at h
    split at h
    · split at h
      · rename_i e he
        obtain rfl := Option.some.inj h
        exact List.mem_of_mem_filter (he ▸ List.mem_cons_self)
      · cases h
    · cases h

theorem mem_of_choice? {l : List Declaration} {d : Declaration} (h : choice? origin l = some d) :
    d ∈ l := by
  match l with
  | [] => cases h
  | [e] => exact Option.some.inj h ▸ List.mem_cons_self
  | a :: b :: r => exact mem_of_nearest? h

/-- **What a name refers to is a declaration of an accepted kind.** -/
theorem mem_of_referent? {d : Declaration} (h : s.referent? name origin accept = some d) :
    d ∈ s.declarations.entries ∧ s.accepts accept d = true := by
  unfold referent? at h
  split at h
  · rename_i e he
    obtain rfl := Option.some.inj h
    -- The exact match is asked for the accepted kinds as well.
    split at he
    · refine ⟨List.mem_of_find?_eq_some he, ?_⟩
      have := List.find?_some he
      rw [Bool.and_eq_true] at this
      exact this.2
    · cases he
  · have := mem_candidates.1 (mem_of_choice? h)
    exact ⟨this.1, this.2.2⟩

/-- **What a name resolves to is a node of an accepted kind.** -/
theorem kind?_of_resolve {id : String} (h : s.resolve name origin accept = some id) :
    ∃ k, s.kind? id = some k ∧ accept k = true := by
  rw [resolve_eq] at h
  obtain ⟨d, hd, rfl⟩ := Option.map_eq_some_iff.1 h
  have ha := (mem_of_referent? hd).2
  unfold accepts at ha
  -- A declaration without a node is never accepted.
  cases hk : s.kind? d.id with
  | none =>
    rw [hk] at ha
    cases ha
  | some k =>
    rw [hk] at ha
    exact ⟨k, rfl, ha⟩

/-! ### The order of preference -/

/-- The first declaration that satisfies a condition. -/
def IsFirst (s : WorkingSet) (p : Declaration → Prop) (d : Declaration) : Prop :=
  ∃ l r, s.declarations.entries = l ++ d :: r ∧ p d ∧ ∀ e ∈ l, ¬ p e

/-- The only declaration that satisfies a condition. -/
def IsOnly (s : WorkingSet) (p : Declaration → Prop) (d : Declaration) : Prop :=
  d ∈ s.declarations.entries ∧ p d ∧ ∀ e ∈ s.declarations.entries, p e → e = d

/-- A declaration of an accepted kind with a qualified name. -/
def IsExactly (s : WorkingSet) (accept : NodeKind → Bool) (name : String) (d : Declaration) : Prop :=
  d.qualifiedName = name ∧ s.accepts accept d = true

/-- A declaration of an accepted kind with a simple name. -/
def IsNamed (s : WorkingSet) (accept : NodeKind → Bool) (simple : String) (d : Declaration) : Prop :=
  d.simpleName = simple ∧ s.accepts accept d = true

instance (name : String) : DecidablePred (s.IsExactly accept name) := fun d =>
  inferInstanceAs (Decidable (d.qualifiedName = name ∧ s.accepts accept d = true))

instance (simple : String) : DecidablePred (s.IsNamed accept simple) := fun d =>
  inferInstanceAs (Decidable (d.simpleName = simple ∧ s.accepts accept d = true))

/-- A search through all declarations finds the first one. -/
theorem find?_eq_some_iff_isFirst {q : Declaration → Bool} {p : Declaration → Prop}
    (h : ∀ d, q d = true ↔ p d) {d : Declaration} :
    s.declarations.entries.find? q = some d ↔ s.IsFirst p d := by
  rw [List.find?_eq_some_iff_append]
  constructor
  · rintro ⟨hd, l, r, he, hl⟩
    exact ⟨l, r, he, (h d).1 hd, fun e hm hp => by simpa [(h e).2 hp] using hl e hm⟩
  · rintro ⟨l, r, he, hd, hl⟩
    exact ⟨(h d).2 hd, l, r, he, fun e hm => by simpa using fun hq => hl e hm ((h e).1 hq)⟩

/-- A part of the declarations is a single one exactly if that is the only one of its kind. -/
theorem filter_eq_singleton_iff {q : Declaration → Bool} {p : Declaration → Prop}
    (h : ∀ d, q d = true ↔ p d) {d : Declaration} :
    s.declarations.entries.filter q = [d] ↔ s.IsOnly p d := by
  have hmem : ∀ e, e ∈ s.declarations.entries.filter q ↔ e ∈ s.declarations.entries ∧ p e := by
    intro e
    rw [List.mem_filter, h]
  constructor
  · intro hf
    rw [hf] at hmem
    have hd := (hmem d).1 List.mem_cons_self
    exact ⟨hd.1, hd.2, fun e he hp => List.mem_singleton.1 ((hmem e).2 ⟨he, hp⟩)⟩
  · rintro ⟨hd, hp, honly⟩
    -- Declarations are distinct, so a part all of whose members are `d` has one member.
    have hn : (s.declarations.entries.filter q).Nodup := s.declarations.distinct.of_map.filter q
    have heq : ∀ e ∈ s.declarations.entries.filter q, e = d :=
      fun e he => honly e ((hmem e).1 he).1 ((hmem e).1 he).2
    rw [List.eq_replicate_of_mem heq] at hn ⊢
    have hlen : (s.declarations.entries.filter q).length = 1 := by
      have hle := List.nodup_replicate.1 hn
      have hpos := List.length_pos_of_mem ((hmem d).2 ⟨hd, hp⟩)
      omega
    rw [hlen]
    rfl

/-! Among the candidates for a simple name, each part of the choice is one on all declarations. -/

section Candidates

variable {simple : String} {d : Declaration}

/-- The test of the candidates says what it should. -/
theorem isNamed_iff {e : Declaration} :
    (e.simpleName == simple && s.accepts accept e) = true ↔ s.IsNamed accept simple e := by
  rw [Bool.and_eq_true, beq_iff_eq]
  exact Iff.rfl

/-- There is one candidate exactly if one declaration has the name. -/
theorem candidates_eq_singleton_iff :
    s.candidates accept simple = [d] ↔ s.IsOnly (s.IsNamed accept simple) d :=
  filter_eq_singleton_iff fun _ => isNamed_iff

/-- The first candidate of a file is the first declaration of the name in it. -/
theorem find?_candidates_file_iff :
    (s.candidates accept simple).find? (fun e => e.origin.file == origin.file) = some d
      ↔ s.IsFirst (fun e => s.IsNamed accept simple e ∧ e.origin.file = origin.file) d := by
  unfold candidates
  rw [List.find?_filter]
  refine find?_eq_some_iff_isFirst fun e => ?_
  rw [decide_eq_true_iff, beq_iff_eq, isNamed_iff]

/-- There is none exactly if no declaration of the name is in the file. -/
theorem find?_candidates_file_eq_none_iff :
    (s.candidates accept simple).find? (fun e => e.origin.file == origin.file) = none
      ↔ ∀ e ∈ s.declarations.entries, s.IsNamed accept simple e → e.origin.file ≠ origin.file := by
  rw [List.find?_eq_none]
  constructor
  · intro h e he hn
    simpa using h e (mem_candidates.2 ⟨he, hn⟩)
  · intro h e he
    obtain ⟨hmem, hn⟩ := mem_candidates.1 he
    simpa using h e hmem hn

/-- There is one candidate in a scope exactly if one declaration there has the name. -/
theorem filter_candidates_scope_iff :
    (s.candidates accept simple).filter (fun e => e.origin.scope == origin.scope) = [d]
      ↔ s.IsOnly (fun e => s.IsNamed accept simple e ∧ e.origin.scope = origin.scope) d := by
  unfold candidates
  rw [List.filter_filter]
  refine filter_eq_singleton_iff fun e => ?_
  rw [Bool.and_eq_true, beq_iff_eq, isNamed_iff]
  exact And.comm

end Candidates

/-- The first of several declarations in the file that asks comes before the only one in its scope. -/
theorem nearest?_eq_some_iff {l : List Declaration} {d : Declaration} :
    nearest? origin l = some d ↔
      l.find? (fun e => e.origin.file == origin.file) = some d ∨
      l.find? (fun e => e.origin.file == origin.file) = none ∧ origin.scope.isSome ∧
        l.filter (fun e => e.origin.scope == origin.scope) = [d] := by
  unfold nearest?
  cases l.find? fun e => e.origin.file == origin.file with
  | some e => simp
  | none =>
    cases origin.scope.isSome with
    | false => simp
    | true =>
      -- Only a scope with exactly one of them decides.
      generalize (l.filter fun e => e.origin.scope == origin.scope) = m
      rcases m with _ | ⟨e, _ | ⟨e', r⟩⟩ <;> simp

/-- A declaration that is the only one is chosen wherever it lives; several leave it to the places. -/
theorem choice?_eq_some_iff_nearest? {l : List Declaration} {d : Declaration} :
    choice? origin l = some d ↔ l = [d] ∨ nearest? origin l = some d := by
  rcases l with _ | ⟨e, _ | ⟨e', r⟩⟩
  · simp [choice?, nearest?]
  · -- The places can only confirm a single declaration.
    have hmem : nearest? origin [e] = some d → e = d := fun h =>
      (List.mem_singleton.1 (mem_of_nearest? h)).symm
    simp only [choice?, Option.some.injEq, List.cons.injEq, and_true]
    exact ⟨.inl, fun h => h.elim id hmem⟩
  · simp [choice?]

/-- **The choice among the declarations of a simple name**, in its order of preference. -/
theorem choice?_eq_some_iff {simple : String} {d : Declaration} :
    choice? origin (s.candidates accept simple) = some d ↔
      s.IsOnly (s.IsNamed accept simple) d ∨
      s.IsFirst (fun e => s.IsNamed accept simple e ∧ e.origin.file = origin.file) d ∨
      (∀ e ∈ s.declarations.entries, s.IsNamed accept simple e → e.origin.file ≠ origin.file) ∧
        origin.scope.isSome ∧
        s.IsOnly (fun e => s.IsNamed accept simple e ∧ e.origin.scope = origin.scope) d := by
  rw [choice?_eq_some_iff_nearest?, nearest?_eq_some_iff, candidates_eq_singleton_iff,
    find?_candidates_file_iff, find?_candidates_file_eq_none_iff, filter_candidates_scope_iff]

/-- The answer to a qualified name is the first declaration with it. -/
theorem qualified?_eq_some_iff {d : Declaration} :
    s.qualified? name accept = some d ↔ s.IsFirst (s.IsExactly accept name) d := by
  refine find?_eq_some_iff_isFirst fun e => ?_
  rw [Bool.and_eq_true, beq_iff_eq]
  exact Iff.rfl

/-- There is no answer exactly if nothing is declared with it. -/
theorem qualified?_eq_none_iff :
    s.qualified? name accept = none ↔ ∀ d ∈ s.declarations.entries, ¬ s.IsExactly accept name d := by
  unfold qualified?
  rw [List.find?_eq_none]
  refine forall₂_congr fun d _ => not_congr ?_
  rw [Bool.and_eq_true, beq_iff_eq]
  exact Iff.rfl

/-- Without generic arguments, the simple name of a name is its last segment. -/
theorem simpleName_of_notMem (h : '<' ∉ name.toList) :
    simpleName name = Text.trimmed (String.ofList (Text.afterLast '.' name.toList)) := by
  unfold simpleName Text.trimmed Text.before
  rw [String.toList_ofList, List.takeWhile_eq_self_iff.2]
  intro c hc
  simpa using fun e : c = '<' => h (e ▸ hc)

/-- **What a dotted name resolves to.** A declaration with exactly that qualified name comes first. If
there is none, the last segment of the name decides alone: the only declaration of that simple name, the
first one in the file that asks, or else the only one in its scope. -/
theorem resolve_eq_some_iff_of_dotted (s : WorkingSet) (name : String) (origin : Origin)
    (accept : NodeKind → Bool) (id : String) (hdot : '.' ∈ name.toList) (hgen : '<' ∉ name.toList) :
    s.resolve name origin accept = some id ↔
      ∃ d, d.id = id ∧
        (s.IsFirst (s.IsExactly accept name) d ∨
          (∀ e ∈ s.declarations.entries, ¬ s.IsExactly accept name e) ∧
            let named :=
              s.IsNamed accept (Text.trimmed (String.ofList (Text.afterLast '.' name.toList)))
            (s.IsOnly named d ∨
              s.IsFirst (fun e => named e ∧ e.origin.file = origin.file) d ∨
              (∀ e ∈ s.declarations.entries, named e → e.origin.file ≠ origin.file) ∧
                origin.scope.isSome ∧
                s.IsOnly (fun e => named e ∧ e.origin.scope = origin.scope) d)) := by
  rw [resolve_eq, Option.map_eq_some_iff]
  refine exists_congr fun d => ?_
  rw [and_comm]
  refine and_congr Iff.rfl ?_
  -- The name is dotted, so a declaration with exactly that name goes first.
  unfold referent?
  rw [List.contains_iff_mem.2 hdot, if_pos rfl, ← simpleName_of_notMem hgen]
  dsimp only
  rw [← choice?_eq_some_iff, ← qualified?_eq_some_iff, ← qualified?_eq_none_iff]
  cases s.qualified? name accept with
  | some e => simp
  | none => simp

/-- A project with one class. -/
def oneClass : WorkingSet :=
  ({} : WorkingSet).addDeclaration
    (Node.declared ⟨.java, .plainClass⟩ "com.example.Animal" "Animal" "Animal.java" 1)
    { file := "Animal.java", scope := some "com.example" }

/-- A class of another package finds the one class by its last segment, whatever its qualifier is. -/
theorem resolve_dotted_oneClass :
    oneClass.resolve "org.lib.Animal" { file := "Dog.java", scope := some "app" }
        (fun k => k.category.isType)
      = some (nodeId ⟨.java, .plainClass⟩ "com.example.Animal" "Animal.java") :=
  (resolve_eq_some_iff_of_dotted oneClass "org.lib.Animal" { file := "Dog.java", scope := some "app" }
    (fun k => k.category.isType) _ (by decide) (by decide)).2
    ⟨_, rfl, .inr ⟨by decide +kernel, .inl ⟨List.mem_cons_self, by decide +kernel, by decide +kernel⟩⟩⟩

/-- **The qualifier of a dotted name is not always respected.** -/
theorem exists_resolve_other_qualifier :
    ¬ ∀ (s : WorkingSet) (name : String) (origin : Origin) (accept : NodeKind → Bool) (id : String),
      '.' ∈ name.toList → '<' ∉ name.toList → s.resolve name origin accept = some id →
        ∃ d ∈ s.declarations.entries, d.id = id ∧
          (d.qualifiedName = name ∨ Text.hasEnd ("." ++ name) d.qualifiedName = true) := by
  intro h
  obtain ⟨d, hd, -, hq⟩ := h oneClass "org.lib.Animal" { file := "Dog.java", scope := some "app" }
    (fun k => k.category.isType) (nodeId ⟨.java, .plainClass⟩ "com.example.Animal" "Animal.java")
    (by decide) (by decide) (by decide +kernel)
  -- The only declaration ends neither way.
  obtain rfl := List.mem_singleton.1 hd
  revert hq
  decide +kernel

end CodeAtlas.WorkingSet
