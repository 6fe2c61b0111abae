import Mathlib.Data.List.Induction
import CodeAtlas.Proofs.Merging

/-!
# Stand-ins and declarations in any order

Nodes of one id arrive one after the other, and each is folded into what is there. One would like a
declaration to win over all stand-ins, wherever it comes (`DeclarationWins`). It does as long as the
stand-ins come first. A stand-in that arrives behind a declaration leaves the declaration its name, path and
kind, but it also fills a gap: the declaration has no mark of its own, so it gets the mark of the stand-in.
From then on the node passes for a stand-in, and the next declaration takes its place
(`stub_behind_declaration`).

What happens is said exactly by `mergeAll_precedence`. A sequence stands as its last node does, unless some
node denies being a stand-in by a mark with another value, which nothing takes away again
(`standing_mergeFrom`). Name, path and kind are those of the last node that takes over (`Prevails`). And
declarations win all along a sequence if and only if no stand-in comes behind one that has no mark
(`Orderly`).
-/

namespace CodeAtlas

/-- What the mark of stand-ins says of a node. -/
inductive Standing where
  | unmarked
  | standIn
  /-- The mark is there, but with another value. -/
  | denied
  deriving DecidableEq

namespace Node

/-! ### Two nodes -/

/-- What a mark says. -/
def standingOf : Option Property → Standing
  | none => .unmarked
  | some v => if v = .flag true then .standIn else .denied

/-- **What a node says of itself**: whether it is a stand-in. -/
def standing (n : Node) : Standing :=
  standingOf (n.properties.get? "stub")

/-- What the declaration that wins decides: the name, the path and the kind of a node. -/
def core (n : Node) : String × String × NodeKind :=
  (n.name, n.path, n.kind)

/-- The mark of a stand-in has the value true. -/
theorem isStub_iff {n : Node} : n.isStub = true ↔ n.standing = .standIn := by
  unfold isStub standing
  rw [beq_iff_eq]
  cases n.properties.get? "stub" with
  | none => simp [standingOf]
  | some v =>
    unfold standingOf
    by_cases hv : v = .flag true
    · simp [hv]
    · simp [hv]

/-- **A node stands as the last one that was folded into it**, unless it denies being a stand-in. -/
theorem standing_mergeFrom (a b : Node) :
    (a.mergeFrom b).standing = if a.standing = .denied then .denied else b.standing := by
  by_cases htake : a.isStub && !b.isStub
  · -- A declaration that takes the place of a stand-in does not take its mark over.
    have ha : a.standing = .standIn := isStub_iff.1 (Bool.and_eq_true _ _ ▸ htake).1
    have hmark : (a.mergeFrom b).properties.get? "stub" = b.properties.get? "stub" := by
      unfold mergeFrom
      rw [if_pos htake]
      dsimp only
      rw [get?_fillProperties, Keyed.get?_erase, if_pos rfl, Option.or_none]
    rw [ha, if_neg (by decide), standing, hmark, standing]
  · have hmark : (a.mergeFrom b).properties.get? "stub"
        = (a.properties.get? "stub").or (b.properties.get? "stub") := by
      unfold mergeFrom
      rw [if_neg htake]
      exact get?_fillProperties _ _ _
    -- A stand-in that stays meets another stand-in.
    have hstub : a.standing = .standIn → b.standing = .standIn := by
      rw [← isStub_iff, ← isStub_iff]
      intro ha
      rw [ha, Bool.true_and, Bool.not_eq_true', Bool.not_eq_false] at htake
      exact htake
    have hsome : ∀ v, a.properties.get? "stub" = some v → (a.mergeFrom b).standing = a.standing := by
      intro v hv
      rw [standing, hmark, hv, Option.some_or, standing, hv]
    -- A mark that is there stays; a missing one is taken over.
    cases hget : a.properties.get? "stub" with
    | none =>
      have ha : a.standing = .unmarked := by rw [standing, hget]; rfl
      rw [ha, if_neg (by decide), standing, hmark, hget, Option.none_or, standing]
    | some v =>
      rw [hsome v hget]
      split
      next h => exact h
      next h =>
        have ha : a.standing = .standIn := by
          unfold standing standingOf at h ⊢
          rw [hget] at h ⊢
          dsimp only at h ⊢
          split
          · rfl
          · rename_i hv
            exact absurd (if_neg hv) h
        rw [ha, hstub ha]

/-- Only a declaration that meets a stand-in brings its own name, path and kind. -/
theorem core_mergeFrom (a b : Node) :
    (a.mergeFrom b).core
      = if a.standing = .standIn ∧ b.standing ≠ .standIn then b.core else a.core := by
  have hcond : (a.isStub && !b.isStub) = true ↔ a.standing = .standIn ∧ b.standing ≠ .standIn := by
    rw [Bool.and_eq_true, Bool.not_eq_true', ← Bool.not_eq_true, isStub_iff, isStub_iff]
  unfold mergeFrom
  split
  next h => rw [if_pos (hcond.1 h)]; rfl
  next h => rw [if_neg (fun h' => h (hcond.2 h'))]; rfl

/-! ### Sequences of nodes -/

/-- A node with later ones of its id folded in, from the first to the last. -/
def mergeAll (n : Node) (l : List Node) : Node :=
  l.foldl mergeFrom n

theorem mergeAll_concat (n : Node) (l : List Node) (m : Node) :
    n.mergeAll (l ++ [m]) = (n.mergeAll l).mergeFrom m :=
  List.foldl_append

/-- A denial is never lost. -/
theorem standing_mergeAll_eq_denied_iff {n : Node} {l : List Node} :
    (n.mergeAll l).standing = .denied ↔ ∃ m ∈ n :: l, m.standing = .denied := by
  induction l using List.reverseRecOn with
  | nil => simp [mergeAll]
  | append_singleton l m ih =>
    rw [mergeAll_concat, standing_mergeFrom, ← List.cons_append]
    simp only [List.mem_append, List.mem_singleton, or_and_right, exists_or, exists_eq_left]
    rw [← ih]
    split
    next h => exact ⟨fun _ => .inl h, fun _ => rfl⟩
    next h => exact ⟨.inr, fun hm => hm.resolve_left h⟩

/-- **A sequence is a stand-in if its last node is**, and none denies it. -/
theorem standing_mergeAll_eq_standIn_iff {n : Node} {l : List Node} :
    (n.mergeAll l).standing = .standIn ↔
      (∃ last ∈ (n :: l).getLast?, last.standing = .standIn) ∧ ∀ m ∈ n :: l, m.standing ≠ .denied := by
  -- By induction from the end, since the last node decides.
  induction l using List.reverseRecOn with
  | nil => simp +contextual [mergeAll]
  | append_singleton l m _ =>
    have hdenied := standing_mergeAll_eq_denied_iff (n := n) (l := l)
    rw [mergeAll_concat, standing_mergeFrom, ← List.cons_append, List.getLast?_concat]
    simp only [Option.mem_def, Option.some.injEq, exists_eq_left', List.mem_append, List.mem_singleton]
    split
    next h =>
      obtain ⟨d, hd, hdd⟩ := hdenied.1 h
      exact ⟨fun h' => (nomatch h'), fun h' => absurd hdd (h'.2 d (.inl hd))⟩
    next h =>
      refine ⟨fun hm => ⟨hm, ?_⟩, fun h' => h'.1⟩
      rintro d (hd | rfl)
      · exact fun hdd => h (hdenied.2 ⟨d, hd, hdd⟩)
      · rw [hm]
        decide

/-! ### The node that prevails -/

/-- **A node takes over from the nodes before it** if there are none, or if it is a declaration directly
behind a stand-in and none of them denies being one. -/
def TakesOver (before : List Node) (n : Node) : Prop :=
  ∀ last ∈ before.getLast?,
    last.standing = .standIn ∧ n.standing ≠ .standIn ∧ ∀ m ∈ before, m.standing ≠ .denied

/-- **The last node of a sequence that takes over.** -/
def Prevails (w : Node) (seq : List Node) : Prop :=
  ∃ before after, seq = before ++ w :: after ∧ TakesOver before w ∧
    ∀ mid m rest, after = mid ++ m :: rest → ¬TakesOver (before ++ w :: mid) m

/-- A node takes over exactly if it replaces what has been folded together so far. -/
theorem takesOver_iff {n m : Node} {l : List Node} :
    TakesOver (n :: l) m ↔ (n.mergeAll l).standing = .standIn ∧ m.standing ≠ .standIn := by
  obtain ⟨last, hlast⟩ : ∃ last, (n :: l).getLast? = some last :=
    Option.isSome_iff_exists.1 (by rw [List.getLast?_isSome]; exact List.cons_ne_nil n l)
  rw [standing_mergeAll_eq_standIn_iff, TakesOver, hlast]
  simp only [Option.mem_def, Option.some.injEq, forall_eq', exists_eq_left']
  exact ⟨fun h => ⟨⟨h.1, h.2.2⟩, h.2.1⟩, fun h => ⟨h.1.1, h.2, h.1.2⟩⟩

/-- **Name, path and kind of a sequence are those of the node that prevails.** -/
theorem exists_prevails (n : Node) (l : List Node) :
    ∃ w, Prevails w (n :: l) ∧ (n.mergeAll l).core = w.core := by
  -- By induction from the end: the last node takes over, or the one that prevailed before still does.
  induction l using List.reverseRecOn with
  | nil =>
    refine ⟨n, ⟨[], [], rfl, fun last hlast => (nomatch hlast), fun mid m rest h => ?_⟩, rfl⟩
    exact absurd h.symm (List.append_ne_nil_of_right_ne_nil mid (List.cons_ne_nil m rest))
  | append_singleton l m ih =>
    obtain ⟨w, ⟨before, after, hseq, hover, hlast⟩, hcore⟩ := ih
    rw [mergeAll_concat, core_mergeFrom, ← List.cons_append]
    split
    next htake =>
      -- The new node takes over from all that came before it.
      refine ⟨m, ⟨n :: l, [], rfl, takesOver_iff.2 htake, fun mid m' rest h => ?_⟩, rfl⟩
      exact absurd h.symm (List.append_ne_nil_of_right_ne_nil mid (List.cons_ne_nil m' rest))
    next hkeep =>
      refine ⟨w, ⟨before, after ++ [m], ?_, hover, fun mid m' rest h => ?_⟩, hcore⟩
      · rw [hseq, List.append_assoc, List.cons_append]
      · rcases List.eq_nil_or_concat rest with rfl | ⟨rest, m'', rfl⟩
        · obtain ⟨rfl, hm⟩ := List.append_inj' h rfl
          obtain rfl := List.singleton_inj.1 hm
          rw [← hseq, takesOver_iff]
          exact hkeep
        · rw [List.concat_eq_append, ← List.cons_append, ← List.append_assoc] at h
          exact hlast mid m' rest (List.append_inj' h rfl).1

/-! ### Where declarations win -/

/-- **A declaration wins over stand-ins**: a sequence is a stand-in only if all its nodes are, and otherwise
it has the name, the path and the kind of its first declaration. -/
def DeclarationWins (n : Node) (l : List Node) : Prop :=
  ((n.mergeAll l).isStub = true ↔ ∀ m ∈ n :: l, m.isStub = true) ∧
    ∀ d, (n :: l).find? (fun m => !m.isStub) = some d →
      (n.mergeAll l).name = d.name ∧ (n.mergeAll l).path = d.path ∧ (n.mergeAll l).kind = d.kind

/-- **No stand-in comes behind a declaration**, unless one before it denies being a stand-in. -/
def Orderly (seq : List Node) : Prop :=
  ∀ before m after, seq = before ++ m :: after → m.isStub = true →
    (∀ d ∈ before, d.isStub = true) ∨ ∃ d ∈ before, d.standing = .denied

/-- A beginning of an orderly sequence is orderly. -/
theorem Orderly.of_append {seq more : List Node} (h : Orderly (seq ++ more)) : Orderly seq := by
  intro before m after hseq
  refine h before m (after ++ more) ?_
  rw [hseq, List.append_assoc, List.cons_append]

/-- Along an orderly sequence, the node that is a stand-in is one of stand-ins only. -/
theorem Orderly.isStub_iff_forall {n : Node} {l : List Node} (h : Orderly (n :: l)) :
    (n.mergeAll l).isStub = true ↔ ∀ m ∈ n :: l, m.isStub = true := by
  rw [isStub_iff, standing_mergeAll_eq_standIn_iff]
  constructor
  · rintro ⟨⟨last, hlast, hstub⟩, hnot⟩
    -- The last node is a stand-in, so in an orderly sequence only stand-ins come before it, or one that
    -- denies it.
    obtain ⟨before, hseq⟩ := List.getLast?_eq_some_iff.1 hlast
    rw [hseq] at hnot ⊢
    rcases h before last [] hseq (isStub_iff.2 hstub) with hall | ⟨d, hd, hdenied⟩
    · intro m hm
      rcases List.mem_append.1 hm with hm | hm
      · exact hall m hm
      · exact List.mem_singleton.1 hm ▸ isStub_iff.2 hstub
    · exact absurd hdenied (hnot d (List.mem_append_left _ hd))
  · intro hall
    refine ⟨⟨_, List.getLast?_eq_some_getLast (List.cons_ne_nil n l), ?_⟩, fun m hm => ?_⟩
    · exact isStub_iff.1 (hall _ (List.getLast_mem _))
    · rw [isStub_iff.1 (hall m hm)]
      decide

/-- In an orderly sequence the first declaration decides name, path and kind. -/
theorem Orderly.core_eq {n : Node} {l : List Node} (h : Orderly (n :: l)) {d : Node}
    (hd : (n :: l).find? (fun m => !m.isStub) = some d) : (n.mergeAll l).core = d.core := by
  induction l using List.reverseRecOn with
  | nil =>
    obtain rfl := List.mem_singleton.1 (List.mem_of_find?_eq_some hd)
    rfl
  | append_singleton l m ih =>
    rw [← List.cons_append] at h hd
    have hall := h.of_append.isStub_iff_forall
    rw [mergeAll_concat, core_mergeFrom]
    rw [List.find?_append] at hd
    cases hfind : (n :: l).find? (fun m => !m.isStub) with
    | some e =>
      -- The declaration was there before, so what is there is no stand-in and stays.
      rw [hfind] at hd
      obtain rfl := Option.some.inj hd
      rw [if_neg, ih h.of_append hfind]
      rintro ⟨hstub, -⟩
      have he := hall.1 (isStub_iff.2 hstub) e (List.mem_of_find?_eq_some hfind)
      simpa [he] using List.find?_some hfind
    | none =>
      -- All that came before are stand-ins, and the new node is the first declaration.
      rw [hfind, Option.none_or] at hd
      obtain rfl := List.mem_singleton.1 (List.mem_of_find?_eq_some hd)
      have hstubs : ∀ e ∈ n :: l, e.isStub = true := by
        intro e he
        simpa using List.find?_eq_none.1 hfind e he
      have hm : d.standing ≠ .standIn := by
        rw [Ne, ← isStub_iff]
        simpa using List.find?_some hd
      rw [if_pos ⟨isStub_iff.1 (hall.2 hstubs), hm⟩]

/-- **The order of arrival decides.** Behind a sequence, a node is a stand-in exactly if the last node is one
and none denies it, and it has the name, the path and the kind of the last node that takes over. So
declarations win over stand-ins at every point of a sequence if and only if no stand-in comes behind a
declaration without a mark. -/
theorem mergeAll_precedence (n : Node) (l : List Node) :
    ((n.mergeAll l).isStub = true ↔
        (∃ last ∈ (n :: l).getLast?, last.isStub = true) ∧ ∀ m ∈ n :: l, m.standing ≠ .denied) ∧
      (∃ w, Prevails w (n :: l) ∧ (n.mergeAll l).name = w.name ∧ (n.mergeAll l).path = w.path ∧
        (n.mergeAll l).kind = w.kind) ∧
      ((∀ start, start <+: l → DeclarationWins n start) ↔ Orderly (n :: l)) := by
  refine ⟨?_, ?_, fun h => ?_, fun h => ?_⟩
  · simp only [isStub_iff]
    exact standing_mergeAll_eq_standIn_iff
  · obtain ⟨w, hw, hcore⟩ := exists_prevails n l
    simp only [core, Prod.mk.injEq] at hcore
    exact ⟨w, hw, hcore⟩
  · -- Up to a stand-in behind a declaration, the sequence is a stand-in, but not all of it.
    intro before m after hseq hm
    by_contra hnot
    rw [not_or] at hnot
    obtain ⟨hdecl, hdenied⟩ := hnot
    cases before with
    | nil => exact hdecl fun d hd => nomatch hd
    | cons b before =>
      obtain ⟨rfl, hl⟩ := List.cons.inj hseq
      have hwins := (h (before ++ [m]) ⟨after, by rw [hl]; simp⟩).1
      refine hdecl fun d hd => hwins.1 ?_ d ?_
      · rw [isStub_iff, mergeAll_concat, standing_mergeFrom, if_neg, ← isStub_iff]
        · exact hm
        · rw [standing_mergeAll_eq_denied_iff]
          exact hdenied
      · rw [← List.cons_append]
        exact List.mem_append_left _ hd
  -- Each beginning is orderly as well, so the two lemmas above apply to it.
  · rintro start ⟨rest, rfl⟩
    rw [← List.cons_append] at h
    have hstart : Orderly (n :: start) := h.of_append
    refine ⟨hstart.isStub_iff_forall, fun d hd => ?_⟩
    have hcore := hstart.core_eq hd
    simpa only [core, Prod.mk.injEq] using hcore

/-- **A stand-in behind a declaration**: the declaration passes for a stand-in from then on, and the next
declaration of the same id takes its place. -/
theorem stub_behind_declaration :
    let kind : NodeKind := ⟨.java, .plainClass⟩
    let first := shared kind "Base" "Base" "Base.java" 4
    let second := shared kind "Base" "Base" "Other.java" 9
    let standIn := stub kind "Base"
    (second.id = first.id ∧ standIn.id = first.id) ∧ (first.isStub = false ∧ second.isStub = false) ∧
      (first.mergeAll [standIn]).isStub = true ∧ ¬DeclarationWins first [standIn] ∧
      (first.mergeAll [standIn, second]).path = "Other.java" ∧
      ¬DeclarationWins first [standIn, second] := by
  intro kind first second standIn
  have hstub : (first.mergeAll [standIn]).isStub = true := by decide +kernel
  have hpath : (first.mergeAll [standIn, second]).path = "Other.java" := by decide +kernel
  have hid : ∀ name path line, (shared kind "Base" name path line).id = nodeId kind "Base" "" :=
    fun _ _ _ => rfl
  -- The mark of the stand-in is taken over first, and after it the path of the second declaration.
  refine ⟨⟨(hid _ _ _).trans (hid _ _ _).symm, (hid _ _ _).symm⟩, by decide +kernel, hstub, fun h => ?_,
    hpath, fun h => ?_⟩
  · exact absurd (h.1.1 hstub first List.mem_cons_self) (by decide +kernel)
  · have hfind : [first, standIn, second].find? (fun m => !m.isStub) = some first := by decide +kernel
    exact absurd (hpath.symm.trans (h.2 first hfind).2.1) (by decide +kernel)

end Node

end CodeAtlas
