import Mathlib.Data.List.Induction
import CodeAtlas.Proofs.Contribution

/-!
# Which callable a line belongs to

A call is attributed to the callable with the shortest span around its line. `Innermost` says which one that is
without any search, and `innermost?_spans` that the search finds it: of several callables with spans of one
length, the first one that is listed.

Spans are taken as they come, also those that end before they start. Such a span is around no line, so its
length, which would not be defined, is never asked for (`checkedInnermost?_eq`).
-/

namespace CodeAtlas

/-! ### The first of the least -/

/-- **The first of the least entries of a list** that satisfy a condition. -/
def FirstLeast {α : Type} (p : α → Bool) (size : α → Nat) (l : List α) (a : α) : Prop :=
  ∃ before after, l = before ++ a :: after ∧ p a = true ∧
    (∀ b ∈ before, p b = true → size a < size b) ∧ ∀ b ∈ after, p b = true → size a ≤ size b

namespace FirstLeast

variable {α β : Type} {p : α → Bool} {size : α → Nat} {l : List α} {a b : α}

theorem mem (h : FirstLeast p size l a) : a ∈ l := by
  obtain ⟨before, after, rfl, -⟩ := h
  exact List.mem_append_right _ List.mem_cons_self

/-- There is at most one. -/
theorem unique (ha : FirstLeast p size l a) (hb : FirstLeast p size l b) : a = b := by
  -- If one stood before the other, the first would be strictly greater and also not greater.
  have hnot : ∀ {x y : α} {before mid after : List α}, p x = true → p y = true →
      (∀ z ∈ before ++ x :: mid, p z = true → size y < size z) →
      ¬∀ z ∈ mid ++ y :: after, p z = true → size x ≤ size z := by
    intro x y before mid after hx hy hlt hle
    have h₁ := hlt x (List.mem_append_right _ List.mem_cons_self) hx
    have h₂ := hle y (List.mem_append_right _ List.mem_cons_self) hy
    omega
  obtain ⟨before, after, hl, hpa, hlt, hle⟩ := ha
  obtain ⟨before', after', hl', hpb, hlt', hle'⟩ := hb
  -- One of the two stands before the other, or they stand at one place.
  rcases List.append_eq_append_iff.1 (hl.symm.trans hl') with ⟨mid, rfl, h⟩ | ⟨mid, rfl, h⟩
  · cases mid with
    | nil => exact (List.cons.inj h).1
    | cons x mid =>
      obtain ⟨rfl, rfl⟩ := List.cons.inj h
      exact absurd hle (hnot hpa hpb hlt')
  · cases mid with
    | nil => exact (List.cons.inj h).1.symm
    | cons x mid =>
      obtain ⟨rfl, rfl⟩ := List.cons.inj h
      exact absurd hle' (hnot hpb hpa hlt)

/-- The first of the least of a mapped list is the image of one. -/
theorem map_iff {g : β → α} {l : List β} :
    FirstLeast p size (l.map g) a ↔ ∃ b, FirstLeast (p ∘ g) (size ∘ g) l b ∧ g b = a := by
  constructor
  · rintro ⟨before, after, hl, hp, hlt, hle⟩
    -- The place of the image in the mapped list is the place of what it is an image of.
    obtain ⟨before', rest, rfl, rfl, hrest⟩ := List.map_eq_append_iff.1 hl
    obtain ⟨b, after', rfl, rfl, rfl⟩ := List.map_eq_cons_iff.1 hrest
    refine ⟨b, ⟨before', after', rfl, hp, ?_, ?_⟩, rfl⟩
    · exact fun c hc => hlt (g c) (List.mem_map_of_mem hc)
    · exact fun c hc => hle (g c) (List.mem_map_of_mem hc)
  · rintro ⟨b, ⟨before, after, rfl, hp, hlt, hle⟩, rfl⟩
    refine ⟨before.map g, after.map g, by rw [List.map_append, List.map_cons], hp, ?_, ?_⟩
    · exact List.forall_mem_map.2 hlt
    · exact List.forall_mem_map.2 hle

/-- One more entry at the end, which is not smaller or does not count. -/
theorem concat_of_le (h : FirstLeast p size l a) (hb : p b = true → size a ≤ size b) :
    FirstLeast p size (l ++ [b]) a := by
  obtain ⟨before, after, rfl, hp, hlt, hle⟩ := h
  refine ⟨before, after ++ [b], by rw [List.append_assoc, List.cons_append], hp, hlt, fun c hc => ?_⟩
  rcases List.mem_append.1 hc with hc | hc
  · exact hle c hc
  · exact List.mem_singleton.1 hc ▸ hb

/-- One more entry at the end, which is smaller than all that count. -/
theorem concat_of_lt (hp : p b = true) (h : ∀ c ∈ l, p c = true → size b < size c) :
    FirstLeast p size (l ++ [b]) b :=
  ⟨l, [], rfl, hp, h, fun _ hc => nomatch hc⟩

/-- No entry that satisfies the condition is smaller. -/
theorem le (h : FirstLeast p size l a) (hb : b ∈ l) (hp : p b = true) : size a ≤ size b := by
  obtain ⟨before, after, rfl, -, hlt, hle⟩ := h
  rcases List.mem_append.1 hb with hb | hb
  · exact Nat.le_of_lt (hlt b hb hp)
  rcases List.mem_cons.1 hb with rfl | hb
  · exact Nat.le_refl _
  · exact hle b hb hp

end FirstLeast

/-! ### The innermost callable -/

/-- The shortest of the spans around a line, with its id. -/
def shortest? : List (Span × String) → Option (Span × String)
  | [] => none
  | e :: rest => some (rest.foldl shorterSpan e)

/-- The search looks at the spans around the line only. -/
theorem innermost?_eq (spans : List (Span × String)) (line : Nat) :
    innermost? spans line = (shortest? (spans.filter fun e => e.1.contains line)).map (·.2) := by
  unfold innermost?
  cases spans.filter fun e => e.1.contains line with
  | nil => rfl
  | cons e rest => rfl

/-- One span more at the end is chosen only if it is strictly shorter. -/
theorem shortest?_concat (l : List (Span × String)) (e : Span × String) :
    shortest? (l ++ [e]) = some ((shortest? l).elim e fun a => shorterSpan a e) := by
  cases l with
  | nil => rfl
  | cons a l =>
    change some ((l ++ [e]).foldl shorterSpan a) = some (shorterSpan (l.foldl shorterSpan a) e)
    rw [List.foldl_append]
    rfl

/-- **The search finds the first of the shortest spans around a line.** -/
theorem firstLeast_of_shortest? {line : Nat} {l : List (Span × String)} {e : Span × String}
    (h : shortest? (l.filter fun e => e.1.contains line) = some e) :
    FirstLeast (fun e => e.1.contains line) (fun e => e.1.len) l e := by
  -- By induction from the end of the list, since the search keeps what it has unless the next span is
  -- shorter.
  induction l using List.reverseRecOn generalizing e with
  | nil => cases h
  | append_singleton l b ih =>
    rw [List.filter_append] at h
    by_cases hb : b.1.contains line = true
    · rw [List.filter_singleton, hb] at h
      change shortest? (_ ++ [b]) = some e at h
      rw [shortest?_concat] at h
      cases hl : shortest? (l.filter fun e => e.1.contains line) with
      | none =>
        rw [hl] at h
        obtain rfl := Option.some.inj h
        -- Nothing before it is around the line.
        have hnil : l.filter (fun e => e.1.contains line) = [] := by
          cases hf : l.filter fun e => e.1.contains line with
          | nil => rfl
          | cons a m =>
            rw [hf] at hl
            cases hl
        refine .concat_of_lt hb fun c hc hp => ?_
        exact absurd hp (List.filter_eq_nil_iff.1 hnil c hc)
      | some a =>
        rw [hl] at h
        have hstep : shorterSpan a b = e := Option.some.inj h
        have ha := ih hl
        unfold shorterSpan at hstep
        split at hstep
        · rename_i hlt
          subst hstep
          exact .concat_of_lt hb fun c hc hp => Nat.lt_of_lt_of_le hlt (ha.le hc hp)
        · rename_i hle
          subst hstep
          exact ha.concat_of_le fun _ => Nat.le_of_not_lt hle
    -- A span that is not around the line is left out of the search.
    · rw [List.filter_singleton, Bool.eq_false_iff.2 hb] at h
      change shortest? (_ ++ []) = some e at h
      rw [List.append_nil] at h
      exact (ih h).concat_of_le fun hp => absurd hp hb

/-- **The search finds the first of the shortest spans** around the line. -/
theorem shortest?_eq_some_iff {line : Nat} {l : List (Span × String)} {e : Span × String} :
    shortest? (l.filter fun e => e.1.contains line) = some e ↔
      FirstLeast (fun e => e.1.contains line) (fun e => e.1.len) l e := by
  refine ⟨firstLeast_of_shortest?, fun h => ?_⟩
  -- There is such a span, so the search finds one, and there is only one to find.
  have hmem : e ∈ l.filter fun e => e.1.contains line :=
    List.mem_filter.2 ⟨h.mem, by obtain ⟨_, _, -, hp, -⟩ := h; exact hp⟩
  obtain ⟨b, hb⟩ : ∃ b, shortest? (l.filter fun e => e.1.contains line) = some b := by
    cases hf : l.filter fun e => e.1.contains line with
    | nil =>
      rw [hf] at hmem
      cases hmem
    | cons a m => exact ⟨_, rfl⟩
  rw [hb, (firstLeast_of_shortest? hb).unique h]

/-- **The callable that a line belongs to**: of the callables whose spans are around the line, the first one
with the least number of lines. -/
def Innermost (l : List CallableDecl) (line : Nat) (d : CallableDecl) : Prop :=
  FirstLeast (fun d => d.span.contains line) (fun d => d.span.len) l d

/-- **The innermost callable is found**, and nothing else. -/
theorem innermost?_spans {f : FileSite} {l : List CallableDecl} {line : Nat} {c : String} :
    innermost? (f.spans l) line = some c ↔ ∃ d, Innermost l line d ∧ (f.callableNode d).id = c := by
  rw [innermost?_eq, Option.map_eq_some_iff]
  simp only [shortest?_eq_some_iff, FileSite.spans, FirstLeast.map_iff]
  constructor
  · rintro ⟨e, ⟨d, hd, rfl⟩, rfl⟩
    exact ⟨d, hd, rfl⟩
  · rintro ⟨d, hd, rfl⟩
    exact ⟨_, ⟨d, hd, rfl⟩, rfl⟩

/-- The number of lines of a span, if it does not end before it starts. -/
def Span.len? (s : Span) : Option Nat :=
  if s.first ≤ s.last then some s.len else none

/-- **The search with lengths that may be undefined**: it fails if any length that is asked for is. -/
def checkedInnermost? (spans : List (Span × String)) (line : Nat) : Option (Option String) := do
  let measured ← (spans.filter fun e => e.1.contains line).mapM fun e => e.1.len?.map fun n => (n, e.2)
  return match measured with
    | [] => none
    | e :: rest => some (rest.foldl (fun a b => if b.1 < a.1 then b else a) e).2

/-- A span around a line does not end before it starts. -/
theorem Span.len?_of_contains {s : Span} {line : Nat} (h : s.contains line = true) :
    s.len? = some s.len := by
  unfold contains at h
  rw [Bool.and_eq_true, decide_eq_true_eq, decide_eq_true_eq] at h
  exact if_pos (Nat.le_trans h.1 h.2)

/-- Only spans around the line are measured, and these end where they start or later. -/
theorem mapM_len?_of_contains {line : Nat} {l : List (Span × String)} (h : ∀ e ∈ l, e.1.contains line = true) :
    l.mapM (fun e => e.1.len?.map fun n => (n, e.2)) = some (l.map fun e => (e.1.len, e.2)) := by
  induction l with
  | nil => rfl
  | cons e l ih =>
    rw [List.mapM_cons, Span.len?_of_contains (h e List.mem_cons_self),
      ih fun x hx => h x (List.mem_cons_of_mem e hx)]
    rfl

/-- The fold over lengths makes the same choices as the fold over spans. -/
theorem foldl_len_eq (l : List (Span × String)) (e : Span × String) :
    ((l.map fun e => (e.1.len, e.2)).foldl (fun a b => if b.1 < a.1 then b else a) (e.1.len, e.2)).2
      = (l.foldl shorterSpan e).2 := by
  induction l generalizing e with
  | nil => rfl
  | cons b l ih =>
    rw [List.map_cons, List.foldl_cons, List.foldl_cons, ← ih]
    unfold shorterSpan
    dsimp only
    split <;> rfl

/-- **Every length that the search asks for is defined.** -/
theorem checkedInnermost?_eq (spans : List (Span × String)) (line : Nat) :
    checkedInnermost? spans line = some (innermost? spans line) := by
  unfold checkedInnermost? innermost?
  rw [mapM_len?_of_contains fun e he => (List.mem_filter.1 he).2]
  cases spans.filter fun e => e.1.contains line with
  | nil => rfl
  | cons e rest => exact congrArg (fun x => some (some x)) (foldl_len_eq rest e)

end CodeAtlas
