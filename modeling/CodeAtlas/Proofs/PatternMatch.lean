import CodeAtlas.Pattern.Basic
import Mathlib.Data.List.Basic

/-!
# What a match says about its text

A match ends at a `Cursor`, and its readers cut the text there: they take what is left of the text, and
the pieces that groups have remembered. That these cuts lie inside the text, and that a group which is
asked for has taken part in the match, is proved here for every pattern.

Both facts have the same reason. `Pattern.ends` changes a cursor in two ways only: it moves the cursor
over the next character, and it remembers a piece of text. A property of cursors that survives these two
survives every match (`Pattern.ends_invariant`), and the two properties here are

* `Cursor.At text` — the cursor stands in the text;
* a group is among those that are remembered.

Which groups take part in *every* match can be read off the pattern (`Pattern.binds`): both sides of an
alternative have to bind the group, and a repetition binds nothing, for it may be empty.
-/

namespace CodeAtlas

/-- **The cursor stands in the text**: the text falls into what the cursor has passed and what it has
before it. -/
def Cursor.At (text : List Char) (c : Cursor) : Prop :=
  ∃ passed, text = passed ++ c.rest ∧ c.position = passed.length ∧ c.previous = passed.getLast?

namespace Cursor

/-- Leaving places out adds none. -/
theorem mem_of_mem_distinct {c : Cursor} {l : List Cursor} {seen : List Nat}
    (h : c ∈ distinct l seen) : c ∈ l := by
  induction l generalizing seen with
  | nil => exact h
  | cons d l ih =>
    rw [distinct] at h
    split at h
    · exact List.mem_cons_of_mem d (ih h)
    · rcases List.mem_cons.mp h with rfl | h
      · exact List.mem_cons_self
      · exact List.mem_cons_of_mem d (ih h)

/-- A cursor that stands in a text cuts it in two. -/
theorem At.rest_eq {text : List Char} {c : Cursor} (h : c.At text) :
    c.position ≤ text.length ∧ c.rest = text.drop c.position := by
  obtain ⟨passed, htext, hposition, -⟩ := h
  rw [htext, hposition, List.length_append]
  exact ⟨Nat.le_add_right _ _, by rw [List.drop_left]⟩

/-- The character before a cursor is the last one that it has passed. -/
theorem At.exists_eq_append {text : List Char} {c : Cursor} {x : Char} (h : c.At text)
    (hx : c.previous = some x) : ∃ passed, text = passed ++ x :: c.rest := by
  obtain ⟨passed, htext, -, hprevious⟩ := h
  rw [hx] at hprevious
  obtain ⟨front, rfl⟩ := List.getLast?_eq_some_iff.mp hprevious.symm
  exact ⟨front, by rw [htext, List.append_assoc]; rfl⟩

end Cursor

namespace Pattern

/-! ### What every match keeps -/

/-- What is gathered from several places has what is gathered from each of them. -/
theorem gathered_invariant {P : Cursor → Prop} {gather : Cursor → List Nat → List Nat × List Cursor}
    (hgather : ∀ c seen, P c → ∀ d ∈ (gather c seen).2, P d) {l : List Cursor} (hl : ∀ d ∈ l, P d)
    (acc : List Nat × List Cursor) (hacc : ∀ d ∈ acc.2, P d) :
    ∀ d ∈ (l.foldl (fun acc d =>
      let r := gather d acc.1
      (r.1, acc.2 ++ r.2)) acc).2, P d := by
  induction l generalizing acc with
  | nil => exact hacc
  | cons e l ih =>
    refine ih (fun d hd => hl d (List.mem_cons_of_mem e hd)) _ ?_
    intro d hd
    rcases List.mem_append.mp hd with hd | hd
    · exact hacc d hd
    · exact hgather e acc.1 (hl e List.mem_cons_self) d hd

/-- A repetition keeps what its body keeps. -/
theorem repeated_invariant {P : Cursor → Prop} {step : Cursor → List Cursor}
    (hstep : ∀ c, P c → ∀ d ∈ step c, P d) (greedy : Bool) (fuel : Nat) (c : Cursor) (seen : List Nat)
    (hc : P c) : ∀ d ∈ (repeated step greedy fuel c seen).2, P d := by
  -- By induction on the fuel. The step keeps the property, and so does the repetition from wherever it leads.
  induction fuel generalizing c seen with
  | zero =>
    intro d hd
    rw [repeated] at hd
    split at hd
    · cases hd
    · rwa [List.mem_singleton.mp hd]
  | succ fuel ih =>
    -- The repetition goes on from the places ahead that a step leads to.
    have hahead : ∀ d ∈ (step c).filter fun d => c.position < d.position, P d :=
      fun d hd => hstep c hc d (List.mem_filter.mp hd).1
    have honward := gathered_invariant ih hahead (c.position :: seen, []) fun d hd => by cases hd
    intro d hd
    rw [repeated] at hd
    split at hd
    · cases hd
    · -- The place itself stands before or after those that follow it.
      cases greedy with
      | true =>
        rcases List.mem_append.mp hd with hd | hd
        · exact honward d hd
        · rwa [List.mem_singleton.mp hd]
      | false =>
        rcases List.mem_cons.mp hd with rfl | hd
        · exact hc
        · exact honward d hd

/-- **What every match keeps.** A property that survives the step over a character and the remembering of
a piece of text holds at every end of a match if it holds at its start. -/
theorem ends_invariant {P : Cursor → Prop}
    (advance : ∀ (c : Cursor) (x : Char) (rest : List Char), c.rest = x :: rest → P c →
      P { c with position := c.position + 1, previous := some x, rest })
    (remember : ∀ (c : Cursor) (g : Nat × List Char), P c → P { c with groups := g :: c.groups })
    (p : Pattern) (c : Cursor) (hc : P c) : ∀ d ∈ p.ends c, P d := by
  -- By induction on the pattern, with the cursor left open, since a sequence goes on from where it has come.
  induction p generalizing c with
  | nothing =>
    intro d hd
    rwa [List.mem_singleton.mp hd]
  | one allowed =>
    intro d hd
    rw [ends] at hd
    split at hd
    · cases hd
    next x rest hrest =>
      split at hd
      · rw [List.mem_singleton.mp hd]
        exact advance c x rest hrest hc
      · cases hd
  | between allowed =>
    intro d hd
    rw [ends] at hd
    split at hd
    · rwa [List.mem_singleton.mp hd]
    · cases hd
  | seq a b iha ihb =>
    intro d hd
    obtain ⟨m, hm, hd⟩ := List.mem_flatMap.mp (Cursor.mem_of_mem_distinct hd)
    exact ihb m (iha c hc m hm) d hd
  | alt a b iha ihb =>
    intro d hd
    rcases List.mem_append.mp (Cursor.mem_of_mem_distinct hd) with hd | hd
    · exact iha c hc d hd
    · exact ihb c hc d hd
  | star greedy a ih =>
    -- How often a pattern is repeated is bounded by the text that is left, which has a lemma of its own.
    exact repeated_invariant ih greedy c.rest.length c [] hc
  | group n a ih =>
    intro d hd
    obtain ⟨e, he, rfl⟩ := List.mem_map.mp hd
    exact remember e _ (ih c hc e he)

/-- Every match stays in the text. -/
theorem at_of_mem_ends {text : List Char} {p : Pattern} {c d : Cursor} (hc : c.At text)
    (hd : d ∈ p.ends c) : d.At text := by
  refine ends_invariant (P := Cursor.At text) ?_ (fun _ _ h => h) p c hc d hd
  rintro c x rest hrest ⟨passed, htext, hposition, -⟩
  refine ⟨passed ++ [x], ?_, ?_, ?_⟩
  · rw [htext, hrest, List.append_assoc]
    rfl
  · rw [hposition, List.length_append]
    rfl
  · rw [List.getLast?_append]
    rfl

/-! ### Groups -/

/-- Whether a group takes part in every match of a pattern. -/
def binds : Pattern → Nat → Bool
  | .seq a b, n => a.binds n || b.binds n
  | .alt a b, n => a.binds n && b.binds n
  | .group m a, n => m == n || a.binds n
  | _, _ => false

/-- A group has taken part if some piece is remembered for it. -/
theorem isSome_group?_iff (c : Cursor) (n : Nat) :
    (c.group? n).isSome ↔ ∃ taken, (n, taken) ∈ c.groups := by
  unfold Cursor.group?
  induction c.groups with
  | nil => simp
  | cons g l ih =>
    obtain ⟨m, taken⟩ := g
    -- The latest piece of a group is found first, but any piece of it will do.
    by_cases h : n = m
    · subst h
      simp
    · have hne : (n == m) = false := by simp [h]
      simp [List.lookup_cons, hne, ih, h]

/-- A group that has been remembered stays remembered. -/
theorem isSome_group?_of_mem_ends {p : Pattern} {n : Nat} {c d : Cursor} (hc : (c.group? n).isSome)
    (hd : d ∈ p.ends c) : (d.group? n).isSome := by
  refine ends_invariant (P := fun c => (c.group? n).isSome) (fun _ _ _ _ h => h) ?_ p c hc d hd
  intro c g h
  obtain ⟨taken, hmem⟩ := (isSome_group?_iff c n).mp h
  exact (isSome_group?_iff _ n).mpr ⟨taken, List.mem_cons_of_mem g hmem⟩

/-- **A group that a pattern binds has taken part in the match.** -/
theorem isSome_group?_of_binds {p : Pattern} {n : Nat} (hp : p.binds n) {c d : Cursor}
    (hd : d ∈ p.ends c) : (d.group? n).isSome := by
  -- By induction on the pattern. Only the last three constructors can bind a group.
  induction p generalizing c d with
  | nothing | one | between | star => cases hp
  | seq a b iha ihb =>
    obtain ⟨m, hm, hd⟩ := List.mem_flatMap.mp (Cursor.mem_of_mem_distinct hd)
    rcases Bool.or_eq_true_iff.mp hp with ha | hb
    · exact isSome_group?_of_mem_ends (iha ha hm) hd
    · exact ihb hb hd
  | alt a b iha ihb =>
    obtain ⟨ha, hb⟩ := Bool.and_eq_true_iff.mp hp
    rcases List.mem_append.mp (Cursor.mem_of_mem_distinct hd) with hd | hd
    · exact iha ha hd
    · exact ihb hb hd
  | group m a ih =>
    obtain ⟨e, he, rfl⟩ := List.mem_map.mp hd
    rcases Bool.or_eq_true_iff.mp hp with h | h
    · rw [beq_iff_eq] at h
      subst h
      exact (isSome_group?_iff _ _).mpr ⟨_, List.mem_cons_self⟩
    · obtain ⟨taken, hmem⟩ := (isSome_group?_iff e n).mp (ih h he)
      exact (isSome_group?_iff _ _).mpr ⟨taken, List.mem_cons_of_mem _ hmem⟩

/-- Whether a group stands anywhere in a pattern. -/
def mentions : Pattern → Nat → Bool
  | .seq a b, n => a.mentions n || b.mentions n
  | .alt a b, n => a.mentions n || b.mentions n
  | .star _ a, n => a.mentions n
  | .group m a, n => m == n || a.mentions n
  | _, _ => false

/-- **A pattern leaves the groups alone that it does not mention.** -/
theorem group?_of_mem_ends {p : Pattern} {n : Nat} (hp : p.mentions n = false) {c d : Cursor}
    (hd : d ∈ p.ends c) : d.group? n = c.group? n := by
  -- By induction on the pattern: a repetition keeps what it finds, and a group remembers only its own piece.
  induction p generalizing c d with
  | nothing => rw [List.mem_singleton.mp hd]
  | one allowed =>
    rw [ends] at hd
    split at hd
    · cases hd
    · split at hd
      · rw [List.mem_singleton.mp hd]
        rfl
      · cases hd
  | between allowed =>
    rw [ends] at hd
    split at hd
    · rw [List.mem_singleton.mp hd]
    · cases hd
  | seq a b iha ihb =>
    obtain ⟨ha, hb⟩ := Bool.or_eq_false_iff.mp hp
    obtain ⟨m, hm, hd⟩ := List.mem_flatMap.mp (Cursor.mem_of_mem_distinct hd)
    exact (ihb hb hd).trans (iha ha hm)
  | alt a b iha ihb =>
    obtain ⟨ha, hb⟩ := Bool.or_eq_false_iff.mp hp
    rcases List.mem_append.mp (Cursor.mem_of_mem_distinct hd) with hd | hd
    · exact iha ha hd
    · exact ihb hb hd
  | star greedy a ih =>
    refine repeated_invariant (P := fun d => d.group? n = c.group? n) ?_ greedy c.rest.length c [] rfl d hd
    exact fun m hm e he => (ih hp he).trans hm
  | group m a ih =>
    obtain ⟨hm, ha⟩ := Bool.or_eq_false_iff.mp hp
    obtain ⟨e, he, rfl⟩ := List.mem_map.mp hd
    -- What is remembered under another number is not looked at.
    have hother : (n == m) = false := by simpa using Ne.symm (beq_eq_false_iff_ne.mp hm)
    unfold Cursor.group?
    rw [List.lookup_cons, hother]
    exact ih ha he

/-! ### The last character of a match -/

/-- A sequence of patterns that ends with a character matches up to that character. -/
theorem previous_of_mem_ends_all {l : List Pattern} {x : Char} {c d : Cursor}
    (hd : d ∈ (all (l ++ [char x])).ends c) : d.previous = some x := by
  induction l generalizing c with
  | nil =>
    have hone : d ∈ (Pattern.one (· == x)).ends c := hd
    rw [ends] at hone
    split at hone
    · cases hone
    next y rest _ =>
      split at hone
      next hy =>
        rw [List.mem_singleton.mp hone, beq_iff_eq.mp hy]
      next => cases hone
  | cons p l ih =>
    -- The list behind `p` is not empty, so its end is the end of the whole.
    obtain ⟨q, r, hqr⟩ : ∃ q r, l ++ [char x] = q :: r :=
      List.exists_cons_of_ne_nil (List.append_ne_nil_of_right_ne_nil l (List.cons_ne_nil _ _))
    rw [List.cons_append, hqr, all, ← hqr] at hd
    obtain ⟨m, -, hd⟩ := List.mem_flatMap.mp (Cursor.mem_of_mem_distinct hd)
    exact ih hd

/-! ### The cuts of a match -/

/-- **A match cuts inside its text**: the place at which it ends is one of the text, what is left is the
text from there on, and the given groups have taken part. -/
structure CutsInside (text : List Char) (groups : List Nat) (c : Cursor) : Prop where
  position_le : c.position ≤ text.length
  rest_eq : c.rest = text.drop c.position
  groups_taken : ∀ g ∈ groups, (c.group? g).isSome

variable {p : Pattern} {groups : List Nat} {text : List Char} {c : Cursor}

/-- From a cursor in the text, a match cuts inside of it. -/
theorem cutsInside_of_mem_ends (hp : ∀ g ∈ groups, p.binds g) {start : Cursor} (hstart : start.At text)
    (hc : c ∈ p.ends start) : CutsInside text groups c where
  position_le := (at_of_mem_ends hstart hc).rest_eq.1
  rest_eq := (at_of_mem_ends hstart hc).rest_eq.2
  groups_taken := fun g hg => isSome_group?_of_binds (hp g hg) hc

theorem at_start (text : List Char) : Cursor.At text { rest := text } :=
  ⟨[], rfl, rfl, rfl⟩

/-- The match at the start of a text cuts inside it. -/
theorem cutsInside_of_match? (hp : ∀ g ∈ groups, p.binds g) (hc : p.match? text = some c) :
    CutsInside text groups c :=
  cutsInside_of_mem_ends hp (at_start text) (List.mem_of_mem_head? (Option.mem_def.mpr hc))

/-- What a search finds is a match from some place of the text. -/
theorem exists_mem_ends_of_searchFrom? (passed : List Char) {rest : List Char}
    (hc : p.searchFrom? passed.length passed.getLast? rest = some c) :
    ∃ start : Cursor, start.At (passed ++ rest) ∧ c ∈ p.ends start := by
  induction rest generalizing passed with
  | nil =>
    exact ⟨_, ⟨passed, rfl, rfl, rfl⟩, List.mem_of_mem_head? (Option.mem_def.mpr hc)⟩
  | cons x rest ih =>
    rw [searchFrom?] at hc
    split at hc
    next d hd =>
      cases hc
      exact ⟨_, ⟨passed, rfl, rfl, rfl⟩, List.mem_of_mem_head? (Option.mem_def.mpr hd)⟩
    next =>
      -- No match starts here, so the search has passed one character more.
      have hlast : some x = (passed ++ [x]).getLast? := by simp
      have hlength : passed.length + 1 = (passed ++ [x]).length := by simp
      rw [hlast, hlength] at hc
      obtain ⟨start, hstart, hmem⟩ := ih (passed ++ [x]) hc
      rw [List.append_assoc] at hstart
      exact ⟨start, hstart, hmem⟩

/-- The first match in a text cuts inside it. -/
theorem cutsInside_of_search? (hp : ∀ g ∈ groups, p.binds g) (hc : p.search? text = some c) :
    CutsInside text groups c := by
  obtain ⟨start, hstart, hmem⟩ := exists_mem_ends_of_searchFrom? [] hc
  exact cutsInside_of_mem_ends hp hstart hmem

end Pattern

end CodeAtlas
