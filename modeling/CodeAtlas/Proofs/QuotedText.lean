import CodeAtlas.Proofs.PatternMatch
import CodeAtlas.Source.Dart
import Mathlib.Data.List.TakeWhile

/-!
# The first quoted text of a line

The path of a directive is what `Dart.quotedPattern` finds in a line. What it finds can be said without
patterns: the first place where a quote, some text without quotes, and a quote again follow each other.
That is `Dart.firstQuoted?`, and `Dart.search?_quotedPattern` says that the two agree.

A pattern of the shape "some characters of a class" can end at every place of a run of such characters.
Every end passes a part of the run (`passes_of_mem_ends_many1`), and the end of the run is among them
(`exists_mem_ends_many1`). Here only the end of the run goes on with a quote, so there is one match at a
place or none.

What a line holds behind its first quoted text does not matter (`Dart.firstQuoted?_append`).
-/

namespace CodeAtlas

/-! ### Ends of repetitions -/

namespace Cursor

/-- **A cursor that has passed a piece of text.** -/
structure Passes (c : Cursor) (u : List Char) (d : Cursor) : Prop where
  rest_eq : c.rest = u ++ d.rest
  position_eq : d.position = c.position + u.length

theorem Passes.refl (c : Cursor) : c.Passes [] c where
  rest_eq := rfl
  position_eq := rfl

theorem Passes.trans {c d e : Cursor} {u v : List Char} (h : c.Passes u d) (h' : d.Passes v e) :
    c.Passes (u ++ v) e where
  rest_eq := by rw [h.rest_eq, h'.rest_eq, List.append_assoc]
  position_eq := by rw [h'.position_eq, h.position_eq, List.length_append, Nat.add_assoc]

/-- Two cursors at one position have the same text before them. -/
theorem Passes.rest_eq_of_position {c d e : Cursor} {u v : List Char} (h : c.Passes u d)
    (h' : c.Passes v e) (hposition : d.position = e.position) : d.rest = e.rest := by
  have happend : u ++ d.rest = v ++ e.rest := h.rest_eq.symm.trans h'.rest_eq
  have hlength : u.length = v.length := by
    have hd := h.position_eq
    have he := h'.position_eq
    omega
  exact (List.append_inj happend hlength).2

/-- No place is lost where places that are listed already are left out. -/
theorem exists_mem_distinct {d : Cursor} {l : List Cursor} {seen : List Nat} (h : d ∈ l)
    (hseen : d.position ∉ seen) : ∃ e ∈ distinct l seen, e.position = d.position := by
  -- Along the list: a place is left out only if it has been seen, and `d` is at a new one.
  induction l generalizing seen with
  | nil => cases h
  | cons a l ih =>
    rw [distinct]
    by_cases ha : seen.contains a.position = true
    · rw [if_pos ha]
      refine ih ?_ hseen
      rcases List.mem_cons.mp h with rfl | h
      · exact absurd (List.contains_iff_mem.mp ha) hseen
      · exact h
    · rw [if_neg ha]
      by_cases hposition : d.position = a.position
      · exact ⟨a, List.mem_cons_self, hposition.symm⟩
      · have hd : d ∈ l := (List.mem_cons.mp h).resolve_left fun h => hposition (h ▸ rfl)
        obtain ⟨e, he, heq⟩ := ih hd fun h => (List.mem_cons.mp h).elim hposition hseen
        exact ⟨e, List.mem_cons_of_mem a he, heq⟩

end Cursor

namespace Pattern

open Cursor (Passes)

/-- One character is passed, and no group is touched. -/
theorem mem_ends_one {p : Char → Bool} {c d : Cursor} (h : d ∈ (one p).ends c) :
    ∃ x, p x = true ∧ c.Passes [x] d ∧ d.groups = c.groups := by
  rw [ends] at h
  split at h
  · cases h
  next x rest hrest =>
    split at h
    next hx =>
      rw [List.mem_singleton.mp h]
      exact ⟨x, hx, ⟨hrest, rfl⟩, rfl⟩
    next => cases h

/-- A character of the class is passed. -/
theorem exists_mem_ends_one {p : Char → Bool} {c : Cursor} {x : Char} {rest : List Char}
    (hrest : c.rest = x :: rest) (hx : p x = true) : ∃ d ∈ (one p).ends c, d.rest = rest := by
  refine ⟨{ c with position := c.position + 1, previous := some x, rest }, ?_, rfl⟩
  rw [ends, hrest]
  dsimp only
  rw [if_pos hx]
  exact List.mem_singleton_self _

/-- A match of one pattern and a match of another behind it are a match of the sequence. -/
theorem exists_mem_ends_seq {a b : Pattern} {c m d : Cursor} (hm : m ∈ a.ends c) (hd : d ∈ b.ends m) :
    ∃ e ∈ (seq a b).ends c, e.position = d.position :=
  Cursor.exists_mem_distinct (List.mem_flatMap.mpr ⟨m, hm, hd⟩) List.not_mem_nil

/-- A match of a sequence is a match of both parts, one behind the other. -/
theorem mem_ends_seq {a b : Pattern} {c d : Cursor} (h : d ∈ (seq a b).ends c) :
    ∃ m ∈ a.ends c, d ∈ b.ends m :=
  List.mem_flatMap.mp (Cursor.mem_of_mem_distinct h)

theorem exists_mem_ends_group {p : Pattern} {c d : Cursor} (n : Nat) (h : d ∈ p.ends c) :
    ∃ e ∈ (group n p).ends c, e.rest = d.rest :=
  ⟨_, List.mem_map_of_mem h, rfl⟩

/-- **A repetition passes characters of the class only.** -/
theorem passes_of_mem_ends_star {p : Char → Bool} {greedy : Bool} {c d : Cursor}
    (h : d ∈ (star greedy (one p)).ends c) : ∃ u, (∀ x ∈ u, p x = true) ∧ c.Passes u d := by
  refine repeated_invariant (P := fun d => ∃ u, (∀ x ∈ u, p x = true) ∧ c.Passes u d) ?_ greedy
    c.rest.length c [] ⟨[], by simp, .refl c⟩ d h
  rintro m ⟨u, hu, hm⟩ e he
  obtain ⟨x, hx, hpass, -⟩ := mem_ends_one he
  refine ⟨u ++ [x], ?_, hm.trans hpass⟩
  intro y hy
  rcases List.mem_append.mp hy with hy | hy
  · exact hu y hy
  · rwa [List.mem_singleton.mp hy]

theorem not_contains {n : Nat} {seen : List Nat} (h : ∀ m ∈ seen, m < n) : ¬seen.contains n = true :=
  fun hn => Nat.lt_irrefl n (h n (List.contains_iff_mem.mp hn))

/-- A repetition reaches the end of a run of the class: no place ahead has been reached before. -/
theorem exists_mem_repeated {p : Char → Bool} (greedy : Bool) {u rest : List Char}
    (hu : ∀ x ∈ u, p x = true) {fuel : Nat} (hfuel : u.length ≤ fuel) {c : Cursor}
    (hrest : c.rest = u ++ rest) {seen : List Nat} (hseen : ∀ n ∈ seen, n < c.position) :
    ∃ d ∈ (repeated (one p).ends greedy fuel c seen).2, d.rest = rest := by
  -- Along the run. The places that were seen lie before the cursor, so the next one is new.
  induction u generalizing fuel c seen with
  | nil =>
    refine ⟨c, ?_, hrest⟩
    have hnew : ¬seen.contains c.position = true := not_contains hseen
    cases fuel with
    | zero =>
      rw [repeated, if_neg hnew]
      exact List.mem_singleton_self c
    | succ fuel =>
      rw [repeated, if_neg hnew]
      cases greedy
      · exact List.mem_cons_self
      · exact List.mem_append_right _ (List.mem_singleton_self c)
  | cons x u ih =>
    cases fuel with
    | zero => exact absurd hfuel (Nat.not_succ_le_zero _)
    | succ fuel =>
      let next : Cursor := { c with position := c.position + 1, previous := some x, rest := u ++ rest }
      have hstep : (one p).ends c = [next] := by
        rw [ends, hrest]
        exact if_pos (hu x List.mem_cons_self)
      have honward : ([next].filter fun d => c.position < d.position) = [next] := by
        simp [next]
      have hseen' : ∀ n ∈ c.position :: seen, n < next.position := by
        intro n hn
        rcases List.mem_cons.mp hn with rfl | hn
        · exact Nat.lt_succ_self _
        · exact Nat.lt_succ_of_lt (hseen n hn)
      obtain ⟨d, hd, hdrest⟩ := ih (fun y hy => hu y (List.mem_cons_of_mem x hy))
        (Nat.le_of_succ_le_succ hfuel) (c := next) rfl hseen'
      refine ⟨d, ?_, hdrest⟩
      rw [repeated, if_neg (not_contains hseen), hstep]
      simp only [honward, List.foldl_cons, List.foldl_nil, List.nil_append]
      cases greedy
      · exact List.mem_cons_of_mem c hd
      · exact List.mem_append_left _ hd

/-- **A repetition reaches the end of a run of the class.** -/
theorem exists_mem_ends_star {p : Char → Bool} (greedy : Bool) {c : Cursor} {u rest : List Char}
    (hu : ∀ x ∈ u, p x = true) (hrest : c.rest = u ++ rest) :
    ∃ d ∈ (star greedy (one p)).ends c, d.rest = rest := by
  have hfuel : u.length ≤ c.rest.length := by
    rw [hrest, List.length_append]
    exact Nat.le_add_right _ _
  exact exists_mem_repeated greedy hu hfuel hrest fun n hn => by cases hn

/-- One character of a class or more pass a part of a run. -/
theorem passes_of_mem_ends_many1 {p : Char → Bool} {c d : Cursor} (h : d ∈ (many1 (one p)).ends c) :
    ∃ u, u ≠ [] ∧ (∀ x ∈ u, p x = true) ∧ c.Passes u d := by
  obtain ⟨m, hm, hd⟩ := mem_ends_seq h
  obtain ⟨x, hx, hfirst, -⟩ := mem_ends_one hm
  obtain ⟨u, hu, hmore⟩ := passes_of_mem_ends_star hd
  refine ⟨x :: u, List.cons_ne_nil x u, ?_, hfirst.trans hmore⟩
  intro y hy
  rcases List.mem_cons.mp hy with rfl | hy
  · exact hx
  · exact hu y hy

/-- One character of a class or more reach every place of a run behind its start. -/
theorem exists_mem_ends_many1 {p : Char → Bool} {c : Cursor} {u rest : List Char} (hne : u ≠ [])
    (hu : ∀ x ∈ u, p x = true) (hrest : c.rest = u ++ rest) :
    ∃ d ∈ (many1 (one p)).ends c, d.rest = rest := by
  obtain ⟨x, u, rfl⟩ := List.exists_cons_of_ne_nil hne
  obtain ⟨m, hm, hmrest⟩ := exists_mem_ends_one (p := p) hrest (hu x List.mem_cons_self)
  obtain ⟨d, hd, hdrest⟩ := exists_mem_ends_star true (fun y hy => hu y (List.mem_cons_of_mem x hy)) hmrest
  obtain ⟨e, he, hposition⟩ := exists_mem_ends_seq hm hd
  refine ⟨e, he, ?_⟩
  -- The place of `d` is listed, maybe by way of another match; the text before it is the same.
  obtain ⟨_, -, -, hpass⟩ := passes_of_mem_ends_many1 he
  obtain ⟨_, -, hfirst, -⟩ := mem_ends_one hm
  obtain ⟨_, -, hmore⟩ := passes_of_mem_ends_star hd
  rw [hpass.rest_eq_of_position (hfirst.trans hmore) hposition, hdrest]

end Pattern

/-! ### Quoted texts -/

namespace Dart

open Pattern

/-- **The quoted text at the start of a text**: what stands between a quote and the next one, if that is
not nothing. -/
def quoted? : List Char → Option (List Char)
  | [] => none
  | q :: rest =>
    let inside := rest.takeWhile (!isQuote ·)
    if isQuote q ∧ inside ≠ [] ∧ rest.any isQuote then some inside else none

/-- **The first quoted text of a line.** -/
def firstQuoted? : List Char → Option (List Char)
  | [] => none
  | c :: rest => (quoted? (c :: rest)).or (firstQuoted? rest)

/-- A text with a quote falls into what is before its first one and the rest. -/
theorem exists_first_quote {s : List Char} (h : s.any isQuote = true) :
    ∃ q rest, isQuote q = true ∧ s = s.takeWhile (!isQuote ·) ++ q :: rest := by
  have hsplit := List.takeWhile_append_dropWhile (p := (!isQuote ·)) (l := s)
  have hhead := List.head?_dropWhile_not (!isQuote ·) s
  -- What is left behind the other characters begins with a quote, since there is one.
  cases hdrop : s.dropWhile (!isQuote ·) with
  | nil =>
    obtain ⟨x, hx, hquote⟩ := List.any_eq_true.mp h
    have hno := List.dropWhile_eq_nil_iff.mp hdrop x hx
    rw [hquote] at hno
    cases hno
  | cons q rest =>
    rw [hdrop] at hsplit hhead
    exact ⟨q, rest, by simpa using hhead, hsplit.symm⟩

theorem takeWhile_quote {u : List Char} (hu : ∀ x ∈ u, (!isQuote x) = true) {q : Char}
    (hq : isQuote q = true) (rest : List Char) : (u ++ q :: rest).takeWhile (!isQuote ·) = u := by
  rw [List.takeWhile_append_of_pos hu, List.takeWhile_cons_of_neg (by simp [hq]), List.append_nil]

/-- A quoted text is a run without quotes between two of them. -/
theorem quoted?_eq_some_iff {s u : List Char} :
    quoted? s = some u ↔ ∃ q q' rest, s = q :: (u ++ q' :: rest) ∧ isQuote q = true ∧ isQuote q' = true ∧
      u ≠ [] ∧ ∀ x ∈ u, (!isQuote x) = true := by
  constructor
  · intro h
    cases s with
    | nil => cases h
    | cons q rest =>
      rw [quoted?] at h
      split at h
      next hquoted =>
        obtain ⟨hq, hne, hany⟩ := hquoted
        cases h
        -- The text that is read ends at the first quote behind the one that opens it.
        obtain ⟨q', tail, hq', hsplit⟩ := exists_first_quote hany
        refine ⟨q, q', tail, ?_, hq, hq', hne, fun x hx => List.mem_takeWhile_imp (p := (!isQuote ·)) hx⟩
        rw [← hsplit]
      next => cases h
  · rintro ⟨q, q', rest, rfl, hq, hq', hne, hu⟩
    have hany : (u ++ q' :: rest).any isQuote = true := by simp [hq']
    rw [quoted?]
    simp only [takeWhile_quote hu hq']
    exact if_pos ⟨hq, hne, hany⟩

/-- **Where the pattern matches, a quoted text stands**, and its group is that text. -/
theorem quoted?_of_mem_ends {c d : Cursor} (h : d ∈ quotedPattern.ends c) :
    quoted? c.rest = some (d.group 1) := by
  obtain ⟨a, ha, h⟩ := mem_ends_seq h
  obtain ⟨b, hb, h⟩ := mem_ends_seq h
  obtain ⟨e, he, rfl⟩ := List.mem_map.mp hb
  obtain ⟨q, hq, hopen, -⟩ := mem_ends_one ha
  obtain ⟨u, hne, hu, hinside⟩ := passes_of_mem_ends_many1 he
  obtain ⟨q', hq', hclose, hgroups⟩ := mem_ends_one h
  -- The group remembers what was passed inside of it.
  have htaken : a.rest.take (e.position - a.position) = u := by
    rw [hinside.position_eq, Nat.add_sub_cancel_left, hinside.rest_eq, List.take_left]
  have hgroup : d.group 1 = u := by
    rw [Cursor.group, Cursor.group?, hgroups, htaken]
    rfl
  rw [hgroup]
  have hclosed : e.rest = q' :: d.rest := hclose.rest_eq
  refine quoted?_eq_some_iff.mpr ⟨q, q', d.rest, ?_, hq, hq', hne, hu⟩
  rw [hopen.rest_eq, hinside.rest_eq, hclosed]
  rfl

/-- **Where a quoted text stands, the pattern matches.** -/
theorem exists_mem_ends_of_quoted? {c : Cursor} {u : List Char} (h : quoted? c.rest = some u) :
    ∃ d, d ∈ quotedPattern.ends c := by
  obtain ⟨q, q', rest, hrest, hq, hq', hne, hu⟩ := quoted?_eq_some_iff.mp h
  obtain ⟨a, ha, harest⟩ := exists_mem_ends_one hrest hq
  obtain ⟨e, he, herest⟩ := exists_mem_ends_many1 hne hu harest
  obtain ⟨g, hg, hgrest⟩ := exists_mem_ends_group 1 he
  obtain ⟨d, hd, -⟩ := exists_mem_ends_one (hgrest.trans herest) hq'
  obtain ⟨d, hd, -⟩ := exists_mem_ends_seq hg hd
  obtain ⟨d, hd, -⟩ := exists_mem_ends_seq ha hd
  exact ⟨d, hd⟩

/-- The first match at a place takes the quoted text there. -/
theorem group_head?_ends_quotedPattern (c : Cursor) :
    (quotedPattern.ends c).head?.map (·.group 1) = quoted? c.rest := by
  cases hends : quotedPattern.ends c with
  | nil =>
    -- No match means no quoted text.
    cases hquoted : quoted? c.rest with
    | none => rfl
    | some u =>
      obtain ⟨d, hd⟩ := exists_mem_ends_of_quoted? hquoted
      rw [hends] at hd
      cases hd
  | cons d l =>
    have hd : d ∈ quotedPattern.ends c := by
      rw [hends]
      exact List.mem_cons_self
    exact (quoted?_of_mem_ends hd).symm

/-- So a search from any place takes the first one from there on. -/
theorem searchFrom?_quotedPattern (position : Nat) (previous : Option Char) (raw : List Char) :
    (quotedPattern.searchFrom? position previous raw).map (·.group 1) = firstQuoted? raw := by
  induction raw generalizing position previous with
  | nil =>
    exact group_head?_ends_quotedPattern { position, previous, rest := [] }
  | cons c rest ih =>
    have hhere := group_head?_ends_quotedPattern { position, previous, rest := c :: rest }
    rw [searchFrom?, firstQuoted?, ← hhere]
    cases (quotedPattern.ends { position, previous, rest := c :: rest }).head? with
    | none => exact ih _ _
    | some d => rfl

/-- **What the pattern finds in a line is its first quoted text.** -/
theorem search?_quotedPattern (raw : List Char) :
    (quotedPattern.search? raw).map (·.group 1) = firstQuoted? raw :=
  searchFrom?_quotedPattern 0 none raw

/-! ### Text apart from the first quoted text -/

/-- A quoted text ends at the first quote of the rest, so nothing behind that quote matters. -/
theorem quoted?_cons_append {rest : List Char} (h : rest.any isQuote = true) (c : Char) (s : List Char) :
    quoted? (c :: (rest ++ s)) = quoted? (c :: rest) := by
  have hinside : (rest ++ s).takeWhile (!isQuote ·) = rest.takeWhile (!isQuote ·) := by
    obtain ⟨q, tail, hq, hsplit⟩ := exists_first_quote h
    have hmore : rest ++ s = rest.takeWhile (!isQuote ·) ++ q :: (tail ++ s) :=
      (congrArg (· ++ s) hsplit).trans (List.append_assoc _ _ _)
    rw [hmore, takeWhile_quote (fun x hx => List.mem_takeWhile_imp (p := (!isQuote ·)) hx) hq]
  have hany : (rest ++ s).any isQuote = true := by
    rw [List.any_append, h, Bool.true_or]
  rw [quoted?, quoted?]
  simp only [hinside, hany, h]

/-- Behind a quoted text there is a quote. -/
theorem any_isQuote_of_quoted? {c : Char} {rest u : List Char} (h : quoted? (c :: rest) = some u) :
    rest.any isQuote = true := by
  obtain ⟨q, q', tail, hrest, -, hq', -⟩ := quoted?_eq_some_iff.mp h
  rw [(List.cons.inj hrest).2]
  simp [hq']

/-- A text with a quoted text in it has a quote. -/
theorem any_isQuote_of_firstQuoted? {s u : List Char} (h : firstQuoted? s = some u) :
    s.any isQuote = true := by
  induction s with
  | nil => cases h
  | cons c rest ih =>
    have hrest : rest.any isQuote = true := by
      rcases Option.or_eq_some_iff.mp h with h | ⟨-, h⟩
      · exact any_isQuote_of_quoted? h
      · exact ih h
    rw [List.any_cons, hrest, Bool.or_true]

/-- What stands before the first quote of a line does not matter. -/
theorem firstQuoted?_append_left {a : List Char} (h : a.any isQuote = false) (s : List Char) :
    firstQuoted? (a ++ s) = firstQuoted? s := by
  induction a with
  | nil => rfl
  | cons c rest ih =>
    rw [List.any_cons, Bool.or_eq_false_iff] at h
    have hnone : quoted? (c :: (rest ++ s)) = none := by
      rw [quoted?, h.1]
      exact if_neg fun h => Bool.false_ne_true h.1
    rw [List.cons_append, firstQuoted?, hnone, Option.none_or, ih h.2]

/-- **What stands behind the first quoted text of a line does not matter.** -/
theorem firstQuoted?_append {a u : List Char} (h : firstQuoted? a = some u) (s : List Char) :
    firstQuoted? (a ++ s) = some u := by
  induction a with
  | nil => cases h
  | cons c rest ih =>
    rw [List.cons_append, firstQuoted?]
    rcases Option.or_eq_some_iff.mp h with h | ⟨hnone, h⟩
    · rw [quoted?_cons_append (any_isQuote_of_quoted? h), h, Option.some_or]
    · rw [quoted?_cons_append (any_isQuote_of_firstQuoted? h), hnone, Option.none_or, ih h]

/-- **Two lines that differ apart from their paths**: behind a quoted text, or before the first quote. -/
inductive PathApart : List Char → List Char → Prop
  | behind {start path : List Char} (quoted : firstQuoted? start = some path) (rest rest' : List Char) :
      PathApart (start ++ rest) (start ++ rest')
  | before {front front' : List Char} (plain : front.any isQuote = false) (plain' : front'.any isQuote = false)
      (rest : List Char) : PathApart (front ++ rest) (front' ++ rest)

/-- Lines that differ apart from their paths have the same path. -/
theorem PathApart.firstQuoted?_eq {raw raw' : List Char} (h : PathApart raw raw') :
    firstQuoted? raw = firstQuoted? raw' := by
  cases h with
  | behind quoted rest rest' =>
    rw [firstQuoted?_append quoted, firstQuoted?_append quoted]
  | before plain plain' rest =>
    rw [firstQuoted?_append_left plain, firstQuoted?_append_left plain']

end Dart

end CodeAtlas
