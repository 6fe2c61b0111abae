import CodeAtlas.Proofs.Extent
import CodeAtlas.Proofs.Parentheses

/-!
# Where headers and blocks end, exactly

A header and a block are found by walking down the lines until something holds. Both walks look at a window
of lines, and both have an answer whatever the lines hold: the least line of the window with the property,
or the last line of the window if none has it. This is `SearchEnds`, which is put together as a walk is
(`SearchEnds.here`, `SearchEnds.last`, `SearchEnds.next`).

* A header looks for the first line up to which no more parentheses are opened than closed, in a window of
  `headerLimit` lines (`searchEnds_headerLines`).
* A block looks for the first line that ends no deeper than the declaration starts, in a window that reaches
  to the end of the file (`searchEnds_closingOffset`).

The walks count from the line of the declaration on; `header_blockEnd_exact` says the same of the lines of a
whole file.
-/

namespace CodeAtlas

/-! ### Walks -/

/-- **Where a walk ends** over the indexes from `first` on and before `stop`: at the least index with the
property, or at the last one if there is none. -/
def SearchEnds (p : Nat → Prop) (first stop e : Nat) : Prop :=
  IsLeast {i | first ≤ i ∧ i < stop ∧ p i} e ∨
    (∀ i, first ≤ i → i < stop → ¬p i) ∧ first < stop ∧ e + 1 = stop

namespace SearchEnds

variable {p : Nat → Prop} {first stop e : Nat}

/-- The walk ends inside its window. -/
theorem lt_stop (h : SearchEnds p first stop e) : e < stop := by
  rcases h with hleast | ⟨-, -, hlast⟩
  · exact hleast.1.2.1
  · omega

/-- It ends where it starts if the property holds there. -/
theorem here (hstop : first < stop) (hp : p first) : SearchEnds p first stop first :=
  .inl ⟨⟨Nat.le_refl first, hstop, hp⟩, fun _ hi => hi.1⟩

/-- It ends where it starts if nothing follows. -/
theorem last (p : Nat → Prop) (first : Nat) : SearchEnds p first (first + 1) first := by
  by_cases hp : p first
  · exact here (Nat.lt_succ_self first) hp
  · refine .inr ⟨fun i hfirst hstop => ?_, Nat.lt_succ_self first, rfl⟩
    obtain rfl : i = first := by omega
    exact hp

/-- It goes on to the next index if the property does not hold where it starts. -/
theorem next (hp : ¬p first) (h : SearchEnds p (first + 1) stop e) : SearchEnds p first stop e := by
  -- The first index is no candidate, so the candidates are the same.
  have hlater : ∀ i, first ≤ i → p i → first + 1 ≤ i := by
    intro i hi hpi
    rcases Nat.eq_or_lt_of_le hi with rfl | hlt
    · exact absurd hpi hp
    · exact hlt
  rcases h with ⟨⟨hfirst, hstop, hpe⟩, hleast⟩ | ⟨hnone, hwindow, hlast⟩
  · refine .inl ⟨⟨by omega, hstop, hpe⟩, fun i ⟨hi, histop, hpi⟩ => ?_⟩
    exact hleast ⟨hlater i hi hpi, histop, hpi⟩
  · refine .inr ⟨fun i hi histop hpi => ?_, by omega, hlast⟩
    exact hnone i (hlater i hi hpi) histop hpi

/-- A walk may be counted from elsewhere. -/
theorem shift {q : Nat → Prop} (h : SearchEnds q first stop e) (k : Nat)
    (hpq : ∀ i, p (k + i) ↔ q i) : SearchEnds p (k + first) (k + stop) (k + e) := by
  -- Every index from `k + first` on is `k` behind one of the walk.
  have hback : ∀ i, k + first ≤ i → ∃ j, i = k + j ∧ first ≤ j := fun i hi =>
    ⟨i - k, by omega, by omega⟩
  rcases h with ⟨⟨hfirst, hstop, hqe⟩, hleast⟩ | ⟨hnone, hwindow, hlast⟩
  · refine .inl ⟨⟨by omega, by omega, (hpq e).2 hqe⟩, fun i ⟨hi, histop, hpi⟩ => ?_⟩
    obtain ⟨j, rfl, hj⟩ := hback i hi
    have hej : e ≤ j := hleast ⟨hj, by omega, (hpq j).1 hpi⟩
    omega
  · refine .inr ⟨fun i hi histop hpi => ?_, by omega, by omega⟩
    obtain ⟨j, rfl, hj⟩ := hback i hi
    exact hnone j hj (by omega) ((hpq j).1 hpi)

end SearchEnds

namespace SourceLine

/-! ### Headers -/

open Fragment (surplus)

/-- The parentheses that are open behind some code are those before it and the surplus of the code. -/
theorem parensAfter_eq (open_ : Int) (code : List Char) : parensAfter open_ code = open_ + surplus '(' ')' code :=
  Fragment.foldl_eq_add_excess _ _ (Fragment.countStep_eq (by decide)) open_ code

/-- How many more parentheses the code of some lines opens than it closes. -/
def surplusOf (lines : List SourceLine) : Int :=
  surplus '(' ')' (lines.flatMap (·.code))

/-- The surplus of lines is added up line by line. -/
theorem surplusOf_cons (l : SourceLine) (lines : List SourceLine) :
    surplusOf (l :: lines) = surplus '(' ')' l.code + surplusOf lines := by
  unfold surplusOf
  rw [List.flatMap_cons, Fragment.surplus_append]

theorem surplusOf_take_one (l : SourceLine) (rest : List SourceLine) :
    surplusOf ((l :: rest).take (0 + 1)) = surplus '(' ')' l.code := by
  rw [List.take_succ_cons, List.take_zero, surplusOf, List.flatMap_singleton]

/-- **The lines of a header** are a walk to the first line up to which all parentheses are closed, over as
many lines as a header may have. -/
theorem searchEnds_headerLines (n : Nat) (open_ : Int) {lines : List SourceLine} (h : lines ≠ []) :
    SearchEnds (fun e => open_ + surplusOf (lines.take (e + 1)) ≤ 0) 0 (min (n + 1) lines.length)
      (headerLines n open_ lines).2 := by
  -- The cases of the walk: no line, the last line of the window, a line at which it stops, one at which it
  -- goes on.
  fun_induction headerLines n open_ lines with
  | case1 => exact absurd rfl h
  | case2 open_ l rest =>
    have hwindow : min (0 + 1) (l :: rest).length = 0 + 1 := by
      rw [List.length_cons]
      omega
    rw [hwindow]
    exact .last _ 0
  | case3 n open_ l rest now hstop =>
    have hnow : now = open_ + surplusOf ((l :: rest).take (0 + 1)) := by
      rw [surplusOf_take_one, ← parensAfter_eq]
    rcases hstop with hclosed | rfl
    · refine .here ?_ (hnow ▸ hclosed)
      rw [List.length_cons]
      omega
    · have hwindow : min (n + 1 + 1) [l].length = 0 + 1 := by
        rw [List.length_singleton]
        omega
      rw [hwindow]
      exact .last _ 0
  | case4 n open_ l rest now hgo r ih =>
    obtain ⟨hopen, hrest⟩ := not_or.mp hgo
    have hwindow : min (n + 1 + 1) (l :: rest).length = 1 + min (n + 1) rest.length := by
      rw [List.length_cons]
      omega
    -- Behind the first line the surplus is what is open by then and that of the lines that follow.
    have hnow : ∀ e, open_ + surplusOf ((l :: rest).take (1 + e + 1)) ≤ 0
        ↔ now + surplusOf (rest.take (e + 1)) ≤ 0 := by
      intro e
      have htake : (l :: rest).take (1 + e + 1) = l :: rest.take (e + 1) := by
        rw [Nat.add_comm 1 e]
        rfl
      rw [htake, surplusOf_cons, ← Int.add_assoc, ← parensAfter_eq]
    have hfirst : ¬open_ + surplusOf ((l :: rest).take (0 + 1)) ≤ 0 := by
      rwa [surplusOf_take_one, ← parensAfter_eq]
    rw [hwindow, Nat.add_comm r.2 1]
    exact .next hfirst ((ih hrest).shift 1 hnow)

/-! ### Blocks -/

/-- **The end of a block** is a walk to the first line that ends at or below a depth. -/
theorem searchEnds_closingOffset (base : Nat) {lines : List SourceLine} (h : lines ≠ []) :
    SearchEnds (fun e => ∃ l, lines[e]? = some l ∧ l.depthAfter ≤ base) 0 lines.length
      (closingOffset base lines) := by
  -- As for headers, but the window has no limit.
  fun_induction closingOffset base lines with
  | case1 => exact absurd rfl h
  | case2 l rest hstop =>
    rcases hstop with hclosed | rfl
    · exact .here (Nat.succ_pos _) ⟨l, rfl, hclosed⟩
    · exact .last _ 0
  | case3 l rest hgo ih =>
    obtain ⟨hdeep, hrest⟩ := not_or.mp hgo
    have hfirst : ¬∃ l', (l :: rest)[0]? = some l' ∧ l'.depthAfter ≤ base := by
      rintro ⟨l', hl', hclosed⟩
      obtain rfl : l = l' := Option.some.inj hl'
      exact hdeep hclosed
    rw [List.length_cons, Nat.add_comm rest.length 1, Nat.add_comm (closingOffset base rest) 1]
    refine .next hfirst ((ih hrest).shift 1 fun i => ?_)
    rw [Nat.add_comm 1 i, List.getElem?_cons_succ]

/-! ### The lines of a file -/

/-- **Headers and blocks end exactly where they should.** From every line of a file on, the header ends on
the least line up to which no more parentheses are opened than closed, or on the last of its at most
`headerLimit` lines in the file if there is none. From every header on, the block ends on the least line, not
before the end of the header, that ends no deeper than the header starts, or on the last line of the file.
So both end on a line of the file. -/
theorem header_blockEnd_exact (lines : List SourceLine) :
    (∀ start < lines.length,
      let headerEnd := start + (header (lines.drop start)).2
      SearchEnds (fun e => surplusOf ((lines.take (e + 1)).drop start) ≤ 0) start
        (min (start + headerLimit) lines.length) headerEnd ∧ headerEnd < lines.length) ∧
    ∀ first last, ∀ (_ : first ≤ last) (_ : last < lines.length),
      let end_ := first + blockEnd (lines.drop first) (last - first)
      SearchEnds (fun e => ∃ l, lines[e]? = some l ∧ l.depthAfter ≤ lines[first].depth) last lines.length
        end_ ∧ end_ < lines.length := by
  refine ⟨fun start hstart => ?_, fun first last hle hlast => ?_⟩
  · intro headerEnd
    have hne : lines.drop start ≠ [] := by
      rw [Ne, List.drop_eq_nil_iff]
      omega
    -- The walk counts from the line of the declaration, so its window is shifted by `start`.
    have hwindow : min (start + headerLimit) lines.length
        = start + min headerLimit (lines.drop start).length := by
      rw [List.length_drop]
      omega
    have hends : SearchEnds (fun e => surplusOf ((lines.take (e + 1)).drop start) ≤ 0) start
        (min (start + headerLimit) lines.length) headerEnd := by
      rw [hwindow]
      refine (searchEnds_headerLines (headerLimit - 1) 0 hne).shift start fun i => ?_
      rw [List.drop_take, Nat.add_assoc, Nat.add_sub_cancel_left, Int.zero_add]
    exact ⟨hends, Nat.lt_of_lt_of_le hends.lt_stop (Nat.min_le_right _ _)⟩
  · intro end_
    have hne : lines.drop last ≠ [] := by
      rw [Ne, List.drop_eq_nil_iff]
      omega
    have hlength : last + (lines.drop last).length = lines.length := by
      rw [List.length_drop]
      omega
    -- The walk starts at the end of the header.
    have hend : last + closingOffset lines[first].depth (lines.drop last) = end_ := by
      have hbase : ((lines.drop first).head?.map (·.depth)).getD 0 = lines[first].depth := by
        rw [List.head?_drop, List.getElem?_eq_getElem]
        rfl
      have hdrop : (lines.drop first).drop (last - first) = lines.drop last := by
        rw [List.drop_drop, Nat.add_sub_cancel' hle]
      change _ = first + ((last - first) + closingOffset _ ((lines.drop first).drop (last - first)))
      rw [hbase, hdrop]
      omega
    have hends := (searchEnds_closingOffset lines[first].depth hne).shift last
      (p := fun e => ∃ l, lines[e]? = some l ∧ l.depthAfter ≤ lines[first].depth)
      fun i => by rw [List.getElem?_drop]
    rw [hlength, hend] at hends
    exact ⟨hends, hends.lt_stop⟩

/-- A function whose header runs over three lines, with a line behind it: the header ends on the line that
closes the parenthesis, and the block on the line with the brace that closes it. -/
theorem header_blockEnd_exact_function :
    let lines := ofSource "fun f(\n  a: Int\n) \x7b\n  g(a)\n\x7d\nval x = 1\n".toList
    (0 < lines.length ∧ SearchEnds (fun e => surplusOf (lines.take (e + 1)) ≤ 0) 0 6 2) ∧
      (0 ≤ 2 ∧ 2 < lines.length ∧
        SearchEnds (fun e => ∃ l, lines[e]? = some l ∧ l.depthAfter ≤ 0) 2 6 4) := by
  intro lines
  have hlength : lines.length = 6 := by decide +kernel
  have hheader : 0 + (header (lines.drop 0)).2 = 2 := by decide +kernel
  have hblock : 0 + blockEnd (lines.drop 0) (2 - 0) = 4 := by decide +kernel
  have hdepth : ∀ h : 0 < lines.length, lines[0].depth = 0 := by decide +kernel
  -- The two ends that were evaluated are the ones that the general statement speaks of.
  obtain ⟨hheaders, hblocks⟩ := header_blockEnd_exact lines
  have hfirst : 0 < lines.length := by omega
  have hlast : 2 < lines.length := by omega
  obtain ⟨hends, -⟩ := hheaders 0 hfirst
  obtain ⟨hblockEnds, -⟩ := hblocks 0 2 (by decide) hlast
  rw [hheader, hlength] at hends
  simp only [hblock, hlength, hdepth] at hblockEnds
  exact ⟨⟨hfirst, hends⟩, by decide, hlast, hblockEnds⟩

end SourceLine

end CodeAtlas
