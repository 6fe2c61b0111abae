import CodeAtlas.Proofs.FragmentCuts
import CodeAtlas.Proofs.TopLevelParts
import Mathlib.Order.Bounds.Basic

/-!
# The parenthesis that closes another one

`Fragment.closing?` and `Fragment.matchingParen` look for the end of a list in parentheses by counting. This
module says what the count finds, in texts of any content.

The count starts at one, behind the parenthesis that opens the list, and it ends where it would come to zero.
So it is at least one wherever it has gone on (`StaysOpen`), and there are two ways to end
(`closingFrom?_cases`): at a bracket that takes the count from one to zero, or at the end of the text, with a
count that has never been there. Of two brackets that take it to zero the first one is found
(`StaysOpen.prefix_of_closed`). In terms of the texts alone:

* a list is closed by the parenthesis in front of which everything is `Balanced`, and by no other one
  (`closing?_cons_eq_some_iff`);
* a list is not closed if no parenthesis has a balanced text in front of it (`closing?_cons_eq_none_iff`).

Readers that need a place in the text, and not what stands before it, count in bytes. A character takes one to
four of them, so a beginning of a text is told by its bytes (`eq_of_size_eq`), and `matchingParen_least` says
of offsets what the lemmas above say of beginnings.
-/

namespace CodeAtlas.Fragment

/-! ### Balanced texts -/

/-- **How many more brackets of one kind a text opens than it closes.** -/
def surplus (opening closing : Char) (s : List Char) : Int :=
  excess (· == opening) (· == closing) s

/-- **Every bracket of the kind is closed behind it**: as many are closed as are opened, and up to no place
more. -/
structure Balanced (opening closing : Char) (s : List Char) : Prop where
  total : surplus opening closing s = 0
  beginnings : ∀ p, p <+: s → 0 ≤ surplus opening closing p

/-- **The count never comes to zero** in a text that is read from a level on. -/
def StaysOpen (opening closing : Char) (level : Int) (s : List Char) : Prop :=
  ∀ p, p <+: s → 1 ≤ level + surplus opening closing p

section Counting

variable {opening closing : Char}

@[simp]
theorem surplus_nil : surplus opening closing [] = 0 :=
  excess_nil _ _

/-- The surplus of a text, character by character. -/
theorem surplus_cons (c : Char) (s : List Char) :
    surplus opening closing (c :: s) = surplus opening closing [c] + surplus opening closing s :=
  excess_cons _ _ c s

theorem surplus_append (a b : List Char) :
    surplus opening closing (a ++ b) = surplus opening closing a + surplus opening closing b :=
  excess_append _ _ a b

theorem surplus_opening (hne : opening ≠ closing) : surplus opening closing [opening] = 1 := by
  simp [surplus, excess, hne]

theorem surplus_closing (hne : opening ≠ closing) : surplus opening closing [closing] = -1 := by
  simp [surplus, excess, hne.symm]

/-- A count that is at one or more stays so without any text. -/
theorem StaysOpen.nil {level : Int} (h : 1 ≤ level) : StaysOpen opening closing level [] := by
  intro p hp
  rw [List.prefix_nil.1 hp, surplus_nil, Int.add_zero]
  exact h

/-- A count stays up if it is up before a character and stays up behind it. -/
theorem StaysOpen.cons {level : Int} (hlevel : 1 ≤ level) {c : Char} {s : List Char}
    (h : StaysOpen opening closing (level + surplus opening closing [c]) s) :
    StaysOpen opening closing level (c :: s) := by
  intro p hp
  rcases List.prefix_cons_iff.1 hp with rfl | ⟨q, rfl, hq⟩
  · rw [surplus_nil, Int.add_zero]
    exact hlevel
  · rw [surplus_cons, ← Int.add_assoc]
    exact h q hq

/-- In a balanced text, a count that starts at one ends at one and never comes to zero. -/
theorem balanced_iff {s : List Char} :
    Balanced opening closing s ↔ StaysOpen opening closing 1 s ∧ 1 + surplus opening closing s = 1 := by
  -- Both sides say the same of each beginning, with the count shifted by the parenthesis that is open.
  constructor
  · intro h
    refine ⟨fun p hp => ?_, ?_⟩
    · have := h.beginnings p hp
      omega
    · rw [h.total]
      rfl
  · rintro ⟨hopen, htotal⟩
    refine ⟨by omega, fun p hp => ?_⟩
    have := hopen p hp
    omega

/-! ### The search for the bracket that closes -/

variable (hne : opening ≠ closing)

include hne

/-- **One step of the count**: it ends at a bracket that would take it to zero, and goes on behind every other
character. -/
theorem closingFrom?_cons (level : Int) (c : Char) (s : List Char) :
    closingFrom? opening closing level (c :: s) =
      if c = closing ∧ level = 1 then some ([], s)
      else (closingFrom? opening closing (level + surplus opening closing [c]) s).map
        fun r => (c :: r.1, r.2) := by
  have hstop : c = closing ∧ level - 1 = 0 ↔ c = closing ∧ level = 1 := and_congr_right fun _ => by omega
  rw [closingFrom?]
  dsimp only
  rw [countStep_eq hne]
  exact if_congr hstop rfl rfl

/-- **How the count ends.** The induction is along the text, and its invariant is that the count is at least
one. -/
theorem closingFrom?_cases {level : Int} (hlevel : 1 ≤ level) (text : List Char) :
    (closingFrom? opening closing level text = none ∧ StaysOpen opening closing level text) ∨
      ∃ a b, closingFrom? opening closing level text = some (a, b) ∧ text = a ++ closing :: b ∧
        level + surplus opening closing a = 1 ∧ StaysOpen opening closing level a := by
  -- By induction on the text, at any level of at least one.
  induction text generalizing level with
  | nil => exact .inl ⟨rfl, .nil hlevel⟩
  | cons c text ih =>
    rw [closingFrom?_cons hne]
    split
    next hstop =>
      obtain ⟨rfl, rfl⟩ := hstop
      exact .inr ⟨[], text, rfl, rfl, rfl, .nil hlevel⟩
    next hgo =>
      -- The count goes on: a closing bracket is met above one, and no other character lowers the count.
      have hnext : 1 ≤ level + surplus opening closing [c] := by
        by_cases hclose : c = closing
        · have hdeep : level ≠ 1 := fun hone => hgo ⟨hclose, hone⟩
          rw [hclose, surplus_closing hne]
          omega
        · have hnone : [c].countP (· == closing) = 0 := by
            rw [List.countP_singleton, if_neg (by simpa using hclose)]
          have hopens : 0 ≤ surplus opening closing [c] := by
            unfold surplus excess
            omega
          omega
      rcases ih hnext with ⟨hnone, hopen⟩ | ⟨a, b, hsome, rfl, htotal, hopen⟩
      · refine .inl ⟨?_, hopen.cons hlevel⟩
        rw [hnone]
        rfl
      · refine .inr ⟨c :: a, b, ?_, rfl, ?_, hopen.cons hlevel⟩
        · rw [hsome]
          rfl
        · rw [surplus_cons, ← Int.add_assoc]
          exact htotal

/-- The two brackets around a text cancel. -/
theorem surplus_enclosed (inner : List Char) :
    surplus opening closing (opening :: (inner ++ [closing])) = surplus opening closing inner := by
  rw [surplus_cons, surplus_append, surplus_opening hne, surplus_closing hne]
  omega

/-- A balanced text stays balanced in brackets. -/
theorem Balanced.enclose {inner : List Char} (h : Balanced opening closing inner) :
    Balanced opening closing (opening :: (inner ++ [closing])) := by
  refine ⟨(surplus_enclosed hne inner).trans h.total, fun p hp => ?_⟩
  rcases List.prefix_cons_iff.1 hp with rfl | ⟨q, rfl, hq⟩
  · exact Int.le_refl 0
  · -- A beginning is all of the text, or it lies before the last bracket.
    rcases List.prefix_concat_iff.1 hq with rfl | hq
    · exact Int.le_of_eq ((surplus_enclosed hne inner).trans h.total).symm
    · have hinside := h.beginnings q hq
      rw [surplus_cons, surplus_opening hne]
      omega

/-- No bracket takes the count from one to zero in a text in which it stays open. -/
theorem StaysOpen.ne_one {level : Int} {s a : List Char} (h : StaysOpen opening closing level s)
    (ha : a ++ [closing] <+: s) : level + surplus opening closing a ≠ 1 := by
  have hbehind := h _ ha
  rw [surplus_append, surplus_closing hne] at hbehind
  omega

/-- **The first bracket that takes the count to zero is found**: what stays open up to a bracket ends no later
than anything behind which the count is at one. -/
theorem StaysOpen.prefix_of_closed {level : Int} {a b r s : List Char}
    (ha : StaysOpen opening closing level a) (hb : level + surplus opening closing b = 1)
    (h : a ++ closing :: r = b ++ closing :: s) : a <+: b := by
  rcases List.append_eq_append_iff.1 h with ⟨x, rfl, -⟩ | ⟨x, rfl, hx⟩
  · exact List.prefix_append a x
  · cases x with
    | nil => exact (List.append_nil b).symm ▸ List.prefix_rfl
    | cons d x =>
      -- The bracket behind `b` would stand inside of `a`.
      obtain ⟨rfl, -⟩ := List.cons.inj hx
      have hinside : b ++ [closing] <+: b ++ closing :: x :=
        (List.prefix_append_right_inj b).2 (List.prefix_append [closing] x)
      exact absurd hb (ha.ne_one hne hinside)

end Counting

/-! ### Lists in parentheses -/

/-- Behind the parenthesis that opens a list the count is at one. -/
theorem closing?_cons_eq (body : List Char) :
    closing? ('(' :: body) = (closingFrom? '(' ')' 1 body).map fun r => ('(' :: r.1, r.2) :=
  closingFrom?_cons (by decide) 0 '(' body

/-- **A list is closed by the parenthesis in front of which everything is balanced.** -/
theorem closing?_cons_eq_some_iff {body a b : List Char} :
    closing? ('(' :: body) = some (a, b) ↔
      ∃ inner, a = '(' :: inner ∧ body = inner ++ ')' :: b ∧ Balanced '(' ')' inner := by
  have hne : '(' ≠ ')' := by decide
  rw [closing?_cons_eq]
  rcases closingFrom?_cases hne (Int.le_refl 1) body with
    ⟨hnone, hopen⟩ | ⟨a', b', hsome, hbody, htotal, hopen⟩
  · rw [hnone]
    constructor
    · rintro ⟨⟩
    · -- A balanced text before a parenthesis would have ended the count.
      rintro ⟨inner, -, hinner, hbalanced⟩
      have hprefix : inner ++ [')'] <+: body := ⟨b, by rw [hinner, List.append_assoc]; rfl⟩
      exact absurd (balanced_iff.1 hbalanced).2 (hopen.ne_one hne hprefix)
  · rw [hsome, Option.map_some]
    constructor
    · rintro ⟨⟩
      exact ⟨a', rfl, hbody, balanced_iff.2 ⟨hopen, htotal⟩⟩
    · rintro ⟨inner, rfl, hinner, hbalanced⟩
      obtain ⟨hopen', htotal'⟩ := balanced_iff.1 hbalanced
      -- Two ways of cutting the text before a parenthesis; of each beginning the other one is a beginning.
      have hsame : a' ++ ')' :: b' = inner ++ ')' :: b := hbody.symm.trans hinner
      have hle : a' <+: inner := hopen.prefix_of_closed hne htotal' hsame
      have hge : inner <+: a' := hopen'.prefix_of_closed hne htotal hsame.symm
      obtain rfl : a' = inner := hle.eq_of_length_le hge.length_le
      obtain rfl : b' = b := (List.cons.inj (List.append_cancel_left hsame)).2
      rfl

/-- **A list is not closed** if no parenthesis has a balanced text in front of it. -/
theorem closing?_cons_eq_none_iff {body : List Char} :
    closing? ('(' :: body) = none ↔ ∀ inner b, body = inner ++ ')' :: b → ¬Balanced '(' ')' inner := by
  constructor
  · intro hnone inner b hbody hbalanced
    have hsome := closing?_cons_eq_some_iff.2 ⟨inner, rfl, hbody, hbalanced⟩
    rw [hnone] at hsome
    cases hsome
  · intro h
    -- If one were found, the text in front of it would be balanced.
    cases hclosing : closing? ('(' :: body) with
    | none => rfl
    | some r =>
      obtain ⟨inner, -, hbody, hbalanced⟩ := closing?_cons_eq_some_iff.1 hclosing
      exact absurd hbalanced (h inner r.2 hbody)

/-! ### Byte offsets -/

/-- The number of bytes that a text takes. -/
def size (s : List Char) : Nat :=
  (String.ofList s).utf8ByteSize

theorem size_append (a b : List Char) : size (a ++ b) = size a + size b := by
  unfold size
  rw [String.ofList_append, String.utf8ByteSize_append]

/-- The bytes of a text, character by character. -/
theorem size_cons (c : Char) (s : List Char) : size (c :: s) = c.utf8Size + size s := by
  have hone : size [c] = c.utf8Size := by
    unfold size
    rw [← String.singleton_eq_ofList, String.utf8ByteSize_singleton]
  rw [← List.singleton_append, size_append, hone]

theorem size_pos {c : Char} {s : List Char} : 0 < size (c :: s) := by
  rw [size_cons]
  exact Nat.add_pos_left c.utf8Size_pos _

theorem foldl_utf8Size (s : List Char) (n : Nat) : s.foldl (fun n c => n + c.utf8Size) n = n + size s := by
  induction s generalizing n with
  | nil => rfl
  | cons c s ih => rw [List.foldl_cons, ih, size_cons, Nat.add_assoc]

/-- Two ways to count bytes. -/
theorem byteLength_eq (s : List Char) : byteLength s = size s :=
  (foldl_utf8Size s 0).trans (Nat.zero_add _)

/-- A beginning of a text takes no more bytes than the text. -/
theorem size_le_of_prefix {a b : List Char} (h : a <+: b) : size a ≤ size b := by
  obtain ⟨x, rfl⟩ := h
  rw [size_append]
  exact Nat.le_add_right _ _

/-- Every further character takes a byte. -/
theorem eq_of_prefix_of_size_eq {a b : List Char} (hab : a <+: b) (h : size a = size b) : a = b := by
  obtain ⟨x, rfl⟩ := hab
  cases x with
  | nil => exact (List.append_nil a).symm
  | cons c x =>
    have hx : 0 < size (c :: x) := size_pos
    rw [size_append] at h
    omega

/-- **A beginning of a text is told by its bytes.** -/
theorem eq_of_size_eq {a b s : List Char} (ha : a <+: s) (hb : b <+: s) (h : size a = size b) : a = b := by
  rcases List.prefix_or_prefix_of_prefix ha hb with hab | hba
  · exact eq_of_prefix_of_size_eq hab h
  · exact (eq_of_prefix_of_size_eq hba h.symm).symm

/-- The text from the byte on at which a beginning ends. -/
theorem fromByte_append (a s : List Char) (at_ : Nat) :
    fromByte (at_ + size a) at_ (a ++ s) = (s, at_ + size a) := by
  induction a generalizing at_ with
  | nil =>
    cases s with
    | nil => rfl
    | cons c s => exact if_pos (Nat.le_refl _)
  | cons c a ih =>
    -- The offset is not reached as long as characters are left in front.
    have hbefore : ¬at_ + size (c :: a) ≤ at_ := by
      have hc : 0 < size (c :: a) := size_pos
      omega
    rw [List.cons_append, fromByte, if_neg hbefore, size_cons, ← Nat.add_assoc]
    exact ih _

/-- A character stands at a byte offset of a text. -/
def StandsAt (c : Char) (text : List Char) (offset : Nat) : Prop :=
  ∃ before after, text = before ++ c :: after ∧ size before = offset

/-- **The parentheses are balanced** from the one that opens at a byte offset up to the one that closes at
another. -/
def ClosesAt (text : List Char) (open_ close : Nat) : Prop :=
  ∃ before inner after, text = before ++ '(' :: (inner ++ ')' :: after) ∧ size before = open_ ∧
    size (before ++ '(' :: inner) = close ∧ Balanced '(' ')' ('(' :: (inner ++ [')']))

/-- What closes the parenthesis behind a beginning of a text stands behind that beginning. -/
theorem closesAt_iff {before after : List Char} {close : Nat} :
    ClosesAt (before ++ '(' :: after) (size before) close ↔
      ∃ inner rest, after = inner ++ ')' :: rest ∧ size (before ++ '(' :: inner) = close ∧
        Balanced '(' ')' ('(' :: (inner ++ [')'])) := by
  constructor
  · rintro ⟨before', inner, rest, htext, hsize, hclose, hbalanced⟩
    have hprefix : before' <+: before ++ '(' :: after := htext ▸ List.prefix_append before' _
    -- Two beginnings of one text with the same size are the same.
    obtain rfl : before' = before :=
      eq_of_size_eq hprefix (List.prefix_append before _) hsize
    exact ⟨inner, rest, (List.cons.inj (List.append_cancel_left htext)).2, hclose, hbalanced⟩
  · rintro ⟨inner, rest, rfl, hclose, hbalanced⟩
    exact ⟨before, inner, rest, rfl, rfl, hclose, hbalanced⟩

/-- What is found for a parenthesis from what the count finds behind it. -/
theorem matchingParen_eq (before after : List Char) :
    matchingParen (before ++ '(' :: after) (size before)
      = (closingFrom? '(' ')' 1 after).map fun r => size (before ++ '(' :: r.1) := by
  have hfrom := fromByte_append before ('(' :: after) 0
  rw [Nat.zero_add] at hfrom
  unfold matchingParen
  rw [hfrom]
  dsimp only
  rw [closing?_cons_eq, Option.map_map]
  refine congrArg (fun f => Option.map f _) (funext fun r => ?_)
  rw [Function.comp_apply, byteLength_eq, size_append]

/-- There is no offset at which the parentheses are balanced, or the least one is found. -/
theorem matchingParen_cases (before after : List Char) :
    (matchingParen (before ++ '(' :: after) (size before) = none ∧
        ∀ close, ¬ClosesAt (before ++ '(' :: after) (size before) close) ∨
      ∃ n, matchingParen (before ++ '(' :: after) (size before) = some n ∧
        IsLeast {n | ClosesAt (before ++ '(' :: after) (size before) n} n := by
  have hne : '(' ≠ ')' := by decide
  -- A parenthesis that closes is one at which the count is at one.
  have htotal {inner : List Char} (h : Balanced '(' ')' ('(' :: (inner ++ [')']))) :
      1 + surplus '(' ')' inner = 1 := by
    rw [← surplus_enclosed hne, h.total]
    rfl
  rw [matchingParen_eq]
  rcases closingFrom?_cases hne (Int.le_refl 1) after with ⟨hnone, hopen⟩ | ⟨a, b, hsome, rfl, hone, hopen⟩
  · refine .inl ⟨by rw [hnone]; rfl, fun close hclose => ?_⟩
    obtain ⟨inner, rest, rfl, -, hbalanced⟩ := closesAt_iff.1 hclose
    have hprefix : inner ++ [')'] <+: inner ++ ')' :: rest :=
      (List.prefix_append_right_inj inner).2 (List.prefix_append [')'] rest)
    exact hopen.ne_one hne hprefix (htotal hbalanced)
  · refine .inr ⟨_, by rw [hsome]; rfl, ?_, fun close hclose => ?_⟩
    · exact closesAt_iff.2 ⟨a, b, rfl, rfl, (balanced_iff.2 ⟨hopen, hone⟩).enclose hne⟩
    · obtain ⟨inner, rest, hafter, rfl, hbalanced⟩ := closesAt_iff.1 hclose
      have hle : a <+: inner := hopen.prefix_of_closed hne (htotal hbalanced) hafter
      refine size_le_of_prefix ((List.prefix_append_right_inj before).2 ?_)
      exact List.cons_prefix_cons.2 ⟨rfl, hle⟩

/-- **The offset that is found** for a parenthesis is the least one at which the parentheses from there on are
balanced, and none is found only if there is none. -/
theorem matchingParen_least {text : List Char} {open_ : Nat} (h : StandsAt '(' text open_) :
    (∀ close, matchingParen text open_ = some close ↔ IsLeast {n | ClosesAt text open_ n} close) ∧
      (matchingParen text open_ = none ↔ ∀ close, ¬ClosesAt text open_ close) := by
  obtain ⟨before, after, rfl, rfl⟩ := h
  rcases matchingParen_cases before after with ⟨hnone, hopen⟩ | ⟨n, hsome, hleast⟩
  · rw [hnone]
    refine ⟨fun close => ⟨nofun, fun hclose => ?_⟩, fun _ => hopen, fun _ => rfl⟩
    exact absurd hclose.1 (hopen close)
  -- An offset that is found is the least one, and there is only one least one.
  · rw [hsome]
    refine ⟨fun close => ⟨?_, fun hclose => ?_⟩, nofun, fun hopen => ?_⟩
    · rintro ⟨⟩
      exact hleast
    · rw [hclose.unique hleast]
    · exact absurd hleast.1 (hopen n)

end CodeAtlas.Fragment
