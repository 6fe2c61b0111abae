import CodeAtlas.Source.Fragment
import Mathlib.Data.List.Basic

/-!
# Where code is cut

The cuts of `Fragment` lie inside the text that they cut, for every text, with brackets that close or
not:

* a parenthesis that closes has the text between the two before it and the rest behind it, so nothing is
  lost but the two parentheses (`closing?_cons`);
* a list of type arguments either is closed, or takes all of the text (`typeArguments_cons`);
* what is left after leading annotations is an end of the text (`stripAnnotations_suffix`), and it starts
  with no annotation any more: the bound on their number is never reached (`stripAnnotations_stripped`).
-/

namespace CodeAtlas.Fragment

open Text

/-! ### Brackets -/

/-- The two sides of a closing bracket, with the bracket between them, are the text. -/
theorem closingFrom?_eq_some {opening closing : Char} {level : Int} {text a b : List Char}
    (h : closingFrom? opening closing level text = some (a, b)) : text = a ++ closing :: b := by
  -- By induction on the text: the search stops at the closing bracket or passes a character.
  induction text generalizing level a with
  | nil => cases h
  | cons c rest ih =>
    rw [closingFrom?] at h
    split at h
    next hclose =>
      cases h
      rw [hclose.1]
      rfl
    next =>
      obtain ⟨r, hr, heq⟩ := Option.map_eq_some_iff.mp h
      cases heq
      rw [ih hr]
      rfl

/-- **The parenthesis that closes the first one** has the text between the two before it. -/
theorem closing?_cons {text a b : List Char} (h : closing? ('(' :: text) = some (a, b)) :
    ∃ inner, a = '(' :: inner ∧ text = inner ++ ')' :: b := by
  have hopen : ¬('(' = ')' ∧ (0 : Int) - 1 = 0) := by decide
  rw [closing?, closingFrom?, if_neg hopen] at h
  obtain ⟨⟨inner, after⟩, hr, heq⟩ := Option.map_eq_some_iff.mp h
  cases heq
  exact ⟨inner, rfl, closingFrom?_eq_some hr⟩

/-- **Type arguments** are closed, or take all of the text. -/
theorem typeArguments_cons (body : List Char) :
    body = (typeArguments ('<' :: body)).1 ++ '>' :: (typeArguments ('<' :: body)).2
      ∨ typeArguments ('<' :: body) = (body, []) := by
  rw [typeArguments]
  split
  next r hr => exact .inl (closingFrom?_eq_some hr)
  next => exact .inr rfl

/-! ### Annotations -/

/-- What is left behind arguments is an end of the text. -/
theorem dropArguments_suffix (text : List Char) : dropArguments text <:+ text := by
  have htrim : trimStart text <:+ text := List.dropWhile_suffix _
  unfold dropArguments
  extract_lets body
  split
  -- Arguments that are not closed take all of the text.
  · cases hclosed : closing? body with
    | none => exact List.nil_suffix
    | some r =>
      have hbody : body = r.1 ++ ')' :: r.2 := closingFrom?_eq_some hclosed
      have hafter : r.2 <:+ body := by
        rw [hbody]
        exact (List.suffix_cons _ _).trans (List.suffix_append _ _)
      exact hafter.trans htrim
  · exact List.suffix_rfl

/-- What one annotation leaves is an end of what follows its mark. -/
theorem afterAnnotation_suffix (rest : List Char) :
    trimStart (dropArguments (rest.dropWhile isAnnotationChar)) <:+ rest :=
  (List.dropWhile_suffix _).trans ((dropArguments_suffix _).trans (List.dropWhile_suffix _))

/-- What is left behind some annotations is an end of the text. -/
theorem stripUpTo_suffix (n : Nat) (text : List Char) : (stripUpTo n text).2 <:+ text := by
  fun_induction stripUpTo n text with
  | case1 text => exact List.suffix_rfl
  | case2 n rest full hname => exact List.suffix_rfl
  | case3 n rest full hname name r ih =>
    exact ih.trans ((afterAnnotation_suffix rest).trans (List.suffix_cons _ _))
  | case4 n text hno => exact List.suffix_rfl

/-- **What follows leading annotations is an end of the text.** -/
theorem stripAnnotations_suffix (text : List Char) : (stripAnnotations text).2 <:+ text :=
  (stripUpTo_suffix _ _).trans (List.dropWhile_suffix _)

/-- No annotation stands at the start of the text. -/
def Stripped (text : List Char) : Prop :=
  ∀ rest, text = '@' :: rest → rest.takeWhile isAnnotationChar = []

/-- A text has no more annotations than characters. -/
theorem stripUpTo_stripped {n : Nat} {text : List Char} (h : text.length ≤ n) :
    Stripped (stripUpTo n text).2 := by
  -- The cases of the reader: no fuel, a mark without a name, an annotation, and no mark.
  fun_induction stripUpTo n text with
  | case1 text =>
    rw [List.length_eq_zero_iff.mp (Nat.le_zero.mp h)]
    intro rest hrest
    cases hrest
  | case2 n rest full hname =>
    intro rest' hrest
    cases hrest
    exact hname
  | case3 n rest full hname name r ih =>
    -- The mark of the annotation is gone, so what is left is shorter.
    refine ih ?_
    have hlength := (afterAnnotation_suffix rest).length_le
    rw [List.length_cons] at h
    omega
  | case4 n text hno =>
    intro rest hrest
    exact absurd hrest (hno rest)

/-- Without a mark there is no annotation. -/
theorem stripUpTo_of_not_mark {text : List Char} (h : ∀ rest, text ≠ '@' :: rest) (n : Nat) :
    stripUpTo n text = ([], text) := by
  cases n with
  | zero => rfl
  | succ n =>
    rw [stripUpTo]
    exact h

/-- Nothing is taken from a text that starts with no annotation. -/
theorem stripUpTo_of_stripped {text : List Char} (h : Stripped text) (n : Nat) :
    stripUpTo n text = ([], text) := by
  by_cases hmark : ∃ rest, text = '@' :: rest
  · obtain ⟨rest, rfl⟩ := hmark
    cases n with
    | zero => rfl
    | succ n =>
      rw [stripUpTo]
      exact if_pos (h rest rfl)
  · exact stripUpTo_of_not_mark (not_exists.1 hmark) n

/-- **All leading annotations are taken.** -/
theorem stripAnnotations_stripped (text : List Char) : Stripped (stripAnnotations text).2 :=
  stripUpTo_stripped (Nat.le_refl _)

/-- **The cuts that readers make in a text lie inside it.** -/
structure CutsInside (text : List Char) : Prop where
  closing : ∀ a b, closing? ('(' :: text) = some (a, b) → ∃ inner, a = '(' :: inner ∧ text = inner ++ ')' :: b
  typeArguments : text = (typeArguments ('<' :: text)).1 ++ '>' :: (typeArguments ('<' :: text)).2
    ∨ typeArguments ('<' :: text) = (text, [])
  annotations : (stripAnnotations text).2 <:+ text
  annotations_end : Stripped (stripAnnotations text).2

/-- **Every cut lies inside its text.** -/
theorem cutsInside (text : List Char) : CutsInside text where
  closing := fun _ _ => closing?_cons
  typeArguments := typeArguments_cons text
  annotations := stripAnnotations_suffix text
  annotations_end := stripAnnotations_stripped text

end CodeAtlas.Fragment
