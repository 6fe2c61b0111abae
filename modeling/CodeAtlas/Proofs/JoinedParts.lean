import CodeAtlas.Proofs.TopLevelParts

/-!
# Parts that were joined come back

Lists are written with a separator between their parts and with white space wherever the author likes it, and
`Fragment.splitTopLevel` takes such a list apart. This module says for which parts taking apart undoes the
joining: those that can be told from their surroundings (`Separable`).

A part may hold brackets of all kinds, and they need not pair up: only their number counts. Inside the part
as many are closed as are opened, and at a separator that belongs to the part the two numbers differ, in
either direction. So the level is zero again at the end of each part, the separators that stand between parts
are the ones at level zero, and what lies between two of them is one part with white space around it.
-/

namespace CodeAtlas

open Text

/-- What trimming leaves of a text ends with something else than white space. -/
theorem Text.ends_of_trim_eq_self {s : List Char} (hne : s ≠ []) (h : trim s = s) : Ends s := by
  have hlast : s = trimEnd (trimStart s) := h.symm
  have hnil : (trimStart s).rdropWhile isBlank ≠ [] := fun hnil => hne (hlast.trans hnil)
  have hsolid := List.rdropWhile_last_not isBlank (trimStart s) hnil
  refine ⟨(trimEnd (trimStart s)).dropLast, (trimEnd (trimStart s)).getLast hnil, ?_, ?_⟩
  · calc s = trimEnd (trimStart s) := hlast
      _ = _ := (List.dropLast_append_getLast hnil).symm
  · exact Bool.eq_false_iff.2 hsolid

namespace Fragment

variable {sep : Char}

/-- **A part that can be told from what surrounds it**: it is trimmed, it closes as many brackets as it opens,
and at no separator in it these numbers agree. -/
structure Separable (sep : Char) (part : List Char) : Prop where
  ne_nil : part ≠ []
  trimmed : trim part = part
  closed : excess isOpening isClosing part = 0
  inside : ∀ n, ∀ h : n < part.length, part[n] = sep → excess isOpening isClosing (part.take n) ≠ 0

instance (sep : Char) (part : List Char) : Decidable (Separable sep part) :=
  decidable_of_iff
    (part ≠ [] ∧ trim part = part ∧ excess isOpening isClosing part = 0 ∧
      ∀ n, ∀ h : n < part.length, part[n] = sep → excess isOpening isClosing (part.take n) ≠ 0)
    ⟨fun ⟨hne, htrim, hclosed, hinside⟩ => ⟨hne, htrim, hclosed, hinside⟩,
      fun h => ⟨h.ne_nil, h.trimmed, h.closed, h.inside⟩⟩

/-- **A part as it stands in a list**, with white space on both sides. -/
structure Padded where
  before : List Char := []
  part : List Char
  after : List Char := []
  blank_before : ∀ c ∈ before, isBlank c = true := by exact List.all_eq_true.1 (by decide)
  blank_after : ∀ c ∈ after, isBlank c = true := by exact List.all_eq_true.1 (by decide)

/-- The text of a part with its white space. -/
def Padded.text (p : Padded) : List Char :=
  p.before ++ (p.part ++ p.after)

theorem not_isBracket_of_isBlank {c : Char} (h : isBlank c = true) : ¬IsBracket c := by
  rintro (rfl | rfl | rfl | rfl | rfl | rfl | rfl | rfl) <;> exact absurd h (by decide)

theorem levelAfter_of_blank {s : List Char} (h : ∀ c ∈ s, isBlank c = true) (level : Int) :
    levelAfter level s = level :=
  levelAfter_of_not_isBracket (fun c hc => not_isBracket_of_isBlank (h c hc)) level

/-- A text is whole if its separators stand where the brackets before them are not balanced. -/
theorem whole_of_forall (hsep : ¬IsBracket sep) {level : Int} {s : List Char}
    (h : ∀ a b, s = a ++ sep :: b → level + excess isOpening isClosing a ≠ 0) : Whole sep level s := by
  -- By induction on the text, where the level takes in what has been passed.
  induction s generalizing level with
  | nil => trivial
  | cons c s ih =>
    refine ⟨?_, ih fun a b hs => ?_⟩
    · -- The first character is behind an empty text.
      rintro ⟨rfl, hlevel⟩
      rw [levelStep_of_not_isBracket hsep] at hlevel
      exact h [] s rfl ((Int.add_zero level).trans hlevel)
    · have hbehind := h (c :: a) b (congrArg (c :: ·) hs)
      rwa [excess_cons, ← Int.add_assoc, ← levelStep_eq] at hbehind

namespace Separable

variable {p : Padded} (h : Separable sep p.part)

include h

/-- A part does not start with white space. -/
theorem starts : Starts p.part := by
  have hcases := trim_eq_nil_or_starts p.part
  rw [h.trimmed] at hcases
  exact hcases.resolve_left h.ne_nil

/-- Trimming takes the white space around a part away and nothing else. -/
theorem trim_text : trim p.text = p.part := by
  have hends : Ends p.part := ends_of_trim_eq_self h.ne_nil h.trimmed
  have hblank : trimEnd p.after = [] := by
    have hall : ∀ c ∈ p.after.reverse, isBlank c = true := fun c hc => p.blank_after c (List.mem_reverse.1 hc)
    rw [trimEnd, dropEndWhile, List.dropWhile_eq_nil_iff.2 hall]
    rfl
  calc trim p.text = trim (p.part ++ p.after) := trim_blank_append p.blank_before _
    _ = p.part ++ trimEnd p.after := trim_append h.starts hends p.after
    _ = p.part := by rw [hblank, List.append_nil]

/-- The level behind a part is zero again. -/
theorem levelAfter_text : levelAfter 0 p.text = 0 := by
  unfold Padded.text
  rw [levelAfter_append, levelAfter_append, levelAfter_of_blank p.blank_before,
    levelAfter_of_blank p.blank_after, levelAfter_eq, h.closed, Int.add_zero]

/-- No separator of a part is at level zero. -/
theorem whole_text (hsep : ¬IsBracket sep) (hblank : isBlank sep = false) : Whole sep 0 p.text := by
  have hspace {s : List Char} (hs : ∀ c ∈ s, isBlank c = true) : sep ∉ s := by
    intro hmem
    rw [hs sep hmem] at hblank
    cases hblank
  -- In the part itself the separators are where the numbers of brackets differ.
  have hpart : Whole sep 0 p.part := by
    refine whole_of_forall hsep fun a b hab => ?_
    have hinside := h.inside a.length
    simp only [hab, List.length_append, List.length_cons, List.getElem_append_right (Nat.le_refl _),
      Nat.sub_self, List.getElem_cons_zero, List.take_left] at hinside
    rw [Int.zero_add]
    exact hinside (by omega) trivial
  unfold Padded.text
  rw [whole_append, whole_append, levelAfter_of_blank p.blank_before]
  exact ⟨whole_of_notMem (hspace p.blank_before) 0, hpart, whole_of_notMem (hspace p.blank_after) _⟩

/-- A part that stands alone is the only part. -/
theorem splitTopLevel_text (hsep : ¬IsBracket sep) (hblank : isBlank sep = false) :
    splitTopLevel p.text sep = [p.part] := by
  have hsplit := splitFrom_of_whole (h.whole_text hsep hblank) [] []
  rw [List.append_nil, List.append_nil, splitFrom_nil] at hsplit
  have htrim : trim p.text.reverse.reverse = p.part := by
    rw [List.reverse_reverse]
    exact h.trim_text
  have hstarts : Starts (trim p.text.reverse.reverse) := htrim ▸ h.starts
  calc splitTopLevel p.text sep = listPart p.text.reverse [] := hsplit
    _ = [trim p.text.reverse.reverse] := listPart_of_starts hstarts []
    _ = [p.part] := by rw [htrim]

end Separable

/-- **Taking a list apart undoes joining it**: whatever separator stands between the parts, a bracket and
white space aside, and however much white space is written around them, the parts of the joined text are the
parts that were joined. -/
theorem splitTopLevel_intercalate (hsep : ¬IsBracket sep) (hblank : isBlank sep = false) (ps : List Padded)
    (h : ∀ p ∈ ps, Separable sep p.part) :
    splitTopLevel ([sep].intercalate (ps.map Padded.text)) sep = ps.map Padded.part := by
  -- By induction on the parts: the first one is taken off at the separator behind it.
  induction ps with
  | nil => rfl
  | cons p ps ih =>
    have hp : Separable sep p.part := h p List.mem_cons_self
    cases ps with
    | nil =>
      rw [List.map_singleton, List.intercalate_singleton, hp.splitTopLevel_text hsep hblank]
      rfl
    | cons q ps =>
      -- The first separator behind the part is at level zero, and the rest is a list of its own.
      have hrest := ih fun r hr => h r (List.mem_cons_of_mem p hr)
      rw [List.map_cons, List.map_cons, List.intercalate_cons_cons, List.append_assoc, List.singleton_append]
      calc splitTopLevel (p.text ++ sep :: [sep].intercalate (q.text :: ps.map Padded.text)) sep
          = splitTopLevel p.text sep
              ++ splitTopLevel ([sep].intercalate (q.text :: ps.map Padded.text)) sep :=
            splitFrom_append_sep hsep hp.levelAfter_text _
        _ = p.part :: (q :: ps).map Padded.part := by
            rw [hp.splitTopLevel_text hsep hblank, ← List.map_cons, hrest]
            rfl

/-- Three parts: a call with a comma in it, a type with two, and a part that closes before it opens, so that
its comma is below level zero. -/
theorem splitTopLevel_intercalate_threeParts :
    let ps : List Padded :=
      [{ part := "f(1, 2)".toList, after := [' '] }, { part := "Map<K, List<V, W>>".toList },
        { before := [' ', '\t'], part := ">a, b<".toList, after := ['\n'] }]
    (¬IsBracket ',' ∧ isBlank ',' = false ∧ ∀ p ∈ ps, Separable ',' p.part) ∧
      splitTopLevel "f(1, 2) ,Map<K, List<V, W>>, \t>a, b<\n".toList ','
        = ["f(1, 2)".toList, "Map<K, List<V, W>>".toList, ">a, b<".toList] := by
  intro ps
  have hbracket : ¬IsBracket ',' := by decide
  have hblank : isBlank ',' = false := by decide
  have hparts : ∀ p ∈ ps, Separable ',' p.part := by
    decide
  exact ⟨⟨hbracket, hblank, hparts⟩, splitTopLevel_intercalate hbracket hblank ps hparts⟩

end Fragment

end CodeAtlas
