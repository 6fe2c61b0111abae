import CodeAtlas.Proofs.CodeOnly
import CodeAtlas.Proofs.Extent
import CodeAtlas.Proofs.FragmentCuts
import CodeAtlas.Proofs.Words

/-!
# Another body of a comment

`CommentChange` relates two source texts that differ in the body of one comment: a line comment, a block
comment that is closed, or one that is never closed. For the first two `HiddenChange` says that the lines of
the two texts have the same code. A comment that is never closed reaches to the end of the file, and if one
of its bodies ends with a line feed and the other does not, one of the texts has a line more: an empty one,
at its end. `SourceLine.SameCode` allows for that line, and `sameCode_of_commentChange` covers all comments.

What a declaration reaches over lines with the same code is the same, or it is all of the lines
(`SameCode.header_cases`, `SameCode.blockEnd_cases`). A header that runs into the empty line has a space more
at its end, and this space is followed through the reading of its annotations (`Text.Spaced`): what the
header declares is the same (`SameCode.declaring_header`).
-/

namespace CodeAtlas

/-! ### A space at the end of a text -/

/-- **The same text**, or the same with a space more at its end. -/
def Text.Spaced (s t : List Char) : Prop :=
  t = s ∨ t = s ++ [' ']

namespace Text.Spaced

variable {s t : List Char}

/-- A character put before both texts. -/
theorem cons (h : Spaced s t) (c : Char) : Spaced (c :: s) (c :: t) := by
  rcases h with rfl | rfl
  · exact .inl rfl
  · exact .inr rfl

theorem exists_cons {c : Char} (h : Spaced (c :: s) t) : ∃ t', t = c :: t' ∧ Spaced s t' := by
  rcases h with rfl | rfl
  · exact ⟨s, rfl, .inl rfl⟩
  · exact ⟨s ++ [' '], rfl, .inr rfl⟩

/-- Of such texts the same beginning is dropped, and the space may go with it. -/
theorem dropWhile (h : Spaced s t) (p : Char → Bool) : Spaced (s.dropWhile p) (t.dropWhile p) := by
  -- The induction is on the text without the space. At its end only the space is left to be dropped or not.
  induction s generalizing t with
  | nil =>
    rcases h with rfl | rfl
    · exact .inl rfl
    · by_cases hp : p ' ' = true
      · exact .inl (List.dropWhile_cons_of_pos hp)
      · exact .inr (List.dropWhile_cons_of_neg hp)
  | cons c s ih =>
    obtain ⟨t, rfl, hrest⟩ := h.exists_cons
    by_cases hc : p c = true
    · rw [List.dropWhile_cons_of_pos hc, List.dropWhile_cons_of_pos hc]
      exact ih hrest
    · rw [List.dropWhile_cons_of_neg hc, List.dropWhile_cons_of_neg hc]
      exact hrest.cons c

/-- A beginning without spaces is the same. -/
theorem takeWhile_eq (h : Spaced s t) {p : Char → Bool} (hp : p ' ' = false) :
    t.takeWhile p = s.takeWhile p := by
  rcases h with rfl | rfl
  · rfl
  · rw [List.takeWhile_append, List.takeWhile_cons_of_neg (by simp [hp]), List.append_nil]
    split
    next hlength => exact (List.IsPrefix.eq_of_length (List.takeWhile_prefix p) hlength).symm
    next => rfl

/-- Trimmed, the two texts are one. -/
theorem trim_eq (h : Spaced s t) : trim t = trim s := by
  have hspace : isBlank ' ' = true := by decide
  unfold trim
  rcases h.dropWhile isBlank with heq | heq
  · exact congrArg trimEnd heq
  · rw [trimStart, heq, trimEnd, dropEndWhile, List.reverse_append, List.reverse_singleton,
      List.singleton_append, List.dropWhile_cons_of_pos hspace]
    rfl

end Text.Spaced

namespace Fragment

open Text (Spaced)

variable {s t : List Char}

/-- A space at the end of a text closes no parenthesis. -/
theorem closingFrom?_concat_space (level : Int) (s : List Char) :
    closingFrom? '(' ')' level (s ++ [' '])
      = (closingFrom? '(' ')' level s).map fun r => (r.1, r.2 ++ [' ']) := by
  induction s generalizing level with
  | nil => rfl
  | cons c s ih =>
    rw [List.cons_append, closingFrom?, closingFrom?]
    -- Either the parenthesis closes here, or the search goes on in both texts.
    split
    · rfl
    · dsimp only
      rw [ih, Option.map_map, Option.map_map]
      rfl

/-- What follows the arguments is the same but for the space. -/
theorem spaced_closing? (h : Spaced s t) :
    Spaced (((closing? s).map (·.2)).getD []) (((closing? t).map (·.2)).getD []) := by
  rcases h with rfl | rfl
  · exact .inl rfl
  · rw [closing?, closing?, closingFrom?_concat_space]
    cases closingFrom? '(' ')' 0 s with
    | none => exact .inl rfl
    | some r => exact .inr rfl

/-- The space is no parenthesis either. -/
theorem head?_eq_paren_iff (h : Spaced s t) : t.head? = some '(' ↔ s.head? = some '(' := by
  cases s with
  | nil =>
    rcases h with rfl | rfl
    · exact Iff.rfl
    · decide
  | cons c s =>
    obtain ⟨t, rfl, -⟩ := h.exists_cons
    exact Iff.rfl

/-- With arguments dropped the texts differ in the space at most. -/
theorem spaced_dropArguments (h : Spaced s t) : Spaced (dropArguments s) (dropArguments t) := by
  have hbody : Spaced (Text.trimStart s) (Text.trimStart t) := h.dropWhile Text.isBlank
  unfold dropArguments
  by_cases hparen : (Text.trimStart s).head? = some '('
  · rw [if_pos hparen, if_pos ((head?_eq_paren_iff hbody).mpr hparen)]
    exact spaced_closing? hbody
  · rw [if_neg hparen, if_neg fun h => hparen ((head?_eq_paren_iff hbody).mp h)]
    exact h

theorem spaced_stripUpTo_nil (h : Spaced [] t) (n m : Nat) :
    Spaced (stripUpTo n []).2 (stripUpTo m t).2 := by
  have hmark : ∀ rest, t ≠ '@' :: rest := by
    rcases h with rfl | rfl
    · exact fun rest => (List.cons_ne_nil _ _).symm
    · exact fun rest hrest => absurd (List.cons.inj hrest).1 (by decide)
  rw [stripUpTo_of_not_mark fun rest => (List.cons_ne_nil _ _).symm, stripUpTo_of_not_mark hmark]
  exact h

/-- The bounds on the number of annotations are never reached, so they need not agree. -/
theorem spaced_stripUpTo {n m : Nat} (hn : s.length ≤ n) (hm : t.length ≤ m) (h : Spaced s t) :
    Spaced (stripUpTo n s).2 (stripUpTo m t).2 := by
  -- By induction on the fuel of the first text; the second one may have another, as long as both suffice.
  induction n generalizing m s t with
  | zero =>
    obtain rfl := List.length_eq_zero_iff.mp (Nat.le_zero.mp hn)
    exact spaced_stripUpTo_nil h 0 m
  | succ n ih =>
    cases s with
    | nil => exact spaced_stripUpTo_nil h (n + 1) m
    | cons c s =>
      obtain ⟨t, rfl, hrest⟩ := h.exists_cons
      cases m with
      | zero => exact absurd hm (Nat.not_succ_le_zero _)
      | succ m =>
        by_cases hc : c = '@'
        · subst hc
          -- The name of an annotation holds no space, so both texts have the same.
          have hfull : t.takeWhile isAnnotationChar = s.takeWhile isAnnotationChar :=
            hrest.takeWhile_eq (by decide +kernel)
          rw [stripUpTo, stripUpTo, hfull]
          dsimp only
          split
          · exact h
          · have hs := (afterAnnotation_suffix s).length_le
            have ht := (afterAnnotation_suffix t).length_le
            refine ih ?_ ?_ ((spaced_dropArguments (hrest.dropWhile isAnnotationChar)).dropWhile Text.isBlank)
            · exact Nat.le_trans hs (Nat.le_of_succ_le_succ hn)
            · exact Nat.le_trans ht (Nat.le_of_succ_le_succ hm)
        · have hmark (u : List Char) : ∀ rest, c :: u ≠ '@' :: rest :=
            fun rest hrest => hc (List.cons.inj hrest).1
          rw [stripUpTo_of_not_mark (hmark s), stripUpTo_of_not_mark (hmark t)]
          exact h

/-- **A space behind a text stays behind what its annotations leave.** -/
theorem spaced_stripAnnotations (h : Spaced s t) :
    Spaced (stripAnnotations s).2 (stripAnnotations t).2 :=
  spaced_stripUpTo (Nat.le_refl _) (Nat.le_refl _) (h.dropWhile Text.isBlank)

end Fragment

/-! ### An empty line at the end of a file -/

namespace SourceLine

/-- **Lines with the same code**, of which the second ones may have an empty line more at their end. -/
def SameCode (lines lines' : List SourceLine) : Prop :=
  ∃ last : Option SourceLine, (∀ b ∈ last, b.code = []) ∧ lines'.map bare = lines.map bare ++ last.toList

/-- An empty line joined at the end adds one space. -/
theorem joinWith_concat_nil {l : List (List Char)} (h : l ≠ []) :
    Text.joinWith [' '] (l ++ [[]]) = Text.joinWith [' '] l ++ [' '] := by
  induction l with
  | nil => exact absurd rfl h
  | cons s l ih =>
    cases l with
    | nil => simp [Text.joinWith]
    | cons t l =>
      rw [List.cons_append, List.cons_append, Text.joinWith, ← List.cons_append, ih (List.cons_ne_nil t l),
        Text.joinWith]
      simp only [List.append_assoc]

/-- A header has at least one line. -/
theorem headerLines_ne_nil (n : Nat) (open_ : Int) {lines : List SourceLine} (h : lines ≠ []) :
    (headerLines n open_ lines).1 ≠ [] := by
  fun_induction headerLines n open_ lines with
  | case1 => exact absurd rfl h
  | case2 | case3 | case4 => exact List.cons_ne_nil _ _

/-- An empty line alone is its own header. -/
theorem headerLines_singleton (n : Nat) (open_ : Int) {b : SourceLine} (hb : b.code = []) :
    headerLines n open_ [b] = ([[]], 0) := by
  have htrim : Text.trim b.code = [] := by rw [hb]; rfl
  cases n with
  | zero => rw [headerLines, htrim]
  | succ n => rw [headerLines, if_pos (.inr rfl), htrim]

/-- A header takes an empty line behind the lines only if it takes all of them. -/
theorem headerLines_concat {b : SourceLine} (hb : b.code = []) (n : Nat) (open_ : Int)
    {lines : List SourceLine} (h : lines ≠ []) :
    headerLines n open_ (lines ++ [b]) = headerLines n open_ lines ∨
      (headerLines n open_ lines).2 + 1 = lines.length ∧
        headerLines n open_ (lines ++ [b]) = ((headerLines n open_ lines).1 ++ [[]], lines.length) := by
  -- The cases are those of the reader: no line, the last line, a line at which it stops, a line at which it
  -- goes on.
  fun_induction headerLines n open_ lines with
  | case1 => exact absurd rfl h
  | case2 open_ l rest => exact .inl rfl
  | case3 n open_ l rest now hstop =>
    by_cases hclosed : now ≤ 0
    · exact .inl (if_pos (.inl hclosed))
    · -- The header stops for want of lines, so it takes the one that is there now.
      obtain rfl := hstop.resolve_left hclosed
      refine .inr ⟨rfl, (if_neg ?_).trans ?_⟩
      · exact fun h => h.elim hclosed (List.cons_ne_nil b [])
      · exact congrArg (fun r => (Text.trim l.code :: r.1, r.2 + 1)) (headerLines_singleton n now hb)
  | case4 n open_ l rest now hgo r ih =>
    have hrest : rest ≠ [] := fun hrest => hgo (.inr hrest)
    have hmore : headerLines (n + 1) open_ (l :: rest ++ [b])
        = (Text.trim l.code :: (headerLines n now (rest ++ [b])).1, (headerLines n now (rest ++ [b])).2 + 1) :=
      if_neg fun h => hgo (h.imp_right fun h => absurd h (List.append_ne_nil_of_left_ne_nil hrest _))
    -- The header goes on behind this line, so what happens at the end happens to the rest of the lines.
    rcases ih hrest with heq | ⟨hlength, heq⟩
    · rw [hmore, heq]
      exact .inl rfl
    · rw [hmore, heq]
      exact .inr ⟨congrArg (· + 1) hlength, rfl⟩

/-- A block reaches an empty line behind the lines only if it reaches the last of them. -/
theorem closingOffset_concat (base : Nat) (b : SourceLine) {lines : List SourceLine} (h : lines ≠ []) :
    closingOffset base (lines ++ [b]) = closingOffset base lines ∨
      closingOffset base lines + 1 = lines.length ∧ closingOffset base (lines ++ [b]) = lines.length := by
  -- The search for the end of a block stops for the same two reasons as a header.
  fun_induction closingOffset base lines with
  | case1 => exact absurd rfl h
  | case2 l rest hstop =>
    by_cases hclosed : l.depthAfter ≤ base
    · exact .inl (if_pos (.inl hclosed))
    · obtain rfl := hstop.resolve_left hclosed
      refine .inr ⟨rfl, (if_neg ?_).trans ?_⟩
      · exact fun h => h.elim hclosed (List.cons_ne_nil b [])
      · exact congrArg (· + 1) (if_pos (.inr rfl))
  | case3 l rest hgo ih =>
    have hrest : rest ≠ [] := fun hrest => hgo (.inr hrest)
    have hmore : closingOffset base (l :: rest ++ [b]) = closingOffset base (rest ++ [b]) + 1 :=
      if_neg fun h => hgo (h.imp_right fun h => absurd h (List.append_ne_nil_of_left_ne_nil hrest _))
    rcases ih hrest with heq | ⟨hlength, heq⟩
    · rw [hmore, heq]
      exact .inl rfl
    · rw [hmore, heq]
      exact .inr ⟨congrArg (· + 1) hlength, rfl⟩

/-- A header takes in the empty line only if it reaches to the last line anyway. -/
theorem header_concat {b : SourceLine} (hb : b.code = []) {lines : List SourceLine} (h : lines ≠ []) :
    header (lines ++ [b]) = header lines ∨
      (header lines).2 + 1 = lines.length ∧
        header (lines ++ [b]) = ((header lines).1 ++ [' '], lines.length) := by
  unfold header
  rcases headerLines_concat hb (headerLimit - 1) 0 h with heq | ⟨hlength, heq⟩
  · rw [heq]
    exact .inl rfl
  · rw [heq]
    refine .inr ⟨hlength, Prod.ext ?_ rfl⟩
    exact joinWith_concat_nil (headerLines_ne_nil _ _ h)

/-- A block reaches into the empty line only if it reaches to the last line anyway. -/
theorem blockEnd_concat (b : SourceLine) {lines : List SourceLine} {headerEnd : Nat}
    (h : headerEnd < lines.length) :
    blockEnd (lines ++ [b]) headerEnd = blockEnd lines headerEnd ∨
      blockEnd lines headerEnd + 1 = lines.length ∧ blockEnd (lines ++ [b]) headerEnd = lines.length := by
  have hdrop : lines.drop headerEnd ≠ [] := fun hnil =>
    absurd (List.drop_eq_nil_iff.mp hnil) (Nat.not_le.mpr h)
  have hhead : (lines ++ [b]).head? = lines.head? := by
    cases lines with
    | nil => cases h
    | cons l rest => rfl
  have hlength := List.length_drop (i := headerEnd) (l := lines)
  unfold blockEnd
  rw [hhead, List.drop_append_of_le_length (Nat.le_of_lt h)]
  -- Both searches start at the end of the header, which the empty line does not move.
  extract_lets base
  rcases closingOffset_concat base b hdrop with heq | ⟨hlast, heq⟩
  · rw [heq]
    exact .inl rfl
  · rw [heq]
    refine .inr ⟨?_, ?_⟩ <;> omega

namespace SameCode

variable {lines lines' : List SourceLine}

/-- Lines whose bare lines are the same have the same code. -/
theorem of_map_bare (h : lines'.map bare = lines.map bare) : SameCode lines lines' :=
  ⟨none, fun _ hb => (by cases hb), h.trans (List.append_nil _).symm⟩

/-- The header of a declaration is the same, or it takes all lines. -/
theorem header_cases (h : SameCode lines lines') (hne : lines ≠ []) :
    header lines' = header lines ∨
      (header lines).2 + 1 = lines.length ∧ header lines' = ((header lines).1 ++ [' '], lines.length) := by
  obtain ⟨last, hlast, hlines⟩ := h
  rw [← header_map_bare lines', hlines, ← header_map_bare lines, ← List.length_map (f := bare)]
  cases last with
  | none => exact .inl (congrArg header (List.append_nil _))
  | some b => exact header_concat (hlast b rfl) fun h => hne (List.map_eq_nil_iff.mp h)

/-- The end of a block is the same, or it is the last line of both. -/
theorem blockEnd_cases (h : SameCode lines lines') {headerEnd : Nat} (hend : headerEnd < lines.length) :
    blockEnd lines' headerEnd = blockEnd lines headerEnd ∨
      blockEnd lines headerEnd + 1 = lines.length ∧ blockEnd lines' headerEnd = lines.length := by
  obtain ⟨last, hlast, hlines⟩ := h
  rw [← List.length_map (f := bare)] at hend
  rw [← blockEnd_map_bare lines', hlines, ← blockEnd_map_bare lines, ← List.length_map (f := bare)]
  cases last with
  | none => exact .inl (congrArg (blockEnd · headerEnd) (List.append_nil _))
  | some b => exact blockEnd_concat b hend

/-- What a header holds behind its annotations is the same. -/
theorem declaring_header (h : SameCode lines lines') (hne : lines ≠ []) :
    Text.trim (Fragment.stripAnnotations (header lines').1).2
      = Text.trim (Fragment.stripAnnotations (header lines).1).2 := by
  have hspaced : Text.Spaced (header lines).1 (header lines').1 := by
    rcases h.header_cases hne with heq | ⟨-, heq⟩
    · exact .inl (congrArg Prod.fst heq)
    · exact .inr (congrArg Prod.fst heq)
  exact (Fragment.spaced_stripAnnotations hspaced).trim_eq

variable {line : SourceLine} {rest : List SourceLine}

/-- The first lines differ at most in the text as it stands, and what follows has the same code. -/
theorem exists_cons (h : SameCode (line :: rest) lines') :
    ∃ line' rest', lines' = line' :: rest' ∧ line'.bare = line.bare ∧ SameCode rest rest' := by
  obtain ⟨last, hlast, hlines⟩ := h
  obtain ⟨line', rest', rfl, hline, hrest⟩ := List.map_eq_cons_iff.mp hlines
  exact ⟨line', rest', rfl, hline, last, hlast, hrest⟩

/-- Where the first lines have come to an end, the second ones have an empty line at most. -/
theorem code_of_nil (h : SameCode [] lines') : lines' = [] ∨ ∃ b, lines' = [b] ∧ b.code = [] := by
  obtain ⟨last, hlast, hlines⟩ := h
  cases last with
  | none => exact .inl (List.map_eq_nil_iff.mp hlines)
  | some b =>
    obtain ⟨l, rest, rfl, hl, hrest⟩ := List.map_eq_cons_iff.mp hlines
    obtain rfl := List.map_eq_nil_iff.mp hrest
    refine .inr ⟨l, rfl, ?_⟩
    have hcode : l.bare.code = [] := hl ▸ hlast b rfl
    exact hcode

end SameCode

end SourceLine

/-! ### Comments -/

namespace Scan

/-- The state behind the mark that opens a comment. -/
def opened (s : Scan) : Scan :=
  { s with mode := .comment 1, before := '*' :: '/' :: s.before }

/-- A text that goes on inside a comment is read from the state behind its mark, whatever follows. -/
theorem after_openComment {pre old : List Char} (inCode : (after pre ('/' :: '*' :: old)).InCode)
    (body : List Char) :
    after (pre ++ '/' :: '*' :: body) [] = (after pre ('/' :: '*' :: old)).opened.run body [] := by
  have hpre : after pre ('/' :: '*' :: body) = after pre ('/' :: '*' :: old) := by
    have hhead : ('/' :: '*' :: body).head? = ('/' :: '*' :: old).head? := rfl
    refine run_congr_rest proper_start hhead (fun q hq => ?_) pre
    rw [twoMore_slash hq, twoMore_slash hq]
  have hopen : '/' :: '*' :: body = ['/', '*'] ++ body := rfl
  rw [after_append, List.append_nil, hpre, hopen, run_append, List.append_nil, run_openComment inCode]
  rfl

/-- **A comment that is never closed shows one line more** if it does not end with a line feed. -/
theorem lines_run_of_comment_concat {t : Scan} {body body' : List Char}
    (inside : t.StaysIn Mode.IsComment body []) (inside' : t.StaysIn Mode.IsComment body' [])
    (hended : t.ended = false) (hbefore : t.before ≠ []) (feeds : body'.count '\n' = body.count '\n')
    (last : body.getLast? = some '\n') (last' : body'.getLast? ≠ some '\n') :
    ∃ b : SourceLine, b.code = [] ∧ (t.run body' []).lines = (t.run body []).lines ++ [b] := by
  -- In a comment only line feeds are seen, and both bodies have as many.
  have hvisible : (t.run body' []).visible = (t.run body []).visible := by
    rw [visible_run_of_comment hended inside, visible_run_of_comment hended inside', feeds]
  -- Behind a line feed no code of the line has been read yet.
  have hcode : (t.run body []).visible.code = [] := by
    have hfeed : body.count '\n' ≠ 0 := fun h =>
      List.count_eq_zero.mp h (List.mem_of_getLast? last)
    obtain ⟨k, hk⟩ := Nat.exists_eq_succ_of_ne_zero hfeed
    rw [visible_run_of_comment hended inside, hk, Function.iterate_succ_apply']
    rfl
  have hlines : (t.run body []).lines = (t.run body []).visible.complete :=
    if_pos ((before_run_eq_nil_iff hbefore hended inside).mpr last)
  -- The body that does not end with a line feed leaves a line that the end of the file completes.
  have hlines' : (t.run body' []).lines = (t.run body []).visible.endLine.complete := by
    have hend : (t.run body' []).lines = (t.run body' []).endLine.visible.complete :=
      if_neg fun h => last' ((before_run_eq_nil_iff hbefore hended inside').mp h)
    rw [hend, visible_endLine_of_comment inside'.stop, hvisible]
  rw [hlines, hlines']
  exact ⟨_, hcode, rfl⟩

/-- **Two bodies of a comment that is never closed**, of which one ends with a line feed. -/
theorem lines_of_openComment_concat {pre old new : List Char}
    (inCode : (after pre ('/' :: '*' :: old)).InCode)
    (inside : (after (pre ++ ['/', '*']) old).StaysIn Mode.IsComment old [])
    (feeds : new.count '\n' = old.count '\n') (no_star : '*' ∉ new) (no_slash : '/' ∉ new)
    (last : ¬(new.getLast? = some '\n' ↔ old.getLast? = some '\n')) :
    ∃ b : SourceLine, b.code = [] ∧
      ((after (pre ++ '/' :: '*' :: new) []).lines = (after (pre ++ '/' :: '*' :: old) []).lines ++ [b] ∨
        (after (pre ++ '/' :: '*' :: old) []).lines = (after (pre ++ '/' :: '*' :: new) []).lines ++ [b]) := by
  have hopen : '/' :: '*' :: old = ['/', '*'] ++ old := rfl
  rw [after_append, ← hopen, run_openComment inCode] at inside
  rw [after_openComment inCode, after_openComment inCode]
  -- Behind the opening mark both texts go on from the same state.
  generalize ht : (after pre ('/' :: '*' :: old)).opened = t
  have hmode : t.mode = .comment 1 := ht ▸ rfl
  have hskip : t.skip = 0 := ht ▸ inCode.2.1
  have hended : t.ended = false := ht ▸ inCode.2.2
  have hbefore : t.before ≠ [] := ht ▸ List.cons_ne_nil _ _
  have hold : t.StaysIn Mode.IsComment old [] := ht ▸ inside
  have hnew := (run_comment_of_no_marks hmode hskip hended no_star no_slash []).1
  -- Exactly one of the bodies ends with a line feed; the other one gives the empty line.
  by_cases hlast : old.getLast? = some '\n'
  · have hlast' : new.getLast? ≠ some '\n' := fun h => last ⟨fun _ => hlast, fun _ => h⟩
    obtain ⟨b, hb, hlines⟩ := lines_run_of_comment_concat hold hnew hended hbefore feeds hlast hlast'
    exact ⟨b, hb, .inl hlines⟩
  · have hlast' : new.getLast? = some '\n' := by
      by_contra h
      exact last ⟨fun h' => absurd h' h, fun h' => absurd h' hlast⟩
    obtain ⟨b, hb, hlines⟩ := lines_run_of_comment_concat hnew hold hended hbefore feeds.symm hlast' hlast
    exact ⟨b, hb, .inr hlines⟩

end Scan

/-- **Another body of one comment.** -/
inductive CommentChange : List Char → List Char → Prop
  /-- Other text behind the mark of a line comment, on the same line. -/
  | lineComment {pre old new post : List Char}
      (inCode : (Scan.after pre ('/' :: '/' :: (old ++ post))).InCode)
      (old_line : '\n' ∉ old) (new_line : '\n' ∉ new) :
      CommentChange (pre ++ '/' :: '/' :: (old ++ post)) (pre ++ '/' :: '/' :: (new ++ post))
  /-- Another body of a block comment that is closed, with as many lines and without marks. -/
  | blockComment {pre old new post : List Char}
      (inCode : (Scan.after pre ('/' :: '*' :: (old ++ '*' :: '/' :: post))).InCode)
      (closes : (Scan.after (pre ++ ['/', '*']) (old ++ '*' :: '/' :: post)).ClosesComment old
        ('*' :: '/' :: post))
      (feeds : new.count '\n' = old.count '\n') (no_star : '*' ∉ new) (no_slash : '/' ∉ new) :
      CommentChange (pre ++ '/' :: '*' :: (old ++ '*' :: '/' :: post))
        (pre ++ '/' :: '*' :: (new ++ '*' :: '/' :: post))
  /-- Another body of a block comment that is never closed, with as many lines and without marks. -/
  | openComment {pre old new : List Char}
      (inCode : (Scan.after pre ('/' :: '*' :: old)).InCode)
      (inside : (Scan.after (pre ++ ['/', '*']) old).StaysIn Mode.IsComment old [])
      (feeds : new.count '\n' = old.count '\n') (no_star : '*' ∉ new) (no_slash : '/' ∉ new) :
      CommentChange (pre ++ '/' :: '*' :: old) (pre ++ '/' :: '*' :: new)

/-- A change that cannot be seen leaves the code of every line. -/
theorem sameCode_of_hiddenChange {source source' : List Char} (h : HiddenChange source source') :
    SourceLine.SameCode (SourceLine.ofSource source) (SourceLine.ofSource source') :=
  .of_map_bare (map_bare_ofSource_of_hiddenChange h).symm

/-- **The lines of a text have the same code behind a change of a comment**, but for an empty line at the end
of one of the two texts. -/
theorem sameCode_of_commentChange {source source' : List Char} (h : CommentChange source source') :
    SourceLine.SameCode (SourceLine.ofSource source) (SourceLine.ofSource source') ∨
      SourceLine.SameCode (SourceLine.ofSource source') (SourceLine.ofSource source) := by
  cases h with
  | lineComment inCode old_line new_line =>
    exact .inl (sameCode_of_hiddenChange (.lineComment inCode old_line new_line))
  | blockComment inCode closes feeds no_star no_slash =>
    exact .inl (sameCode_of_hiddenChange (.blockComment inCode closes feeds no_star no_slash))
  | @openComment pre old new inCode inside feeds no_star no_slash =>
    by_cases hlast : new.getLast? = some '\n' ↔ old.getLast? = some '\n'
    · exact .inl (sameCode_of_hiddenChange
        (.openComment inCode inside feeds no_star no_slash hlast))
    · -- One of the two bodies ends with a line feed, and the other text has an empty line more.
      obtain ⟨b, hb, hlines⟩ := Scan.lines_of_openComment_concat inCode inside feeds no_star no_slash hlast
      rw [← SourceLine.map_bare_ofSource, ← SourceLine.map_bare_ofSource] at hlines
      have hcode : ∀ b' ∈ some b, b'.code = [] := fun b' hb' => Option.some.inj hb' ▸ hb
      exact hlines.imp (⟨some b, hcode, ·⟩) (⟨some b, hcode, ·⟩)

end CodeAtlas
