import CodeAtlas.Proofs.DartDefaults
import Mathlib.Data.List.Flatten

/-!
# Parameters of Dart functions

Which lists of parameters are read as they are declared. A list consists of parameters `T name` and
`T name = d`, each perhaps behind some of the words `required`, `final` and `covariant`, and the last ones
may stand in a group.

`Dart.parameters` puts spaces in place of the brackets of groups and then splits the text at its commas.
The parts of a list are therefore those of its parameters (`ParameterList.parameters_text`), and one parameter
gives one part and those that its default value leaves behind (`ParameterDecl.reads_text`). The first part
is read as the name and the type, without the brackets of groups and without the words that are skipped.

Hence `ParameterList.parameters_eq_iff_forall_readable`: a list is read one to one exactly if each of its
defaults is undivided, no type in it has a bracket of a group or a skipped word, and no parameter has a
skipped word for its name.
-/

namespace CodeAtlas.Dart

open Text Fragment

/-! ### Reading words -/

/-- The parameter that is read from the words of a text. -/
def read (s : List Char) : Option Parameter :=
  let ws := (words s).filter (· ∉ skippedWords)
  ws.getLast?.map fun name =>
    { name := strippedAll "super." (strippedAll "this." (String.ofList name))
      typeName := phrase? (ws.dropLast.map String.ofList) }

/-- A text without the marks of annotations and default values. -/
def Clear (s : List Char) : Prop :=
  ∀ c ∈ s, c ≠ '=' ∧ c ≠ '@'

/-- The words that are read are those of the text that are not skipped. -/
theorem filter_wordList (s : List Char) :
    (wordList s).filter (fun w => w ∉ ["required", "final", "covariant", "const"])
      = ((words s).filter (· ∉ skippedWords)).map String.ofList := by
  have hskip (w : List Char) :
      String.ofList w ∈ ["required", "final", "covariant", "const"] ↔ w ∈ skippedWords := by
    have hlist : ["required", "final", "covariant", "const"] = skippedWords.map String.ofList := by decide
    rw [hlist]
    exact List.mem_map_of_injective fun _ _ => String.ofList_injective
  rw [wordList, List.filter_map]
  refine congrArg _ (List.filter_congr fun w _ => ?_)
  exact decide_eq_decide.2 (not_congr (hskip w))

/-- **What is read of a declaration**: its words, up to an equals sign if there is one. -/
theorem parameter?_eq_read {s decl : List Char} {text : List Char}
    (h : stripAnnotations text = ([], s)) (hdecl : words (before (· == '=') s) = words decl) :
    parameter? text = read decl := by
  unfold parameter? read
  dsimp only
  rw [h]
  dsimp only
  rw [filter_wordList, words_trim, hdecl, List.getLast?_map, List.map_dropLast]
  cases ((words decl).filter (· ∉ skippedWords)).getLast? <;> rfl

/-- Nothing is read from a text if all of its words are skipped. -/
theorem read_eq_none_iff {s : List Char} : read s = none ↔ Mute s := by
  rw [read, Option.map_eq_none_iff, List.getLast?_eq_none_iff, List.filter_eq_nil_iff, Mute]
  simp only [decide_eq_true_eq, not_not]

/-- A text without the mark of annotations has none. -/
theorem stripAnnotations_trim {s : List Char} (h : Clear s) :
    stripAnnotations (trim s) = ([], trim s) := by
  rcases trim_eq_nil_or_starts s with hnil | ⟨c, r, hstart, hc⟩
  · rw [hnil]
    rfl
  · have hmem : c ∈ s := trim_subset s (hstart ▸ List.mem_cons_self)
    rw [hstart]
    exact stripAnnotations_of_starts hc (h c hmem).2

/-- A text without an equals sign has no default value. -/
theorem before_of_clear {s : List Char} (h : Clear s) : before (· == '=') s = s :=
  before_of_notMem fun hmem => (h '=' hmem).1 rfl

/-- A part of marks and words is read from its words. -/
theorem parameter?_trim {s : List Char} (h : Clear s) : parameter? (trim s) = read s := by
  have hclear : Clear (trim s) := fun c hc => h c (trim_subset s hc)
  refine parameter?_eq_read (stripAnnotations_trim h) ?_
  rw [before_of_clear hclear, words_trim]

/-- What follows an equals sign is not read. -/
theorem parameter?_trim_eq {s : List Char} (h : Clear s) (hs : Starts s) (r : List Char) :
    parameter? (trim (s ++ '=' :: r)) = read s := by
  have hends : Ends (s ++ ['=']) := ⟨s, '=', rfl, by decide⟩
  have htrim : trim (s ++ '=' :: r) = s ++ '=' :: trimEnd r := by
    have hcut := trim_append (hs.append ['=']) hends r
    rwa [List.append_assoc, List.append_assoc] at hcut
  -- The declaration ends at the first equals sign, which is the one behind `s`.
  have hbefore : before (· == '=') (s ++ '=' :: trimEnd r) = s := by
    have hall : ∀ c ∈ s, (!(c == '=')) = true := fun c hc => by
      rw [beq_false_of_ne (h c hc).1]
      rfl
    rw [before, List.takeWhile_append_of_pos hall, List.takeWhile_cons_of_neg (by decide), List.append_nil]
  obtain ⟨c, t, hst, hc⟩ := hs
  have hstrip : stripAnnotations (s ++ '=' :: trimEnd r) = ([], s ++ '=' :: trimEnd r) := by
    rw [hst]
    exact stripAnnotations_of_starts hc (h c (hst ▸ List.mem_cons_self)).2
  rw [htrim]
  refine parameter?_eq_read hstrip ?_
  rw [hbefore]

/-! ### Reading parts -/

/-- The parameters that are read from the rest of a flattened text. -/
def reads (level : Int) (run s : List Char) : List Parameter :=
  (splitFrom ',' level run s).filterMap parameter?

/-- A part gives what is read from it, and nothing if it is blank. -/
theorem filterMap_listPart {run : List Char} (h : Clear run.reverse) (parts : List (List Char)) :
    (listPart run parts).filterMap parameter? = (read run.reverse).toList ++ parts.filterMap parameter? := by
  rw [listPart]
  split
  next hnil =>
    -- A blank part is not listed, and nothing could have been read from it either.
    have hmute : read run.reverse = none := by
      rw [read_eq_none_iff, Mute, ← words_trim, hnil]
      exact mute_nil
    rw [hmute]
    rfl
  next =>
    rw [List.filterMap_cons, parameter?_trim h]
    cases read run.reverse <;> rfl

theorem Clear.append {a b : List Char} (ha : Clear a) (hb : Clear b) : Clear (a ++ b) :=
  List.forall_mem_append.2 ⟨ha, hb⟩

/-- Putting spaces for brackets adds no mark. -/
theorem clear_flatten {s : List Char} (h : Clear s) : Clear (flatten s) := by
  intro c hc
  obtain ⟨d, hd, rfl⟩ := List.mem_map.1 hc
  split
  · decide
  · exact h d hd

/-- **Nothing is read exactly if the text is muted.** -/
theorem reads_eq_nil_iff {level : Int} {run s : List Char} (hrun : Clear run.reverse) (hs : Clear s) :
    reads level run s = [] ↔ Muted level run s := by
  -- By induction on the text, in step with the splitter: the part goes on, or it ends at a comma.
  induction s generalizing level run with
  | nil =>
    rw [reads, splitFrom_nil, filterMap_listPart hrun, Muted, ← read_eq_none_iff]
    cases read run.reverse <;> simp
  | cons c s ih =>
    have hc : Clear [c] := List.forall_mem_singleton.2 (hs c List.mem_cons_self)
    have hs : Clear s := fun d hd => hs d (List.mem_cons_of_mem c hd)
    rw [reads, splitFrom, Muted]
    split
    next hcomma =>
      -- The part ends here, and the next one starts with nothing in it.
      have hzero : reads 0 [] s = [] ↔ Muted 0 [] s := ih (fun d hd => absurd hd List.not_mem_nil) hs
      rw [filterMap_listPart hrun, hcomma.2, List.append_eq_nil_iff, Option.toList_eq_nil_iff,
        read_eq_none_iff]
      exact and_congr_right fun _ => hzero
    next =>
      refine ih ?_ hs
      rw [List.reverse_cons]
      exact hrun.append hc

/-- The first part gives its parameter whatever follows in it. -/
theorem filterMap_listPart_first {run : List Char} {x : Parameter} (hrun : Starts run.reverse)
    (hx : ∀ a, parameter? (trim (run.reverse ++ a)) = some x) (parts : List (List Char)) :
    (listPart run parts).filterMap parameter? = x :: parts.filterMap parameter? := by
  have hfirst := hx []
  rw [List.append_nil] at hfirst
  rw [listPart_of_starts (starts_trim hrun), List.filterMap_cons_some hfirst]

/-- **The first part is read as `x`, however it goes on.** Then nothing else is read exactly if the rest is
muted. -/
theorem reads_of_first {level : Int} {run s : List Char} {x : Parameter} (hrun : Starts run.reverse)
    (hx : ∀ a, parameter? (trim (run.reverse ++ a)) = some x) (hs : Clear s) :
    ∃ l, reads level run s = x :: l ∧ (l = [] ↔ RestMuted level s) := by
  -- The induction carries the hypothesis that the part gives `x` whatever is added to it.
  induction s generalizing level run with
  | nil => exact ⟨[], filterMap_listPart_first hrun hx [], iff_of_true rfl trivial⟩
  | cons c s ih =>
    have hs : Clear s := fun d hd => hs d (List.mem_cons_of_mem c hd)
    rw [reads, splitFrom, RestMuted]
    split
    next hcomma =>
      refine ⟨_, filterMap_listPart_first hrun hx _, ?_⟩
      rw [hcomma.2]
      exact reads_eq_nil_iff (fun d hd => absurd hd List.not_mem_nil) hs
    next =>
      -- The first part goes on by one character, which `hx` allows for.
      have hreverse (a : List Char) : (c :: run).reverse ++ a = run.reverse ++ c :: a := by
        rw [List.reverse_cons, List.append_assoc, List.singleton_append]
      refine ih ?_ (fun a => ?_) hs
      · rw [List.reverse_cons]
        exact hrun.append [c]
      · rw [hreverse]
        exact hx (c :: a)

/-! ### Words that are put together -/

/-- A text that lacks a character of the prefix keeps its beginning. -/
theorem stripAll_of_notMem {c : Char} {q s : List Char} (hq : c ∈ q) (hs : c ∉ s) : stripAll q s = s := by
  have hnone : stripPrefix? q s = none := by
    refine Option.eq_none_iff_forall_ne_some.2 fun r h => hs ?_
    rw [stripPrefix?_eq_some_iff.1 h]
    exact List.mem_append_left r hq
  exact stripAll_of_stripPrefix?_eq_none hnone

/-- Words are joined by single spaces. -/
theorem joined_map (ws : List (List Char)) :
    joined " " (ws.map String.ofList) = String.ofList (joinWith [' '] ws) := by
  induction ws using joinWith.induct with
  | case1 => rfl
  | case2 w => exact String.intercalate_singleton
  | case3 w v ws ih =>
    have hrest : String.intercalate " " (String.ofList v :: ws.map String.ofList)
        = String.ofList (joinWith [' '] (v :: ws)) := ih
    rw [joined, List.map_cons, List.map_cons, String.intercalate_cons_cons, hrest, joinWith,
      String.ofList_append, String.ofList_append]

/-- The type that is read from words. -/
theorem phrase?_eq_some {ws : List (List Char)} {s : List Char}
    (h : phrase? (ws.map String.ofList) = some (String.ofList s)) : joinWith [' '] ws = s := by
  unfold phrase? at h
  split at h
  · cases h
  · rw [joined_map] at h
    exact String.ofList_injective (Option.some.inj h)

/-- Words without one of them hold less than all of them. -/
theorem eq_of_sublist {l m : List (List Char)} (h : l.Sublist m) (hne : ∀ w ∈ m, w ≠ [])
    (hlength : m.flatten.length ≤ l.flatten.length) : l = m := by
  -- By induction on how the list lies in the other: no word may be left out.
  induction h with
  | slnil => rfl
  | @cons l m w h ih =>
    -- The word is not empty, so without it there is less.
    have hle : l.flatten.length ≤ m.flatten.length := h.flatten.length_le
    have hpos : 0 < w.length := List.length_pos_iff.2 (hne w List.mem_cons_self)
    rw [List.flatten_cons, List.length_append] at hlength
    omega
  | @cons_cons l m w h ih =>
    rw [List.flatten_cons, List.flatten_cons, List.length_append, List.length_append] at hlength
    rw [ih (fun v hv => hne v (List.mem_cons_of_mem w hv)) (by omega)]

/-- A text loses the brackets of groups when it is flattened, and nothing else. -/
theorem length_filter_flatten (s : List Char) :
    ((flatten s).filter fun c => !isBlank c).length + s.countP (fun c => decide (IsGroupBracket c))
      = (s.filter fun c => !isBlank c).length := by
  -- A bracket of a group is counted on the right, and on the left it has become blank.
  induction s with
  | nil => rfl
  | cons c s ih =>
    by_cases hc : IsGroupBracket c
    · have hflat : flatten (c :: s) = ' ' :: flatten s := by
        rcases hc with rfl | rfl | rfl | rfl <;> rfl
      have hsolid : (!isBlank c) = true := by
        rcases hc with rfl | rfl | rfl | rfl <;> decide
      have hcount : (c :: s).countP (fun c => decide (IsGroupBracket c))
          = s.countP (fun c => decide (IsGroupBracket c)) + 1 :=
        List.countP_cons_of_pos (decide_eq_true hc)
      rw [hflat, List.filter_cons_of_neg (by decide), hcount, List.filter_cons, if_pos hsolid,
        List.length_cons, ← ih]
      omega
    · have hcount : (c :: s).countP (fun c => decide (IsGroupBracket c))
          = s.countP (fun c => decide (IsGroupBracket c)) :=
        List.countP_cons_of_neg (by rwa [decide_eq_true_eq])
      rw [flatten_cons_of_not hc, hcount, List.filter_cons, List.filter_cons]
      split
      · rw [List.length_cons, List.length_cons, ← ih]
        omega
      · exact ih

/-- **Some words of a flattened text give the text back** only if they are all of them and the text has no
bracket of a group. -/
theorem eq_words_of_joinWith {l : List (List Char)} {s : List Char} (hsub : l.Sublist (words (flatten s)))
    (hjoin : joinWith [' '] l = s) :
    l = words (flatten s) ∧ ∀ c ∈ s, ¬IsGroupBracket c := by
  have hsolid : ∀ w ∈ l, ∀ c ∈ w, isBlank c = false := fun w hw c hc =>
    isBlank_of_mem_words (hsub.subset hw) hc
  -- The words joined by spaces have all the characters of the text that are not blank.
  have hwords : l.flatten.length = (s.filter fun c => !isBlank c).length := by
    rw [← filter_joinWith hsolid, hjoin]
  -- What the words lack of the text is at least its brackets, so there are none.
  have hflat := length_filter_flatten s
  have hle := hsub.flatten.length_le
  rw [← flatten_words] at hflat
  refine ⟨eq_of_sublist hsub (fun w => ne_nil_of_mem_words) (by omega), fun c hc hgroup => ?_⟩
  have hnone : s.countP (fun c => decide (IsGroupBracket c)) = 0 := by omega
  exact List.countP_eq_zero.1 hnone c hc (decide_eq_true hgroup)

/-! ### Parameters -/

/-- A word before a parameter. -/
inductive Mark where
  | required
  | final
  | covariant

/-- The text of a mark. -/
def Mark.text : Mark → List Char
  | .required => "required".toList
  | .final => "final".toList
  | .covariant => "covariant".toList

/-- **A declared parameter**, with its default value if it has one. -/
structure ParameterDecl where
  marks : List Mark := []
  type : TypeExpr
  name : Identifier
  value : Option Default := none

/-- The text of some marks, each with a space behind it. -/
def markText : List Mark → List Char
  | [] => []
  | m :: ms => m.text ++ ' ' :: markText ms

/-- The text of a default value behind its parameter. -/
def valueText : Option Default → List Char
  | none => []
  | some d => ' ' :: '=' :: ' ' :: d.text

namespace ParameterDecl

variable (p : ParameterDecl)

/-- The text of a parameter up to its default value. -/
def head : List Char :=
  markText p.marks ++ (p.type.text ++ ' ' :: p.name.chars)

/-- The text of a parameter. -/
def text : List Char :=
  p.head ++ valueText p.value

/-- What a parameter declares. -/
def declared : Parameter :=
  { name := String.ofList p.name.chars, typeName := some (String.ofList p.type.text) }

/-- **The name and the type are kept**: neither of them has a word that is skipped, and the type has no
bracket of a group. -/
structure Kept : Prop where
  ungrouped : ∀ c ∈ p.type.text, ¬IsGroupBracket c
  type_words : ∀ w ∈ words p.type.text, w ∉ skippedWords
  name_word : p.name.chars ∉ skippedWords

/-- **A parameter that is read as it is declared**: its name and its type are kept, and its default leaves
nothing behind. -/
structure Readable : Prop extends p.Kept where
  value : ∀ d ∈ p.value, d.Undivided

/-- The name of a parameter as a word. -/
def nameWord : Word where
  chars := p.name.chars
  ne_nil := p.name.ne_nil
  isNameChar c hc := isNameChar_of_isIdentifier (p.name.isIdentifier c hc)

/-- **The head of a parameter may stand outside of brackets.** -/
theorem outer_head : Outer p.head := by
  have hdecl : Outer (p.type.text ++ ' ' :: p.name.chars) :=
    p.type.outer.append_space (.of_word p.nameWord)
  rw [head]
  -- The marks are put before the declaration one by one.
  induction p.marks with
  | nil => exact hdecl
  | cons m ms ih =>
    have hmark : Outer m.text := by
      cases m <;> exact .of_word ⟨_, by decide, List.all_eq_true.1 (by decide)⟩
    rw [markText, List.append_assoc]
    exact hmark.append_space ih

/-- The brackets of a parameter are balanced. -/
theorem level_flatten_text (level : Int) : levelAfter level (flatten p.text) = level := by
  have hvalue : levelAfter level (flatten (valueText p.value)) = level := by
    match p.value with
    | none => rfl
    | some d => exact d.inner.1.level level
  rw [text, flatten_append, levelAfter_append, p.outer_head.level, hvalue]

/-- **What is read of one parameter**: its words up to the equals sign, and what its default value leaves
behind. -/
theorem reads_text {x : Parameter} (hx : read (flatten p.head) = some x) :
    ∃ l, reads 0 [] (flatten p.text) = x :: l ∧ (l = [] ↔ ∀ d ∈ p.value, d.Undivided) := by
  have hclear : Clear (flatten p.head) := clear_flatten p.outer_head.clear
  have hstarts : Starts (flatten p.head) := p.outer_head.starts_flatten
  have hlevel : levelAfter 0 (flatten p.head) = 0 := p.outer_head.level 0
  -- Without a default the parameter is one part, and the head is all of it.
  match hvalue : p.value with
  | none =>
    have htext : flatten p.text = flatten p.head ++ [] := by
      rw [text, hvalue, valueText, List.append_nil, List.append_nil]
    refine ⟨[], ?_, iff_of_true rfl fun d hd => nomatch hd⟩
    rw [htext, reads, splitFrom_of_whole p.outer_head.whole_zero, splitFrom_nil, List.append_nil,
      filterMap_listPart (by rwa [List.reverse_reverse]), List.reverse_reverse, hx]
    rfl
  | some d =>
    -- The head and the equals sign are whole, so the default value goes on with the first part.
    have htext : flatten p.text = flatten p.head ++ (" = ".toList ++ flatten d.text) := by
      rw [text, hvalue, flatten_append]
      rfl
    have hdefault : Clear (flatten d.text) := clear_flatten d.inner.1.clear
    have hundivided : RestMuted 0 (flatten d.text) ↔ ∀ e ∈ some d, e.Undivided := by
      have h : RestMuted 0 (flatten d.text ++ []) ↔ d.Undivided ∧ Muted 0 [] [] := d.restMuted_iff trivial
      rw [List.append_nil] at h
      rw [h]
      exact ⟨fun hd e he => Option.some.inj he ▸ hd.1, fun hd => ⟨hd d rfl, mute_nil⟩⟩
    have hfirst (a : List Char) :
        parameter? (trim ((" = ".toList.reverse ++ (flatten p.head).reverse).reverse ++ a)) = some x := by
      have heq : (" = ".toList.reverse ++ (flatten p.head).reverse).reverse ++ a
          = (flatten p.head ++ [' ']) ++ '=' :: ' ' :: a := by
        rw [List.reverse_append, List.reverse_reverse, List.reverse_reverse, List.append_assoc,
          List.append_assoc]
        rfl
      have hspace : words (flatten p.head ++ [' ']) = words (flatten p.head) :=
        words_append_of_blank (List.forall_mem_singleton.2 (by decide)) _
      have hclear' : Clear (flatten p.head ++ [' ']) := hclear.append (List.forall_mem_singleton.2 (by decide))
      rw [heq, parameter?_trim_eq hclear' (hstarts.append _), ← hx, read, read, hspace]
    have hrun : Starts (" = ".toList.reverse ++ (flatten p.head).reverse).reverse := by
      rw [List.reverse_append, List.reverse_reverse]
      exact hstarts.append _
    obtain ⟨l, hl, hnil⟩ := reads_of_first hrun hfirst hdefault
    refine ⟨l, ?_, hnil.trans hundivided⟩
    rw [← hl, htext, reads, splitFrom_of_whole p.outer_head.whole_zero, hlevel,
      splitFrom_of_whole (a := " = ".toList) (whole_of_notMem (by decide) 0), List.append_nil]
    rfl

/-! ### The head of a parameter -/

/-- Each mark is a word. -/
theorem words_markText (ms : List Mark) (s : List Char) :
    words (flatten (markText ms ++ s)) = ms.map Mark.text ++ words (flatten s) := by
  induction ms with
  | nil => rfl
  | cons m ms ih =>
    have hmark : words (flatten m.text) = [m.text] := by
      cases m <;> decide
    rw [markText, List.append_assoc, List.cons_append, flatten_append, flatten_cons_of_not (by decide),
      words_append_blank (by decide), hmark, ih]
    rfl

/-- The words of a head are its marks, the words of its type and its name. -/
theorem words_head :
    words (flatten p.head) = p.marks.map Mark.text ++ (words (flatten p.type.text) ++ [p.name.chars]) := by
  have hname : words (flatten p.name.chars) = [p.name.chars] := by
    have hflat : flatten p.name.chars = p.name.chars := flatten_of_not fun c hc =>
      not_isGroupBracket (not_isBracket (p.name.isIdentifier c hc))
    rw [hflat, words_of_solid (fun c hc => p.name.isBlank_of_mem hc) p.name.ne_nil]
  rw [head, words_markText, flatten_append, flatten_cons_of_not (by decide), words_append_blank (by decide),
    hname]

/-- The words of the type that are read. -/
def typeWords : List (List Char) :=
  (words (flatten p.type.text)).filter (· ∉ skippedWords)

theorem typeWords_ne_nil : p.typeWords ≠ [] := by
  obtain ⟨w, hw, hskip⟩ := p.type.exists_word
  exact List.ne_nil_of_mem (List.mem_filter.2 ⟨hw, decide_eq_true hskip⟩)

/-- Marks are skipped, so what is read is the type and the name. -/
theorem filter_words_head :
    (words (flatten p.head)).filter (· ∉ skippedWords)
      = p.typeWords ++ [p.name.chars].filter (· ∉ skippedWords) := by
  have hmarks : (p.marks.map Mark.text).filter (· ∉ skippedWords) = [] := by
    refine List.filter_eq_nil_iff.2 fun w hw => ?_
    obtain ⟨m, -, rfl⟩ := List.mem_map.1 hw
    cases m <;> decide
  rw [words_head, List.filter_append, List.filter_append, hmarks]
  rfl

/-- **Every parameter is read as one**, as it is declared exactly if its name and its type are kept. -/
theorem read_head : ∃ x, read (flatten p.head) = some x ∧ (x = p.declared ↔ p.Kept) := by
  by_cases hname : p.name.chars ∈ skippedWords
  · -- The last word of the type is read as the name, and the type is what stands before it.
    have hwords : (words (flatten p.head)).filter (· ∉ skippedWords) = p.typeWords := by
      have hdrop : [p.name.chars].filter (· ∉ skippedWords) = [] :=
        List.filter_cons_of_neg (by rwa [decide_eq_true_eq, not_not])
      rw [filter_words_head, hdrop, List.append_nil]
    obtain ⟨w, hw⟩ := Option.ne_none_iff_exists'.1 (mt List.getLast?_eq_none_iff.1 p.typeWords_ne_nil)
    refine ⟨_, by rw [read, hwords, hw, Option.map_some], ?_⟩
    refine iff_of_false (fun hx => ?_) fun h => h.name_word hname
    have hjoin := phrase?_eq_some (congrArg Parameter.typeName hx)
    have hsub : p.typeWords.Sublist (words (flatten p.type.text)) := List.filter_sublist
    -- The type would have all of its words and lack one of them.
    have hall := (eq_words_of_joinWith ((List.dropLast_sublist _).trans hsub) hjoin).1
    have hless : p.typeWords.dropLast.length < p.typeWords.length := by
      rw [List.length_dropLast]
      have hpos := List.length_pos_iff.2 p.typeWords_ne_nil
      omega
    have hle := hsub.length_le
    rw [hall] at hless
    omega
  · -- The last word is the name, and what stands before it is the type.
    have hwords : (words (flatten p.head)).filter (· ∉ skippedWords) = p.typeWords ++ [p.name.chars] := by
      have hkeep : [p.name.chars].filter (· ∉ skippedWords) = [p.name.chars] :=
        List.filter_cons_of_pos (decide_eq_true hname)
      rw [filter_words_head, hkeep]
    have hdot (q : String) (hq : '.' ∈ q.toList) :
        strippedAll q (String.ofList p.name.chars) = String.ofList p.name.chars := by
      have hnodot : '.' ∉ p.name.chars := p.name.notMem (by decide)
      rw [strippedAll, String.toList_ofList, stripAll_of_notMem hq hnodot]
    refine ⟨_, by rw [read, hwords, List.getLast?_concat, Option.map_some, List.dropLast_concat], ?_⟩
    rw [hdot "this." (by decide), hdot "super." (by decide)]
    -- The type is read as it is declared exactly if no word of it and no bracket is lost.
    constructor
    · intro hx
      have hjoin := phrase?_eq_some (congrArg Parameter.typeName hx)
      obtain ⟨hall, hungrouped⟩ := eq_words_of_joinWith List.filter_sublist hjoin
      refine ⟨hungrouped, fun w hw => ?_, hname⟩
      rw [← flatten_of_not hungrouped] at hw
      exact of_decide_eq_true (List.filter_eq_self.1 hall w hw)
    · intro hkept
      have hall : p.typeWords = words p.type.text := by
        rw [typeWords, flatten_of_not hkept.ungrouped]
        exact List.filter_eq_self.2 fun w hw => decide_eq_true (hkept.type_words w hw)
      have hne : (words p.type.text).map String.ofList ≠ [] := by
        rw [← hall]
        exact mt List.map_eq_nil_iff.1 p.typeWords_ne_nil
      rw [hall, phrase?, if_neg hne, joined_map,
        joinWith_words p.type.outer.starts p.type.outer.singleSpaced, declared]

/-- **One parameter is read as it is declared exactly if it is readable**, and it is never passed over. -/
theorem reads_eq_declared_iff :
    reads 0 [] (flatten p.text) ≠ [] ∧ (reads 0 [] (flatten p.text) = [p.declared] ↔ p.Readable) := by
  obtain ⟨x, hx, hkept⟩ := p.read_head
  obtain ⟨l, hl, hrest⟩ := p.reads_text hx
  rw [hl, List.cons_eq_cons, hkept, hrest]
  exact ⟨List.cons_ne_nil x l, fun h => ⟨h.1, h.2⟩, fun h => ⟨h.toKept, h.value⟩⟩

end ParameterDecl

/-! ### Lists -/

/-- A list of lists that are not empty is at most as long as what it holds together. -/
theorem length_le_length_flatMap {α β : Type} {f : α → List β} (hf : ∀ a, f a ≠ []) (l : List α) :
    l.length ≤ (l.flatMap f).length := by
  induction l with
  | nil => exact Nat.le_refl 0
  | cons a l ih =>
    have hpos := List.length_pos_iff.2 (hf a)
    rw [List.flatMap_cons, List.length_append, List.length_cons]
    omega

/-- Lists that are put together give one member for each only if each of them has one. -/
theorem flatMap_eq_map_iff {α β : Type} {f : α → List β} {g : α → β} (hf : ∀ a, f a ≠ []) {l : List α} :
    l.flatMap f = l.map g ↔ ∀ a ∈ l, f a = [g a] := by
  induction l with
  | nil => exact iff_of_true rfl fun a h => absurd h List.not_mem_nil
  | cons a l ih =>
    rw [List.flatMap_cons, List.map_cons, List.forall_mem_cons]
    constructor
    · intro h
      -- All lists have a member, so none of them can have two.
      have hlen := congrArg List.length h
      have hrest := length_le_length_flatMap hf l
      have hpos := List.length_pos_iff.2 (hf a)
      rw [List.length_append, List.length_cons, List.length_map] at hlen
      obtain ⟨b, hb⟩ := List.length_eq_one_iff.1 (show (f a).length = 1 by omega)
      rw [hb] at h ⊢
      obtain ⟨rfl, hl⟩ := List.cons.inj h
      exact ⟨rfl, ih.1 hl⟩
    · rintro ⟨ha, hl⟩
      rw [ha, ih.2 hl]
      rfl

/-- **A list of parameters**: those by position, and a group behind them. -/
structure ParameterList where
  positional : List ParameterDecl
  group : Option (Group × List ParameterDecl) := none

namespace ParameterList

/-- The text of a group of parameters. -/
def groupText (g : Group × List ParameterDecl) : List Char :=
  g.1.opening :: (joinWith ", ".toList (g.2.map ParameterDecl.text) ++ [g.1.closing])

/-- The text of a list of parameters. -/
def text (l : ParameterList) : List Char :=
  joinWith ", ".toList (l.positional.map ParameterDecl.text ++ l.group.toList.map groupText)

/-- All parameters of a list. -/
def all (l : ParameterList) : List ParameterDecl :=
  l.positional ++ l.group.toList.flatMap (·.2)

/-- The parts of balanced texts that commas join are their parts. -/
theorem reads_joinWith {ts : List (List Char)} (h : ∀ t ∈ ts, levelAfter 0 (flatten t) = 0) :
    levelAfter 0 (flatten (joinWith ", ".toList ts)) = 0 ∧
      reads 0 [] (flatten (joinWith ", ".toList ts)) = ts.flatMap fun t => reads 0 [] (flatten t) := by
  -- The cases are those of `joinWith`: no text, the last one, and one with others behind it.
  induction ts using joinWith.induct with
  | case1 => exact ⟨rfl, rfl⟩
  | case2 t => exact ⟨h t List.mem_cons_self, (List.flatMap_singleton (fun t => reads 0 [] (flatten t)) t).symm⟩
  | case3 s t r ih =>
    obtain ⟨hlevel, hreads⟩ := ih fun u hu => h u (List.mem_cons_of_mem s hu)
    have hs : levelAfter 0 (flatten s) = 0 := h s List.mem_cons_self
    have htext : flatten (joinWith ", ".toList (s :: t :: r))
        = flatten s ++ ',' :: ' ' :: flatten (joinWith ", ".toList (t :: r)) := by
      rw [joinWith, List.append_assoc, flatten_append]
      rfl
    constructor
    · rw [htext, levelAfter_append, hs]
      exact hlevel
    · rw [htext, reads, splitFrom_append_sep (by decide) hs, splitFrom_cons_space (by decide),
        List.filterMap_append, List.flatMap_cons, ← hreads]
      rfl

/-- The brackets of each parameter are balanced. -/
theorem level_text (ps : List ParameterDecl) :
    ∀ t ∈ ps.map ParameterDecl.text, levelAfter 0 (flatten t) = 0 := by
  intro t ht
  obtain ⟨p, -, rfl⟩ := List.mem_map.1 ht
  exact p.level_flatten_text 0

/-- The brackets of a group leave its parts as they are. -/
theorem reads_groupText (g : Group × List ParameterDecl) :
    levelAfter 0 (flatten (groupText g)) = 0 ∧
      reads 0 [] (flatten (groupText g)) = g.2.flatMap fun p => reads 0 [] (flatten p.text) := by
  obtain ⟨hlevel, hreads⟩ := reads_joinWith (level_text g.2)
  rw [List.flatMap_map] at hreads
  constructor
  · rw [groupText, flatten_group, levelAfter_cons, levelAfter_append]
    exact hlevel
  · rw [groupText, flatten_group, reads, splitFrom_cons_space (by decide),
      splitFrom_concat_space (by decide)]
    exact hreads

/-- **What is read of a list** is what is read of its parameters. -/
theorem parameters_text (l : ParameterList) :
    parameters l.text = l.all.flatMap fun p => reads 0 [] (flatten p.text) := by
  -- Every text between two commas is balanced, so the list is split at these commas and inside of the texts.
  have hlevel : ∀ t ∈ l.positional.map ParameterDecl.text ++ l.group.toList.map groupText,
      levelAfter 0 (flatten t) = 0 := by
    refine List.forall_mem_append.2 ⟨level_text _, fun t ht => ?_⟩
    obtain ⟨g, -, rfl⟩ := List.mem_map.1 ht
    exact (reads_groupText g).1
  have hgroup : (l.group.toList.map groupText).flatMap (fun t => reads 0 [] (flatten t))
      = (l.group.toList.flatMap (·.2)).flatMap fun p => reads 0 [] (flatten p.text) := by
    rw [List.flatMap_map, List.flatMap_assoc]
    exact List.flatMap_congr fun g _ => (reads_groupText g).2
  have hreads := (reads_joinWith hlevel).2
  rw [List.flatMap_append, List.flatMap_map, hgroup] at hreads
  rw [all, List.flatMap_append]
  exact hreads

/-- **A list of parameters is read as it is declared exactly if all of its parameters are readable.** The
brackets of literals are gone when the list is split, so the comma between two entries of a default value
ends a part, and what follows it is read as a further parameter. -/
theorem parameters_eq_iff_forall_readable (l : ParameterList) :
    parameters l.text = l.all.map ParameterDecl.declared ↔ ∀ p ∈ l.all, p.Readable := by
  rw [parameters_text, flatMap_eq_map_iff fun p => p.reads_eq_declared_iff.1]
  exact forall₂_congr fun p _ => p.reads_eq_declared_iff.2

/-- A list of numbers as the default value of the first of two parameters. -/
def listDefault : ParameterList where
  positional := []
  group := some (.named,
    [{ type := .apply { chars := "List".toList } [.name { chars := "int".toList }]
       name := { chars := "xs".toList }
       value := some (.literal true [] .optional
         [.word { chars := "1".toList }, .word { chars := "2".toList }]) },
     { type := .name { chars := "int".toList }
       name := { chars := "y".toList }
       value := some (.word { chars := "0".toList }) }])

/-- **The second entry of a default value is read as a parameter.** -/
theorem parameters_listDefault :
    String.ofList listDefault.text = "\x7bList<int> xs = const [1, 2], int y = 0\x7d" ∧
      parameters listDefault.text
        = [{ name := "xs", typeName := some "List<int>" }, { name := "2", typeName := none },
           { name := "y", typeName := some "int" }] ∧
      listDefault.all.map ParameterDecl.declared
        = [{ name := "xs", typeName := some "List<int>" }, { name := "y", typeName := some "int" }] := by
  decide +kernel

end ParameterList

end CodeAtlas.Dart
