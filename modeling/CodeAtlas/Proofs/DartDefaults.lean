import CodeAtlas.Proofs.DartTypes

/-!
# Default values in lists of Dart parameters

A default value is a word or a literal of a list, a set or a map, and literals are nested at will. Once the
brackets of groups are spaces, the brackets of literals are gone too, and a comma between the entries of a
literal looks like one between two parameters. So a literal leaves further parts behind, and each of them is
read as a parameter unless all of its words are skipped:

* `Muted` — no part of a text is read as a parameter, and `RestMuted` — none behind the first part;
* `Default.Silent` — a default without a word that is read, and `Default.muted_iff` — these are those whose
  texts are muted;
* `Default.Undivided` — a default all of whose entries behind the first comma are silent, and
  `Default.restMuted_iff` — these are those whose texts leave nothing behind.
-/

namespace CodeAtlas.Dart

open Text Fragment

/-! ### Parts that are not read -/

/-- All words of the text are skipped. -/
def Mute (s : List Char) : Prop :=
  ∀ w ∈ words s, w ∈ skippedWords

/-- **No part is read as a parameter** in the rest of a text; `run` is the part being read, reversed. -/
def Muted : (level : Int) → (run : List Char) → List Char → Prop
  | _, run, [] => Mute run.reverse
  | level, run, c :: s =>
    if c = ',' ∧ levelStep level c = 0 then Mute run.reverse ∧ Muted 0 [] s
    else Muted (levelStep level c) (c :: run) s

/-- **No part but the first one is read as a parameter** in the rest of a text. -/
def RestMuted : (level : Int) → List Char → Prop
  | _, [] => True
  | level, c :: s =>
    if c = ',' ∧ levelStep level c = 0 then Muted 0 [] s else RestMuted (levelStep level c) s

/-- The text goes on with a comma, spaces aside, or it ends. -/
def Trails : List Char → Prop
  | [] => True
  | c :: s => c = ',' ∨ c = ' ' ∧ Trails s

theorem trails_comma (s : List Char) : Trails (',' :: s) :=
  .inl rfl

section Muting

variable {level : Int} {run a s more : List Char} {c : Char}

theorem mute_nil : Mute [] :=
  fun _ h => absurd h List.not_mem_nil

/-- Around a blank the words are those on either side. -/
theorem mute_append_blank (hc : isBlank c = true) (a b : List Char) :
    Mute (a ++ c :: b) ↔ Mute a ∧ Mute b := by
  rw [Mute, words_append_blank hc, List.forall_mem_append, Mute, Mute]

/-- A text with a character that is in no skipped word is not muted. -/
theorem not_mute_of_mem (hc : c ∈ s) (hblank : isBlank c = false) (hletter : isAsciiLetter c = false) :
    ¬Mute s := by
  obtain ⟨w, hw, hskip⟩ := exists_word_of_mem hc hblank hletter
  exact fun h => hskip (h w hw)

/-- **A mark that is no letter is read**, wherever it stands: the part with it has a word that is not skipped. -/
theorem not_muted_of_mem (hc : c ∈ run ∨ c ∈ s) (hcomma : c ≠ ',') (hblank : isBlank c = false)
    (hletter : isAsciiLetter c = false) : ¬Muted level run s := by
  -- By induction on the text, with the mark in the part being read or in what is left.
  induction s generalizing level run with
  | nil =>
    have hrun : c ∈ run.reverse := List.mem_reverse.2 (hc.resolve_right List.not_mem_nil)
    exact not_mute_of_mem hrun hblank hletter
  | cons d s ih =>
    rw [Muted]
    split
    next hd =>
      -- The part ends here: the character is in it, or in one of those that follow.
      rintro ⟨hmute, hrest⟩
      rcases hc with hc | hc
      · exact not_mute_of_mem (List.mem_reverse.2 hc) hblank hletter hmute
      · exact ih (.inr (List.mem_of_ne_of_mem (hd.1 ▸ hcomma) hc)) hrest
    next =>
      refine ih ?_
      rcases hc with hc | hc
      · exact .inl (List.mem_cons_of_mem d hc)
      · rcases List.mem_cons.1 hc with rfl | hc
        · exact .inl List.mem_cons_self
        · exact .inr hc

/-- What stands before white space in a part is muted by itself. -/
theorem muted_append_blank (hc : isBlank c = true) (r : List Char) :
    Muted level (r ++ c :: run) s ↔ Mute run.reverse ∧ Muted level r s := by
  have hreverse (r : List Char) : (r ++ c :: run).reverse = run.reverse ++ c :: r.reverse := by
    rw [List.reverse_append, List.reverse_cons, List.append_assoc, List.singleton_append]
  induction s generalizing level r with
  | nil => rw [Muted, Muted, hreverse, mute_append_blank hc]
  | cons d s ih =>
    rw [Muted, Muted]
    split
    · rw [hreverse, mute_append_blank hc, and_assoc]
    · exact ih (d :: r)

/-- A space ends a word, so what has been read so far stands for itself. -/
theorem muted_cons_space : Muted 0 run (' ' :: s) ↔ Mute run.reverse ∧ Muted 0 [] s := by
  rw [Muted, if_neg (by decide)]
  exact muted_append_blank (by decide) []

theorem muted_cons_comma : Muted 0 run (',' :: s) ↔ Mute run.reverse ∧ Muted 0 [] s := by
  rw [Muted, if_pos ⟨rfl, rfl⟩]

theorem muted_nil_cons_space : Muted 0 [] (' ' :: s) ↔ Muted 0 [] s :=
  muted_cons_space.trans (and_iff_right mute_nil)

/-- A comma in front counts for nothing: the part before it is empty. -/
theorem muted_nil_cons_comma : Muted 0 [] (',' :: s) ↔ Muted 0 [] s :=
  muted_cons_comma.trans (and_iff_right mute_nil)

/-- A text that trails ends the part before it. -/
theorem muted_of_trails (h : Trails more) : Muted 0 run more ↔ Mute run.reverse ∧ Muted 0 [] more := by
  match more, h with
  | [], _ => exact (and_iff_left mute_nil).symm
  | c :: s, .inl hc =>
    rw [hc, muted_cons_comma, muted_nil_cons_comma]
  | c :: s, .inr hc =>
    rw [hc.1, muted_cons_space, muted_nil_cons_space]

/-- A text without a comma at level zero belongs to the part that is being read. -/
theorem muted_append_of_whole (h : Whole ',' level a) :
    Muted level run (a ++ s) ↔ Muted (levelAfter level a) (a.reverse ++ run) s := by
  induction a generalizing level run with
  | nil => rfl
  | cons d a ih =>
    rw [List.cons_append, Muted, if_neg h.1, ih h.2, levelAfter_cons, List.reverse_cons, List.append_assoc,
      List.singleton_append]

/-- A beginning without a comma at level zero belongs to the first part. -/
theorem restMuted_append_of_whole (h : Whole ',' level a) :
    RestMuted level (a ++ s) ↔ RestMuted (levelAfter level a) s := by
  induction a generalizing level with
  | nil => rfl
  | cons d a ih => rw [List.cons_append, RestMuted, if_neg h.1, ih h.2, levelAfter_cons]

/-- A part that goes on with spaces only is the first one, so the rest is all that counts. -/
theorem restMuted_of_trails (h : Trails more) : RestMuted 0 more ↔ Muted 0 [] more := by
  induction more with
  | nil => exact iff_of_true trivial mute_nil
  | cons c s ih =>
    rcases h with rfl | ⟨rfl, h⟩
    · rw [RestMuted, if_pos ⟨rfl, rfl⟩, muted_nil_cons_comma]
    · rw [muted_nil_cons_space, ← ih h]
      rfl

/-- Behind a comma at level zero no character may stand that is in no skipped word. -/
theorem not_restMuted_of_mem (ha : ¬Whole ',' level a) (hc : c ∈ s) (hcomma : c ≠ ',')
    (hblank : isBlank c = false) (hletter : isAsciiLetter c = false) : ¬RestMuted level (a ++ s) := by
  induction a generalizing level with
  | nil => exact absurd trivial ha
  | cons d a ih =>
    rw [List.cons_append, RestMuted]
    split
    next => exact not_muted_of_mem (.inr (List.mem_append_right a hc)) hcomma hblank hletter
    next hd => exact ih fun hwhole => ha ⟨hd, hwhole⟩

end Muting

/-! ### Defaults -/

/-- **A default value**, or an entry of a literal. -/
inductive Default where
  | word (w : Word)
  /-- An entry of a map: `key: value`. -/
  | pair (key value : Default)
  /-- A literal in one of the two kinds of brackets: `const <K, V>{a: 1, b: 2}`. -/
  | literal (isConst : Bool) (types : List TypeExpr) (g : Group) (entries : List Default)

/-- The word before a literal that is constant. -/
def constText (isConst : Bool) : List Char :=
  if isConst then "const ".toList else []

/-- The type arguments of a literal. -/
def argumentText : List TypeExpr → List Char
  | [] => []
  | t :: ts => '<' :: (TypeExpr.listText (t :: ts) ++ ['>'])

namespace Default

mutual

/-- The text of a default value. -/
def text : Default → List Char
  | .word w => w.chars
  | .pair key value => key.text ++ ':' :: ' ' :: value.text
  | .literal isConst types g entries =>
    constText isConst ++ (argumentText types ++ g.opening :: (listText entries ++ [g.closing]))

/-- The text of entries with a comma between them. -/
def listText : List Default → List Char
  | [] => []
  | [d] => d.text
  | d :: e :: l => d.text ++ ',' :: ' ' :: listText (e :: l)

end

mutual

/-- **No word of the default is read**: it is a skipped word, or a literal that holds no others. -/
def Silent : Default → Prop
  | .word w => w.chars ∈ skippedWords
  | .pair _ _ => False
  | .literal _ types _ entries => types = [] ∧ ListSilent entries

/-- All of the entries are silent. -/
def ListSilent : List Default → Prop
  | [] => True
  | d :: l => d.Silent ∧ ListSilent l

end

mutual

/-- **The default has no comma** outside of its type arguments: no literal in it has two entries. -/
def Single : Default → Prop
  | .word _ => True
  | .pair key value => key.Single ∧ value.Single
  | .literal _ _ _ entries => ListSingle entries

/-- There is at most one entry, and it has no comma. -/
def ListSingle : List Default → Prop
  | [] => True
  | [d] => d.Single
  | _ :: _ :: _ => False

end

mutual

/-- **The default leaves nothing behind**: in each literal all entries but the first one are silent. -/
def Undivided : Default → Prop
  | .word _ => True
  | .pair key value => key.Single ∧ value.Undivided
  | .literal _ _ _ entries => ListUndivided entries

/-- The first entry leaves nothing behind, and the others are silent. -/
def ListUndivided : List Default → Prop
  | [] => True
  | d :: l => d.Undivided ∧ ListSilent l

end

/-! ### The texts of defaults -/

/-- Type arguments may stand inside brackets. -/
theorem inner_argumentText (types : List TypeExpr) : Inner (argumentText types) := by
  cases types with
  | nil => exact .nil
  | cons t ts => exact (TypeExpr.inner_listText (t :: ts)).enclosed enclosing_angle

theorem whole_argumentText (types : List TypeExpr) : Whole ',' 0 (flatten (argumentText types)) := by
  cases types with
  | nil => trivial
  | cons t ts => exact whole_enclosed enclosing_angle (TypeExpr.inner_listText (t :: ts)) (Int.le_refl 0)

mutual

/-- **A default value may stand inside brackets**, and it does not start with a space. -/
theorem inner : (d : Default) → Inner d.text ∧ Starts d.text
  | .word w => ⟨(Outer.of_word w).toInner, (Outer.of_word w).starts⟩
  | .pair key value => by
    have hcolon : Inner [':'] := .of_isNameChar (List.all_eq_true.1 (by decide))
    have hvalue := hcolon.append (value.inner.1.cons_space value.inner.2)
    exact ⟨key.inner.1.append hvalue, key.inner.2.append _⟩
  | .literal isConst types g entries => by
    -- The literal without `const`, which may be followed by what stands in brackets of its own.
    have hbody : Inner (argumentText types ++ g.opening :: (listText entries ++ [g.closing])) :=
      (inner_argumentText types).append ((inner_listText entries).grouped g)
    have hstarts : Starts (argumentText types ++ g.opening :: (listText entries ++ [g.closing])) := by
      cases types with
      | nil => exact ⟨g.opening, _, rfl, (g.apart _ List.mem_cons_self).1⟩
      | cons t ts => exact ⟨'<', _, rfl, by decide⟩
    cases isConst with
    | false => exact ⟨hbody, hstarts⟩
    | true =>
      have hword : Inner "const".toList := .of_isNameChar (List.all_eq_true.1 (by decide))
      exact ⟨hword.append (hbody.cons_space hstarts), 'c', _, rfl, by decide⟩

/-- So may entries with commas between them. -/
theorem inner_listText : (l : List Default) → Inner (listText l)
  | [] => .nil
  | [d] => d.inner.1
  | d :: e :: l => by
    have hstarts : Starts (listText (e :: l)) := by
      cases l with
      | nil => exact e.inner.2
      | cons f l => exact e.inner.2.append _
    exact d.inner.1.list (inner_listText (e :: l)) hstarts

end

/-- A colon is no bracket of a group. -/
theorem flatten_pair (key value : Default) :
    flatten (text (.pair key value)) = flatten key.text ++ ':' :: ' ' :: flatten value.text := by
  rw [text, flatten_append]
  rfl

theorem flatten_constText (isConst : Bool) : flatten (constText isConst) = constText isConst := by
  cases isConst <;> rfl

/-- The brackets of a literal become spaces. -/
theorem flatten_literal (isConst : Bool) (types : List TypeExpr) (g : Group) (entries : List Default) :
    flatten (text (.literal isConst types g entries)) = constText isConst ++
      (flatten (argumentText types) ++ ' ' :: (flatten (listText entries) ++ [' '])) := by
  rw [text, flatten_append, flatten_append, flatten_constText, flatten_group]

/-- The commas between entries stay. -/
theorem flatten_listText (d e : Default) (l : List Default) :
    flatten (listText (d :: e :: l)) = flatten d.text ++ ',' :: ' ' :: flatten (listText (e :: l)) := by
  rw [listText, flatten_append]
  rfl

/-- The word before a literal holds no comma. -/
theorem whole_constText (isConst : Bool) : Whole ',' 0 (constText isConst) := by
  cases isConst
  · trivial
  · exact whole_of_notMem (by decide) 0

theorem levelAfter_constText (isConst : Bool) : levelAfter 0 (constText isConst) = 0 := by
  cases isConst <;> rfl

/-- The word before a literal is skipped. -/
theorem muted_constText (isConst : Bool) (s : List Char) :
    Muted 0 [] (constText isConst ++ s) ↔ Muted 0 [] s := by
  cases isConst with
  | false => rfl
  | true =>
    have hconst : Mute "const".toList.reverse.reverse := by
      rw [List.reverse_reverse, Mute]
      decide
    have hsplit : constText true ++ s = "const".toList ++ ' ' :: s := rfl
    rw [hsplit, muted_append_of_whole (whole_of_notMem (by decide) 0)]
    exact muted_cons_space.trans (and_iff_right hconst)

/-! ### What a default leaves behind -/

/-- A word is read unless it is skipped. -/
theorem muted_word (w : Word) {more : List Char} (h : Trails more) :
    Muted 0 [] (w.chars ++ more) ↔ w.chars ∈ skippedWords ∧ Muted 0 [] more := by
  have hchar {c : Char} (hc : c ∈ w.chars) := isNameChar_eq_true.1 (w.isNameChar c hc)
  have hwhole : Whole ',' 0 w.chars := whole_of_notMem (fun hc => (hchar hc).2.2.1 rfl) 0
  have hlevel : levelAfter 0 w.chars = 0 := levelAfter_of_not_isBracket (fun c hc => (hchar hc).2.1) 0
  have hmute : Mute w.chars ↔ w.chars ∈ skippedWords := by
    rw [Mute, words_of_solid (fun c hc => (hchar hc).1) w.ne_nil, List.forall_mem_singleton]
  rw [muted_append_of_whole hwhole, hlevel, List.append_nil, muted_of_trails h, List.reverse_reverse, hmute]

theorem flatten_word (w : Word) : flatten w.chars = w.chars :=
  flatten_of_not fun c hc => not_isGroupBracket (isNameChar_eq_true.1 (w.isNameChar c hc)).2.1

mutual

/-- **The text of a default is muted exactly if the default is silent.** -/
theorem muted_iff (d : Default) {more : List Char} (h : Trails more) :
    Muted 0 [] (flatten d.text ++ more) ↔ d.Silent ∧ Muted 0 [] more := by
  -- Both directions at once: the three kinds of defaults differ in whether they hold a mark that is read.
  cases d with
  | word w =>
    rw [text, flatten_word]
    exact muted_word w h
  | pair key value =>
    -- A colon is in no skipped word.
    have hcolon : ':' ∈ flatten (text (.pair key value)) ++ more := by
      rw [flatten_pair, List.append_assoc]
      exact List.mem_append_right _ List.mem_cons_self
    refine iff_of_false ?_ fun hsilent => hsilent.1
    exact not_muted_of_mem (.inr hcolon) (by decide) (by decide) (by decide)
  | literal isConst types g entries =>
    cases types with
    | nil =>
      -- The brackets are spaces, so the entries are read as if they stood alone.
      have hspace : Trails (' ' :: more) := .inr ⟨rfl, h⟩
      rw [flatten_literal, List.append_assoc, muted_constText]
      show Muted 0 [] (' ' :: (flatten (listText entries) ++ [' '] ++ more)) ↔ _
      rw [muted_nil_cons_space, List.append_assoc, List.singleton_append, muted_listText_iff entries hspace,
        muted_nil_cons_space]
      exact and_congr_left fun _ => (and_iff_right rfl).symm
    | cons t ts =>
      -- Neither is an angle bracket.
      have hangle : '<' ∈ flatten (text (.literal isConst (t :: ts) g entries)) ++ more := by
        rw [flatten_literal, List.append_assoc]
        exact List.mem_append_right _ List.mem_cons_self
      refine iff_of_false ?_ fun hsilent => nomatch hsilent.1.1
      exact not_muted_of_mem (.inr hangle) (by decide) (by decide) (by decide)

/-- Entries are muted if all of them are. -/
theorem muted_listText_iff (l : List Default) {more : List Char} (h : Trails more) :
    Muted 0 [] (flatten (listText l) ++ more) ↔ ListSilent l ∧ Muted 0 [] more := by
  match l with
  | [] => exact (and_iff_right trivial).symm
  | [d] =>
    rw [ListSilent, ListSilent, and_true]
    exact muted_iff d h
  | d :: e :: l =>
    rw [flatten_listText, List.append_assoc, List.cons_append, List.cons_append,
      muted_iff d (trails_comma _), muted_nil_cons_comma, muted_nil_cons_space, muted_listText_iff (e :: l) h]
    exact and_assoc.symm

end

mutual

/-- A comma outside of type arguments is at level zero. -/
theorem whole_iff (d : Default) : Whole ',' 0 (flatten d.text) ↔ d.Single := by
  cases d with
  | word w =>
    rw [text]
    exact iff_of_true (Outer.of_word w).whole_zero trivial
  | pair key value =>
    -- Neither of the two parts of a pair may have a comma.
    rw [flatten_pair, whole_append, key.inner.1.level, whole_cons_of_ne (by decide),
      whole_cons_of_ne (by decide), whole_iff key]
    exact and_congr_right fun _ => whole_iff value
  | literal isConst types g entries =>
    rw [flatten_literal, whole_append, levelAfter_constText, whole_append,
      (inner_argumentText types).level, whole_cons_of_ne (by decide), whole_append]
    show _ ∧ _ ∧ Whole ',' 0 _ ∧ _ ↔ _
    rw [whole_listText_iff entries]
    exact ⟨fun hwhole => hwhole.2.2.1, fun hsingle =>
      ⟨whole_constText isConst, whole_argumentText types, hsingle, whole_of_notMem (by decide) _⟩⟩

/-- A comma between two entries is at level zero once the brackets of the literal are gone. -/
theorem whole_listText_iff (l : List Default) : Whole ',' 0 (flatten (listText l)) ↔ ListSingle l := by
  match l with
  | [] => exact iff_of_true trivial trivial
  | [d] => exact whole_iff d
  | d :: e :: l =>
    refine iff_of_false ?_ id
    rw [flatten_listText, whole_append, d.inner.1.level]
    exact fun hwhole => hwhole.2.1 ⟨rfl, rfl⟩

end

mutual

/-- **A default leaves no part behind that is read exactly if it is undivided.** -/
theorem restMuted_iff (d : Default) {more : List Char} (h : Trails more) :
    RestMuted 0 (flatten d.text ++ more) ↔ d.Undivided ∧ Muted 0 [] more := by
  -- A word leaves nothing behind, and of a pair and a literal the first comma decides.
  cases d with
  | word w =>
    rw [text, restMuted_append_of_whole (Outer.of_word w).whole_zero, (Outer.of_word w).level,
      restMuted_of_trails h]
    exact (and_iff_right trivial).symm
  | pair key value =>
    rw [flatten_pair, List.append_assoc]
    -- A comma in the key leaves the colon behind it in another part.
    by_cases hkey : key.Single
    · rw [restMuted_append_of_whole ((whole_iff key).2 hkey), key.inner.1.level]
      show RestMuted 0 (flatten value.text ++ more) ↔ _
      rw [restMuted_iff value h]
      exact and_congr_left fun _ => (and_iff_right hkey).symm
    · refine iff_of_false ?_ fun hundivided => hkey hundivided.1.1
      exact not_restMuted_of_mem (mt (whole_iff key).1 hkey) (List.mem_cons_self (a := ':')) (by decide)
        (by decide) (by decide)
  | literal isConst types g entries =>
    have hspace : Trails (' ' :: more) := .inr ⟨rfl, h⟩
    rw [flatten_literal, List.append_assoc, List.append_assoc,
      restMuted_append_of_whole (whole_constText isConst), levelAfter_constText,
      restMuted_append_of_whole (whole_argumentText types), (inner_argumentText types).level]
    show RestMuted 0 (flatten (listText entries) ++ [' '] ++ more) ↔ _
    rw [List.append_assoc, List.singleton_append, restMuted_listText_iff entries hspace,
      muted_nil_cons_space]
    rfl

/-- Of entries, those behind the first comma count. -/
theorem restMuted_listText_iff (l : List Default) {more : List Char} (h : Trails more) :
    RestMuted 0 (flatten (listText l) ++ more) ↔ ListUndivided l ∧ Muted 0 [] more := by
  match l with
  | [] => exact (restMuted_of_trails h).trans (and_iff_right trivial).symm
  | [d] =>
    rw [ListUndivided, ListSilent, and_true]
    exact restMuted_iff d h
  | d :: e :: l =>
    -- Behind the first comma all parts count.
    rw [flatten_listText, List.append_assoc, List.cons_append, List.cons_append,
      restMuted_iff d (trails_comma _), muted_nil_cons_comma, muted_nil_cons_space,
      muted_listText_iff (e :: l) h]
    exact and_assoc.symm

end

end Default

end CodeAtlas.Dart
