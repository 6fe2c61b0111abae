import CodeAtlas.Proofs.TopLevelParts
import CodeAtlas.Source.Dart

/-!
# Types of Dart in lists of parameters

The types that the parameters of Dart functions are declared with, and how they are written: names,
generic types, types with a question mark, types of functions and records, nested at will, with named and
optional groups inside them.

`Dart.flatten` puts spaces in place of the brackets of groups before a list is split, so the statements here
are about the flattened text:

* `Inner` — what may stand inside brackets: the brackets of the text are balanced, and none of its commas is
  at level zero if the text is not;
* `Outer` — what may stand outside of them: no comma of the text is at level zero;
* `TypeExpr.outer` — the text of a type is of this sort, by `Inner` of all that stands inside of it.

A parameter is read from words, and some words are skipped (`skippedWords`); a type has a word that is not
(`TypeExpr.exists_word`).
-/

namespace CodeAtlas.Dart

open Text Fragment

/-! ### Words that are skipped -/

/-- The words that `parameter?` passes over. -/
def skippedWords : List (List Char) :=
  ["required", "final", "covariant", "const"].map String.toList

/-- The words that are skipped are made of letters. -/
theorem isAsciiLetter_of_mem_skippedWords :
    ∀ w ∈ skippedWords, ∀ c ∈ w, isAsciiLetter c = true := by
  have hall : ∀ w ∈ skippedWords, w.all isAsciiLetter = true := by decide
  exact fun w hw => List.all_eq_true.1 (hall w hw)

/-- A character that is no letter belongs to a word that is not skipped. -/
theorem exists_word_of_mem {s : List Char} {c : Char} (hc : c ∈ s) (hblank : isBlank c = false)
    (hletter : isAsciiLetter c = false) : ∃ w ∈ words s, w ∉ skippedWords := by
  have hmem : c ∈ (words s).flatten := by
    rw [flatten_words, List.mem_filter, hblank]
    exact ⟨hc, rfl⟩
  obtain ⟨w, hw, hcw⟩ := List.mem_flatten.1 hmem
  refine ⟨w, hw, fun hskip => ?_⟩
  have hcontra := isAsciiLetter_of_mem_skippedWords w hskip c hcw
  rw [hletter] at hcontra
  cases hcontra

/-! ### Groups -/

/-- A bracket of a group of parameters. -/
def IsGroupBracket (c : Char) : Prop :=
  c = '\x7b' ∨ c = '\x7d' ∨ c = '[' ∨ c = ']'

instance (c : Char) : Decidable (IsGroupBracket c) :=
  inferInstanceAs (Decidable (_ ∨ _))

/-- **The brackets of a group**: of named parameters, or of optional ones by position. -/
inductive Group where
  | named
  | optional

/-- The bracket that opens a group. -/
def Group.opening : Group → Char
  | .named => '\x7b'
  | .optional => '['

/-- The bracket that closes a group. -/
def Group.closing : Group → Char
  | .named => '\x7d'
  | .optional => ']'

theorem Group.apart (g : Group) :
    ∀ c ∈ [g.opening, g.closing], isBlank c = false ∧ c ≠ '=' ∧ c ≠ '@' := by
  rw [List.forall_mem_cons, List.forall_mem_singleton]
  cases g <;> decide

/-- Brackets of groups are replaced one by one. -/
theorem flatten_append (a b : List Char) : flatten (a ++ b) = flatten a ++ flatten b :=
  List.map_append

/-- What is no bracket of a group stays. -/
theorem flatten_cons_of_not {c : Char} (h : ¬IsGroupBracket c) (s : List Char) :
    flatten (c :: s) = c :: flatten s := by
  unfold IsGroupBracket at h
  have hc : (c == '\x7b' || c == '\x7d' || c == '[' || c == ']') = false := by
    rw [Bool.eq_false_iff]
    intro heq
    simp only [Bool.or_eq_true, beq_iff_eq] at heq
    tauto
  rw [flatten, List.map_cons, if_neg (by rw [hc]; decide), flatten]

/-- A text without them stays as it is. -/
theorem flatten_of_not {s : List Char} (h : ∀ c ∈ s, ¬IsGroupBracket c) : flatten s = s := by
  induction s with
  | nil => rfl
  | cons c s ih =>
    rw [flatten_cons_of_not (h c List.mem_cons_self), ih fun d hd => h d (List.mem_cons_of_mem c hd)]

/-- A group in its brackets is what it holds between two spaces. -/
theorem flatten_group (g : Group) (s : List Char) :
    flatten (g.opening :: (s ++ [g.closing])) = ' ' :: (flatten s ++ [' ']) := by
  have hopen : flatten [g.opening] = [' '] := by cases g <;> rfl
  have hclose : flatten [g.closing] = [' '] := by cases g <;> rfl
  rw [← List.singleton_append, flatten_append, flatten_append, hopen, hclose]
  rfl

/-! ### Words of types -/

/-- A character of a name or of a number. -/
def isNameChar (c : Char) : Bool :=
  !isBlank c && !decide (IsBracket c) && c != ',' && c != '=' && c != '@'

theorem isNameChar_eq_true {c : Char} :
    isNameChar c = true ↔ isBlank c = false ∧ ¬IsBracket c ∧ c ≠ ',' ∧ c ≠ '=' ∧ c ≠ '@' := by
  simp [isNameChar, and_assoc]

/-- **A word**: a name, perhaps behind a prefix, or a number. -/
structure Word where
  chars : List Char
  ne_nil : chars ≠ [] := by decide
  isNameChar : ∀ c ∈ chars, isNameChar c = true := by exact List.all_eq_true.1 (by decide)

/-- **The name of a type**; none of the words that are skipped can be one. -/
structure TypeName extends Word where
  not_skipped : chars ∉ skippedWords := by decide

/-- Characters of identifiers are among these. -/
theorem isNameChar_of_isIdentifier {c : Char} (h : isIdentifier c = true) : isNameChar c = true := by
  have hblank : isBlank c = false := by
    by_contra hblank
    rw [isIdentifier_of_isBlank (Bool.not_eq_false _ ▸ hblank)] at h
    cases h
  have hne {d : Char} (hd : isIdentifier d = false) : c ≠ d := ne_of_isIdentifier h hd
  exact isNameChar_eq_true.2
    ⟨hblank, not_isBracket h, hne (by decide), hne (by decide), hne (by decide)⟩

/-! ### Texts inside and outside of brackets -/

/-- **What may stand inside brackets.** -/
structure Inner (s : List Char) : Prop where
  singleSpaced : SingleSpaced s
  clear : ∀ c ∈ s, c ≠ '=' ∧ c ≠ '@'
  level : ∀ level, levelAfter level (flatten s) = level
  whole : ∀ level, 0 < level → Whole ',' level (flatten s)

/-- **What may stand outside of brackets.** -/
structure Outer (s : List Char) : Prop extends Inner s where
  starts : Starts s
  starts_flatten : Starts (flatten s)
  whole_zero : Whole ',' 0 (flatten s)

section Closure

variable {a b s : List Char}

theorem Inner.nil : Inner [] :=
  ⟨trivial, fun _ h => absurd h List.not_mem_nil, fun _ => rfl, fun _ _ => trivial⟩

theorem Inner.append (ha : Inner a) (hb : Inner b) : Inner (a ++ b) where
  singleSpaced := ha.singleSpaced.append hb.singleSpaced
  clear := List.forall_mem_append.2 ⟨ha.clear, hb.clear⟩
  level level := by rw [flatten_append, levelAfter_append, ha.level, hb.level]
  whole level h := by
    rw [flatten_append, whole_append, ha.level]
    exact ⟨ha.whole level h, hb.whole level h⟩

/-- A bracket of a group is a bracket. -/
theorem not_isGroupBracket {c : Char} (h : ¬IsBracket c) : ¬IsGroupBracket c := by
  unfold IsBracket at h
  unfold IsGroupBracket
  tauto

/-- A name may stand inside brackets. -/
theorem Inner.of_isNameChar (h : ∀ c ∈ s, isNameChar c = true) : Inner s := by
  have hchar {c : Char} (hc : c ∈ s) := isNameChar_eq_true.1 (h c hc)
  have hflat : flatten s = s := flatten_of_not fun c hc => not_isGroupBracket (hchar hc).2.1
  refine ⟨singleSpaced_of_solid fun c hc => (hchar hc).1, fun c hc => (hchar hc).2.2.2,
    fun level => ?_, fun level _ => ?_⟩
  · rw [hflat, levelAfter_of_not_isBracket fun c hc => (hchar hc).2.1]
  · rw [hflat]
    exact whole_of_notMem (fun hc => (hchar hc).2.2.1 rfl) level

theorem Inner.cons_space (h : Inner s) (hs : Starts s) : Inner (' ' :: s) where
  singleSpaced := h.singleSpaced.cons_space hs
  clear := List.forall_mem_cons.2 ⟨by decide, h.clear⟩
  level := h.level
  whole level hpos := (whole_cons_of_ne (by decide)).2 (h.whole level hpos)

/-- A comma may stand inside brackets, since it is not at level zero there. -/
theorem Inner.cons_comma (h : Inner s) : Inner (',' :: s) where
  singleSpaced := SingleSpaced.append (a := [',']) (by decide : isBlank ',' = false) h.singleSpaced
  clear := List.forall_mem_cons.2 ⟨by decide, h.clear⟩
  level := h.level
  whole level hpos := by
    refine ⟨fun hzero => ?_, h.whole level hpos⟩
    have hlevel : level = 0 := hzero.2
    omega

theorem Inner.list (ha : Inner a) (hb : Inner b) (hs : Starts b) : Inner (a ++ ',' :: ' ' :: b) :=
  ha.append (hb.cons_space hs).cons_comma

/-- **Two brackets that belong together** and are not those of a group. -/
structure Enclosing (o c : Char) : Prop where
  opens : ∀ level, levelStep level o = level + 1
  closes : ∀ level, levelStep level c = level - 1
  apart : ∀ d ∈ [o, c], isBlank d = false ∧ ¬IsGroupBracket d ∧ d ≠ ',' ∧ d ≠ '=' ∧ d ≠ '@'

/-- Parentheses belong together. -/
theorem enclosing_round : Enclosing '(' ')' where
  opens _ := rfl
  closes _ := rfl
  apart := by
    rw [List.forall_mem_cons, List.forall_mem_singleton]
    decide

theorem enclosing_angle : Enclosing '<' '>' where
  opens _ := rfl
  closes _ := rfl
  apart := by
    rw [List.forall_mem_cons, List.forall_mem_singleton]
    decide

section Enclosed

variable {o c : Char} (hp : Enclosing o c)

include hp

theorem flatten_enclosed : flatten (o :: (s ++ [c])) = o :: (flatten s ++ [c]) := by
  have ho := (hp.apart o List.mem_cons_self).2.1
  have hc := (hp.apart c (List.mem_cons_of_mem o List.mem_cons_self)).2.1
  rw [flatten_cons_of_not ho, flatten_append, flatten_cons_of_not hc]
  rfl

/-- Inside the brackets the level is above zero. -/
theorem whole_enclosed (h : Inner s) {level : Int} (hlevel : 0 ≤ level) :
    Whole ',' level (flatten (o :: (s ++ [c]))) := by
  have ho := (hp.apart o List.mem_cons_self).2.2.1
  have hc := (hp.apart c (List.mem_cons_of_mem o List.mem_cons_self)).2.2.1
  rw [flatten_enclosed hp, whole_cons_of_ne ho, hp.opens, whole_append, whole_cons_of_ne hc]
  exact ⟨h.whole _ (by omega), trivial⟩

/-- What may stand inside brackets may do so in brackets of its own. -/
theorem Inner.enclosed (h : Inner s) : Inner (o :: (s ++ [c])) where
  singleSpaced := by
    have ho : SingleSpaced [o] := (hp.apart o List.mem_cons_self).1
    have hc : SingleSpaced [c] := (hp.apart c (List.mem_cons_of_mem o List.mem_cons_self)).1
    exact ho.append (h.singleSpaced.append hc)
  clear := by
    have ho := (hp.apart o List.mem_cons_self).2.2.2
    have hc := (hp.apart c (List.mem_cons_of_mem o List.mem_cons_self)).2.2.2
    exact List.forall_mem_cons.2 ⟨ho, List.forall_mem_append.2 ⟨h.clear, List.forall_mem_singleton.2 hc⟩⟩
  level level := by
    -- One level up, no change in between, and one level down.
    rw [flatten_enclosed hp, levelAfter_cons, levelAfter_append, h.level, levelAfter_cons, hp.opens,
      hp.closes, levelAfter_nil]
    omega
  whole _ hpos := whole_enclosed hp h (Int.le_of_lt hpos)

end Enclosed

/-- The brackets of a group are spaces once the text is flattened. -/
theorem Inner.grouped (g : Group) (h : Inner s) : Inner (g.opening :: (s ++ [g.closing])) where
  singleSpaced := by
    have hopen : SingleSpaced [g.opening] := (g.apart _ List.mem_cons_self).1
    have hclose : SingleSpaced [g.closing] := (g.apart _ (List.mem_cons_of_mem _ List.mem_cons_self)).1
    exact hopen.append (h.singleSpaced.append hclose)
  clear := by
    have hopen := (g.apart _ List.mem_cons_self).2
    have hclose := (g.apart _ (List.mem_cons_of_mem _ List.mem_cons_self)).2
    exact List.forall_mem_cons.2
      ⟨hopen, List.forall_mem_append.2 ⟨h.clear, List.forall_mem_singleton.2 hclose⟩⟩
  level level := by
    -- As spaces the brackets leave the level.
    rw [flatten_group, levelAfter_cons, levelAfter_append]
    exact h.level level
  whole level hpos := by
    rw [flatten_group, whole_cons_of_ne (by decide), whole_append]
    exact ⟨h.whole level hpos, whole_of_notMem (by decide) _⟩

/-- A word may stand outside of brackets. -/
theorem Outer.of_word (w : Word) : Outer w.chars := by
  have hchar {c : Char} (hc : c ∈ w.chars) := isNameChar_eq_true.1 (w.isNameChar c hc)
  have hflat : flatten w.chars = w.chars := flatten_of_not fun c hc => not_isGroupBracket (hchar hc).2.1
  have hstarts : Starts w.chars := by
    obtain ⟨c, r, h⟩ := List.exists_cons_of_ne_nil w.ne_nil
    exact ⟨c, r, h, (hchar (h ▸ List.mem_cons_self)).1⟩
  have hwhole : Whole ',' 0 w.chars := whole_of_notMem (fun hc => (hchar hc).2.2.1 rfl) 0
  exact ⟨.of_isNameChar w.isNameChar, hstarts, hflat.symm ▸ hstarts, hflat.symm ▸ hwhole⟩

/-- Something without a comma at level zero may follow. -/
theorem Outer.append (ha : Outer a) (hb : Inner b) (hwhole : Whole ',' 0 (flatten b)) : Outer (a ++ b) where
  toInner := ha.toInner.append hb
  starts := ha.starts.append b
  starts_flatten := by
    rw [flatten_append]
    exact ha.starts_flatten.append _
  whole_zero := by
    rw [flatten_append, whole_append, ha.level]
    exact ⟨ha.whole_zero, hwhole⟩

/-- Something in brackets may follow, whatever its commas. -/
theorem Outer.append_enclosed {o c : Char} (hp : Enclosing o c) (ha : Outer a) (hs : Inner s) :
    Outer (a ++ o :: (s ++ [c])) :=
  ha.append (hs.enclosed hp) (whole_enclosed hp hs (Int.le_refl 0))

/-- Something else may follow behind a space. -/
theorem Outer.append_space (ha : Outer a) (hb : Outer b) : Outer (a ++ ' ' :: b) := by
  refine ha.append (hb.toInner.cons_space hb.starts) ?_
  rw [flatten_cons_of_not (by decide), whole_cons_of_ne (by decide)]
  exact hb.whole_zero

end Closure

/-! ### Types -/

mutual

/-- **A type** as it is written in Dart. -/
inductive TypeExpr where
  | name (id : TypeName)
  /-- A generic type with its arguments: `Map<K, V>`. -/
  | apply (id : TypeName) (arguments : List TypeExpr)
  /-- A type that admits null: `T?`. -/
  | nullable (t : TypeExpr)
  /-- A type of functions: `R Function(A, B b)`. -/
  | function (result : TypeExpr) (parameters : List Entry)
  /-- A type of records: `(A, B b)`. -/
  | record (fields : List Entry)

/-- **What stands between the commas** of a type of functions or records. -/
inductive Entry where
  /-- A type, perhaps marked as required and with a name. -/
  | single (isRequired : Bool) (t : TypeExpr) (label : Option Identifier)
  /-- A group of entries in brackets. -/
  | group (g : Group) (entries : List Entry)

end

/-- The text of a label behind its type. -/
def labelText : Option Identifier → List Char
  | none => []
  | some i => ' ' :: i.chars

mutual

/-- The text of a type. -/
def TypeExpr.text : TypeExpr → List Char
  | .name id => id.chars
  | .apply id arguments => id.chars ++ '<' :: (TypeExpr.listText arguments ++ ['>'])
  | .nullable t => t.text ++ ['?']
  | .function result parameters =>
    result.text ++ ' ' :: ("Function".toList ++ '(' :: (Entry.listText parameters ++ [')']))
  | .record fields => '(' :: (Entry.listText fields ++ [')'])

/-- The text of types with a comma between them. -/
def TypeExpr.listText : List TypeExpr → List Char
  | [] => []
  | [t] => t.text
  | t :: u :: l => t.text ++ ',' :: ' ' :: TypeExpr.listText (u :: l)

/-- The text of an entry. -/
def Entry.text : Entry → List Char
  | .single isRequired t label => (if isRequired then "required ".toList else []) ++ (t.text ++ labelText label)
  | .group g entries => g.opening :: (Entry.listText entries ++ [g.closing])

/-- The text of entries with a comma between them. -/
def Entry.listText : List Entry → List Char
  | [] => []
  | [e] => e.text
  | e :: f :: l => e.text ++ ',' :: ' ' :: Entry.listText (f :: l)

end

/-- The word before the parameters of a type of functions. -/
def functionWord : Word where
  chars := "Function".toList

/-- A label is a space and a name. -/
theorem inner_labelText (label : Option Identifier) : Inner (labelText label) := by
  cases label with
  | none => exact .nil
  | some i =>
    have hchars : Inner i.chars := .of_isNameChar fun c hc => isNameChar_of_isIdentifier (i.isIdentifier c hc)
    exact hchars.cons_space i.starts

mutual

/-- **No comma of a type is at level zero**, and its brackets are balanced. -/
theorem TypeExpr.outer : (t : TypeExpr) → Outer t.text
  | .name id => .of_word id.toWord
  | .apply id arguments =>
    (Outer.of_word id.toWord).append_enclosed enclosing_angle (TypeExpr.inner_listText arguments)
  | .nullable t => by
    -- To the splitter the question mark is like a letter.
    have hmark : Inner ['?'] := .of_isNameChar (List.all_eq_true.1 (by decide))
    exact t.outer.append hmark (whole_of_notMem (by decide) 0)
  | .function result parameters => by
    have hcall := (Outer.of_word functionWord).append_enclosed enclosing_round (Entry.inner_listText parameters)
    exact result.outer.append_space hcall
  | .record fields => by
    have hfields : Inner (Entry.listText fields) := Entry.inner_listText fields
    exact
      { toInner := hfields.enclosed enclosing_round
        starts := ⟨'(', _, rfl, by decide⟩
        starts_flatten := ⟨'(', _, flatten_cons_of_not (by decide) _, by decide⟩
        whole_zero := whole_enclosed enclosing_round hfields (Int.le_refl 0) }

/-- So are types with commas between them. -/
theorem TypeExpr.inner_listText : (l : List TypeExpr) → Inner (TypeExpr.listText l)
  | [] => .nil
  | [t] => t.outer.toInner
  | t :: u :: l => by
    have hstarts : Starts (TypeExpr.listText (u :: l)) := by
      cases l with
      | nil => exact u.outer.starts
      | cons v l => exact u.outer.starts.append _
    exact t.outer.toInner.list (TypeExpr.inner_listText (u :: l)) hstarts

/-- An entry may stand inside brackets, and it does not start with a space. -/
theorem Entry.inner : (e : Entry) → Inner e.text ∧ Starts e.text
  | .single isRequired t label => by
    have hlabelled : Inner (t.text ++ labelText label) := t.outer.toInner.append (inner_labelText label)
    have hstarts : Starts (t.text ++ labelText label) := t.outer.starts.append _
    cases isRequired with
    | false => exact ⟨hlabelled, hstarts⟩
    | true =>
      have hword : Inner "required".toList := .of_isNameChar (List.all_eq_true.1 (by decide))
      exact ⟨hword.append (hlabelled.cons_space hstarts), 'r', _, rfl, by decide⟩
  | .group g entries =>
    ⟨(Entry.inner_listText entries).grouped g, g.opening, _, rfl, (g.apart _ List.mem_cons_self).1⟩

/-- So may entries with commas between them. -/
theorem Entry.inner_listText : (l : List Entry) → Inner (Entry.listText l)
  | [] => .nil
  | [e] => e.inner.1
  | e :: f :: l => by
    have hstarts : Starts (Entry.listText (f :: l)) := by
      cases l with
      | nil => exact f.inner.2
      | cons v l => exact f.inner.2.append _
    exact e.inner.1.list (Entry.inner_listText (f :: l)) hstarts

end

/-- **A type has a word that is not skipped**: its name, or a word with a mark that no name holds. -/
theorem TypeExpr.exists_word (t : TypeExpr) : ∃ w ∈ words (flatten t.text), w ∉ skippedWords := by
  have hmark {c : Char} (hgroup : ¬IsGroupBracket c) (a b : List Char) :
      c ∈ flatten (a ++ c :: b) := by
    rw [flatten_append, flatten_cons_of_not hgroup]
    exact List.mem_append_right _ List.mem_cons_self
  -- All types but a name hold a mark that is no letter.
  -- By the kind of type; what it is made of does not matter.
  cases t with
  | name id =>
    have hchar {c : Char} (hc : c ∈ id.chars) := isNameChar_eq_true.1 (id.isNameChar c hc)
    refine ⟨id.chars, ?_, id.not_skipped⟩
    rw [text, flatten_of_not fun c hc => not_isGroupBracket (hchar hc).2.1,
      words_of_solid (fun c hc => (hchar hc).1) id.ne_nil]
    exact List.mem_singleton_self _
  | apply id arguments => exact exists_word_of_mem (hmark (c := '<') (by decide) _ _) (by decide) (by decide)
  | nullable t => exact exists_word_of_mem (hmark (c := '?') (by decide) _ _) (by decide) (by decide)
  | function result parameters =>
    have hcall : '(' ∈ flatten (TypeExpr.function result parameters).text := by
      rw [text, flatten_append, flatten_cons_of_not (by decide)]
      exact List.mem_append_right _ (List.mem_cons_of_mem _ (hmark (by decide) _ _))
    exact exists_word_of_mem hcall (by decide) (by decide)
  | record fields => exact exists_word_of_mem (hmark (c := '(') (by decide) [] _) (by decide) (by decide)

end CodeAtlas.Dart
