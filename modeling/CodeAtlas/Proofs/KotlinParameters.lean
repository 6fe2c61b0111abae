import CodeAtlas.Proofs.TopLevelParts
import CodeAtlas.Source.Kotlin

/-!
# Parameters of Kotlin functions

Which lists of parameters `name: T` are read as they are declared. The types are identifiers, generic
types, types with a question mark and types of functions, nested at will, and they are written the usual
way, with `, ` between the members of a list and ` -> ` before a result.

`Fragment.splitTopLevel` counts all kinds of brackets with one number, and to it the `>` of an arrow closes
a bracket. So the level behind a type is lower by the number of its arrows (`TypeExpr.levelAfter_text`),
and a comma is at level zero if it stands in as many brackets as there are arrows before it
(`TypeExpr.whole_text`). From this follows which of the commas of a list end a parameter:

* behind a type with an arrow the comma that ends the parameter is not seen, and the part goes on
  (`ParameterDecl.parameter?_of_longer`);
* inside such a type a comma may be taken for one between parameters, and the part is cut short
  (`ParameterDecl.parameter?_of_shorter`);
* in all other lists each part is one parameter.

Hence `ParameterDecl.parameters_eq_iff_readable`: a list is read one to one exactly if arrows stand in its
last parameter only, and there no comma is in as many brackets as arrows precede it.
-/

namespace CodeAtlas.Kotlin

open Text Fragment

/-! ### Types and how they are written -/

/-- **A type** as it is written in Kotlin. -/
inductive TypeExpr where
  | name (id : Identifier)
  /-- A generic type with its arguments: `Map<K, V>`. -/
  | apply (id : Identifier) (arguments : List TypeExpr)
  /-- A type that admits null: `T?`. -/
  | nullable (t : TypeExpr)
  /-- A type of functions: `(A, B) -> C`. -/
  | function (parameters : List TypeExpr) (result : TypeExpr)

namespace TypeExpr

mutual

/-- The text of a type. -/
def text : TypeExpr → List Char
  | .name id => id.chars
  | .apply id arguments => id.chars ++ '<' :: (listText arguments ++ ['>'])
  | .nullable t => t.text ++ ['?']
  | .function parameters result => '(' :: (listText parameters ++ (") -> ".toList ++ result.text))

/-- The text of types with a comma between them. -/
def listText : List TypeExpr → List Char
  | [] => []
  | [t] => t.text
  | t :: u :: l => t.text ++ ',' :: ' ' :: listText (u :: l)

end

mutual

/-- The number of arrows in a type. -/
def arrows : TypeExpr → Nat
  | .name _ => 0
  | .apply _ arguments => listArrows arguments
  | .nullable t => t.arrows
  | .function parameters result => listArrows parameters + 1 + result.arrows

/-- The number of arrows in some types. -/
def listArrows : List TypeExpr → Nat
  | [] => 0
  | t :: l => t.arrows + listArrows l

end

mutual

/-- The commas of a type: for each of them the number of brackets around it and the number of arrows before
it, where the type stands in `depth` brackets and behind `before` arrows. -/
def commas (depth before : Nat) : TypeExpr → List (Nat × Nat)
  | .name _ => []
  | .apply _ arguments => listCommas (depth + 1) before arguments
  | .nullable t => t.commas depth before
  | .function parameters result =>
    listCommas (depth + 1) before parameters
      ++ result.commas depth (before + listArrows parameters + 1)

/-- The commas of types that stand in one list, those between them included. -/
def listCommas (depth before : Nat) : List TypeExpr → List (Nat × Nat)
  | [] => []
  | [t] => t.commas depth before
  | t :: u :: l =>
    t.commas depth before ++ (depth, before + t.arrows) :: listCommas depth (before + t.arrows) (u :: l)

end

/-- What a type is written with besides identifiers. -/
def marks : List Char :=
  ['<', '>', '?', '(', ')', ',', ' ', '-']

section Characters

variable {c : Char}

mutual

/-- The characters of a type are those of its identifiers and the marks. -/
theorem mem_text (t : TypeExpr) (h : c ∈ t.text) : isIdentifier c = true ∨ c ∈ marks := by
  -- By the form of the type; its parts and the lists of its parts are of the same forms.
  cases t with
  | name id => exact .inl (id.isIdentifier c h)
  | apply id arguments =>
    rw [text, List.mem_append, List.mem_cons, List.mem_append, List.mem_singleton] at h
    rcases h with h | rfl | h | rfl
    · exact .inl (id.isIdentifier c h)
    · exact .inr (by decide)
    · exact mem_listText arguments h
    · exact .inr (by decide)
  | nullable t =>
    rw [text, List.mem_append, List.mem_singleton] at h
    rcases h with h | rfl
    · exact mem_text t h
    · exact .inr (by decide)
  | function parameters result =>
    rw [text, List.mem_cons, List.mem_append, List.mem_append] at h
    rcases h with rfl | h | h | h
    · exact .inr (by decide)
    · exact mem_listText parameters h
    · have hmarks : ") -> ".toList ⊆ marks := by decide
      exact .inr (hmarks h)
    · exact mem_text result h

/-- So are those of types in a list. -/
theorem mem_listText (l : List TypeExpr) (h : c ∈ listText l) : isIdentifier c = true ∨ c ∈ marks := by
  match l with
  | [] => exact absurd h List.not_mem_nil
  | [t] => exact mem_text t h
  | t :: u :: l =>
    rw [listText, List.mem_append, List.mem_cons, List.mem_cons] at h
    rcases h with h | rfl | rfl | h
    · exact mem_text t h
    · exact .inr (by decide)
    · exact .inr (by decide)
    · exact mem_listText (u :: l) h

end

end Characters

/-- A type starts with no white space. -/
theorem starts_text : (t : TypeExpr) → Starts t.text
  | .name id => id.starts
  | .apply id _ => id.starts.append _
  | .nullable t => (starts_text t).append _
  | .function _ _ => ⟨'(', _, rfl, by decide⟩

/-- A type ends with no white space. -/
theorem ends_text : (t : TypeExpr) → Ends t.text
  | .name id => id.ends
  | .apply id arguments => by
    have hlast : Ends ['>'] := ⟨[], '>', rfl, by decide⟩
    exact ((hlast.append (listText arguments)).cons '<').append id.chars
  | .nullable t => ⟨t.text, '?', rfl, by decide⟩
  | .function _ result => (((ends_text result).append _).append _).cons '('

/-! ### Levels inside a type -/

mutual

/-- **The level behind a type**: the brackets of a type are balanced, and each arrow of it is one closing
bracket too many. -/
theorem levelAfter_text (t : TypeExpr) (level : Int) : levelAfter level t.text = level - t.arrows := by
  cases t with
  | name id =>
    rw [text, levelAfter_identifier, arrows]
    omega
  | apply id arguments =>
    rw [text, levelAfter_append, levelAfter_identifier, levelAfter_cons, levelAfter_append,
      levelAfter_listText arguments, arrows]
    show level + 1 - _ - 1 = _
    omega
  | nullable t =>
    rw [text, levelAfter_append, levelAfter_text t, arrows]
    rfl
  | function parameters result =>
    rw [text, levelAfter_cons, levelAfter_append, levelAfter_listText parameters, levelAfter_append,
      levelAfter_text result, arrows]
    -- The brackets of the arguments cancel out, and only their arrows are left.
    -- One up for the opening bracket, one down for the closing one, and one down for the arrow.
    show level + 1 - _ - 1 - 1 - _ = _
    omega

/-- Behind types in a list the level is lower by the arrows of all of them. -/
theorem levelAfter_listText (l : List TypeExpr) (level : Int) :
    levelAfter level (listText l) = level - listArrows l := by
  match l with
  | [] => exact (Int.sub_zero level).symm
  | [t] => exact levelAfter_text t level
  | t :: u :: l =>
    rw [listText, levelAfter_append, levelAfter_text t, levelAfter_cons, levelAfter_cons,
      levelAfter_listText (u :: l)]
    show level - _ - _ = level - (t.arrows + listArrows (u :: l) : Nat)
    omega

end

mutual

/-- The brackets around a comma of a type are at least those that the type adds, and the arrows before it
are at most those of the type. -/
theorem bounds_of_mem_commas {t : TypeExpr} {depth before : Nat} {c : Nat × Nat}
    (h : c ∈ t.commas depth before) : depth + 1 ≤ c.1 ∧ c.2 ≤ before + t.arrows := by
  -- Each constructor adds a bracket around its members or arrows before them, and never takes one away.
  cases t with
  | name id => exact absurd h List.not_mem_nil
  | apply id arguments => exact bounds_of_mem_listCommas h
  | nullable t => exact bounds_of_mem_commas (t := t) h
  | function parameters result =>
    rw [commas, List.mem_append] at h
    rw [arrows]
    rcases h with h | h
    · have hb := bounds_of_mem_listCommas h
      omega
    · have hb := bounds_of_mem_commas h
      omega

/-- The same of a list; here a comma may stand between the types, outside of all of them. -/
theorem bounds_of_mem_listCommas {l : List TypeExpr} {depth before : Nat} {c : Nat × Nat}
    (h : c ∈ listCommas depth before l) : depth ≤ c.1 ∧ c.2 ≤ before + listArrows l := by
  match l with
  | [] => exact absurd h List.not_mem_nil
  | [t] =>
    have hb := bounds_of_mem_commas (t := t) h
    rw [listArrows, listArrows]
    omega
  | t :: u :: l =>
    have harrows : listArrows (t :: u :: l) = t.arrows + listArrows (u :: l) := rfl
    rw [listCommas, List.mem_append, List.mem_cons] at h
    -- A comma of the first type, the one behind it, or one of the types that follow.
    rcases h with h | rfl | h
    · have hb := bounds_of_mem_commas h
      omega
    · exact ⟨Nat.le_refl depth, by omega⟩
    · have hb := bounds_of_mem_listCommas h
      omega

end

mutual

/-- **The splitter cuts a type at a comma that stands behind as many arrows as there are brackets around
it.** -/
theorem whole_text (t : TypeExpr) (depth before : Nat) :
    Whole ',' (depth - before : Int) t.text ↔ ∀ c ∈ t.commas depth before, c.1 ≠ c.2 := by
  -- By induction on the type. The level is the difference of the two numbers that `commas` carries along.
  cases t with
  | name id =>
    have hcomma : ',' ∉ id.chars := id.notMem (by decide)
    exact iff_of_true (whole_of_notMem hcomma _) fun c h => absurd h List.not_mem_nil
  | apply id arguments =>
    -- One bracket is opened, and none of the commas stands outside of it.
    have hcomma : ',' ∉ id.chars := id.notMem (by decide)
    have hlevel : levelStep (depth - before) '<' = ((depth + 1 : Nat) : Int) - before := by
      show (depth - before + 1 : Int) = _
      omega
    rw [text, whole_append, levelAfter_identifier, whole_cons_of_ne (by decide), hlevel, whole_append,
      whole_listText arguments (depth + 1) before, commas]
    exact ⟨fun h => h.2.1, fun h => ⟨whole_of_notMem hcomma _, h, whole_of_notMem (by decide) _⟩⟩
  | nullable t =>
    rw [text, whole_append, whole_text t depth before, commas]
    exact and_iff_left (whole_of_notMem (by decide) _)
  | function parameters result =>
    -- The parameters stand in one more bracket; the result stands behind their arrows and its own.
    have hopen : levelStep (depth - before) '(' = ((depth + 1 : Nat) : Int) - before := by
      show (depth - before + 1 : Int) = _
      omega
    have hclose : levelAfter (((depth + 1 : Nat) : Int) - before - listArrows parameters) ") -> ".toList
        = depth - (before + listArrows parameters + 1 : Nat) := by
      show ((depth + 1 : Nat) : Int) - before - listArrows parameters - 1 - 1 = _
      omega
    rw [text, whole_cons_of_ne (by decide), hopen, whole_append,
      whole_listText parameters (depth + 1) before, levelAfter_listText, whole_append, hclose,
      whole_text result depth, commas, List.forall_mem_append]
    exact and_congr_right fun _ => and_iff_right (whole_of_notMem (by decide) _)

/-- The same of types in a list, whose separating commas count too. -/
theorem whole_listText (l : List TypeExpr) (depth before : Nat) :
    Whole ',' (depth - before : Int) (listText l) ↔ ∀ c ∈ listCommas depth before l, c.1 ≠ c.2 := by
  match l with
  | [] => exact iff_of_true trivial fun c h => absurd h List.not_mem_nil
  | [t] => exact whole_text t depth before
  | t :: u :: l =>
    have hlevel : (depth - before - t.arrows : Int) = depth - (before + t.arrows : Nat) := by omega
    have hcomma : levelStep (depth - (before + t.arrows : Nat)) ',' = depth - (before + t.arrows : Nat) :=
      rfl
    have hspace : levelStep (depth - (before + t.arrows : Nat)) ' ' = depth - (before + t.arrows : Nat) :=
      rfl
    rw [listText, whole_append, whole_text t depth before, levelAfter_text, hlevel, Whole, hcomma,
      whole_cons_of_ne (by decide), hspace, whole_listText (u :: l) depth, listCommas,
      List.forall_mem_append, List.forall_mem_cons]
    -- What is left is the comma behind `t`: its level is the difference of the two numbers.
    refine and_congr_right fun _ => and_congr_left fun _ => not_congr ?_
    constructor
    · rintro ⟨-, hzero⟩
      show depth = before + t.arrows
      omega
    · intro heq
      have heq : depth = before + t.arrows := heq
      exact ⟨rfl, by omega⟩

end

end TypeExpr

/-! ### Parameters and how they are read -/

/-- **A declared parameter**: a name that is no keyword of a property, and a type. -/
structure ParameterDecl where
  name : Identifier
  type : TypeExpr
  not_keyword : name.chars ≠ "val".toList ∧ name.chars ≠ "var".toList := by decide

namespace ParameterDecl

/-- The text of a parameter. -/
def text (p : ParameterDecl) : List Char :=
  p.name.chars ++ ':' :: ' ' :: p.type.text

/-- The text of a list of parameters. -/
def listText (ps : List ParameterDecl) : List Char :=
  joinWith ", ".toList (ps.map text)

/-- A parameter with the type that is written as `s`, and without a keyword. -/
def readAs (p : ParameterDecl) (s : List Char) : Parameter × Option String :=
  ({ name := String.ofList p.name.chars, typeName := some (String.ofList s) }, none)

/-- What a parameter declares. -/
def declared (p : ParameterDecl) : Parameter × Option String :=
  p.readAs p.type.text

/-- **The lists that are read as they are declared**: an arrow stands in the last parameter only, and no
comma of its type stands in as many brackets as there are arrows before it. -/
def Readable (ps : List ParameterDecl) : Prop :=
  (∀ p ∈ ps.dropLast, p.type.arrows = 0) ∧ ∀ p ∈ ps.getLast?, ∀ c ∈ p.type.commas 0 0, c.1 ≠ c.2

theorem readable_singleton {p : ParameterDecl} :
    Readable [p] ↔ ∀ c ∈ p.type.commas 0 0, c.1 ≠ c.2 := by
  simp [Readable]

/-- With another one behind it, a parameter must be free of arrows. -/
theorem readable_cons_cons {p q : ParameterDecl} {ps : List ParameterDecl} :
    Readable (p :: q :: ps) ↔ p.type.arrows = 0 ∧ Readable (q :: ps) := by
  simp [Readable, and_assoc]

variable (p : ParameterDecl)

theorem starts_text : Starts p.text :=
  p.name.starts.append _

/-- There is no default in what is written here. -/
theorem eq_notMem_text : '=' ∉ p.text := by
  intro h
  rw [text, List.mem_append, List.mem_cons, List.mem_cons] at h
  rcases h with h | h | h | h
  · exact p.name.notMem (by decide) h
  · exact absurd h (by decide)
  · exact absurd h (by decide)
  · rcases p.type.mem_text h with h | h <;> exact absurd h (by decide)

/-- Neither is there one in a list. -/
theorem eq_notMem_listText : (ps : List ParameterDecl) → '=' ∉ listText ps
  | [] => List.not_mem_nil
  | [p] => p.eq_notMem_text
  | p :: q :: ps => by
    have hrest : '=' ∉ listText (q :: ps) := eq_notMem_listText (q :: ps)
    have hcomma : '=' ∉ ", ".toList := by decide
    intro h
    -- It would stand in the first parameter, between the first two or in the rest.
    rcases List.mem_append.1 h with h | h
    · rcases List.mem_append.1 h with h | h
      · exact p.eq_notMem_text h
      · exact hcomma h
    · exact hrest h

/-- The level behind a parameter is that behind its type. -/
theorem levelAfter_text (level : Int) : levelAfter level p.text = level - p.type.arrows := by
  rw [text, levelAfter_append, levelAfter_identifier]
  exact p.type.levelAfter_text level

/-- The commas of a parameter are those of its type. -/
theorem whole_text : Whole ',' 0 p.text ↔ ∀ c ∈ p.type.commas 0 0, c.1 ≠ c.2 := by
  have hcomma : ',' ∉ p.name.chars := p.name.notMem (by decide)
  rw [text, whole_append, levelAfter_identifier, whole_cons_of_ne (by decide), whole_cons_of_ne (by decide)]
  exact (and_iff_right (whole_of_notMem hcomma 0)).trans (p.type.whole_text 0 0)

/-- A type without arrows has each of its commas inside brackets. -/
theorem whole_text_of_arrows (h : p.type.arrows = 0) : Whole ',' 0 p.text := by
  rw [whole_text]
  intro c hc
  have hb := TypeExpr.bounds_of_mem_commas hc
  omega

/-- **What is read of a part** that starts like the parameter: its name, and all that follows the colon as
its type. -/
theorem parameter?_trim {s : List Char} (hs : '=' ∉ s) :
    parameter? (trim (p.name.chars ++ ':' :: s)) = some (p.readAs (trim s)) := by
  -- The steps of the reader, in its order: the text is trimmed, annotations are taken off, the default value
  -- is cut off, and the colon parts the name from the type.
  have htrim (r : List Char) : trim (p.name.chars ++ ':' :: r) = p.name.chars ++ ':' :: trimEnd r := by
    rw [trim_append p.name.starts p.name.ends, trimEnd_cons_of_not_blank (by decide)]
  have hstrip (r : List Char) : stripAnnotations (p.name.chars ++ r) = ([], p.name.chars ++ r) := by
    obtain ⟨c, cs, hname⟩ := List.exists_cons_of_ne_nil p.name.ne_nil
    have hc : c ∈ p.name.chars := hname ▸ List.mem_cons_self
    rw [hname, List.cons_append]
    exact stripAnnotations_of_starts (p.name.isBlank_of_mem hc)
      (ne_of_isIdentifier (p.name.isIdentifier c hc) (by decide))
  have hbefore : before (· == '=') (p.name.chars ++ ':' :: trimEnd s) = p.name.chars ++ ':' :: trimEnd s := by
    refine before_of_notMem ?_
    rw [List.mem_append, List.mem_cons, not_or, not_or]
    exact ⟨p.name.notMem (by decide), by decide, fun h => hs ((trimEnd_prefix_self s).subset h)⟩
  have hcut : cut? ':' (p.name.chars ++ ':' :: trimEnd s) = some (p.name.chars, trimEnd s) :=
    cut?_append (p.name.notMem (by decide)) _
  have hwords : wordList p.name.chars = [String.ofList p.name.chars] := by
    rw [wordList, words_of_solid (fun c hc => p.name.isBlank_of_mem hc) p.name.ne_nil]
    rfl
  have hval : String.ofList p.name.chars ≠ "val" :=
    fun h => p.not_keyword.1 (by rw [← h, String.toList_ofList])
  have hvar : String.ofList p.name.chars ≠ "var" :=
    fun h => p.not_keyword.2 (by rw [← h, String.toList_ofList])
  unfold parameter?
  dsimp only
  rw [htrim, hstrip, hbefore, htrim, trimEnd_trimEnd, hcut]
  dsimp only
  rw [hwords, trim_trimEnd, List.filter_singleton, List.filter_singleton, beq_false_of_ne hval,
    beq_false_of_ne hvar]
  rfl

theorem parameter?_trim_text : parameter? (trim p.text) = some p.declared := by
  have hs : '=' ∉ ' ' :: p.type.text := by
    intro h
    exact p.eq_notMem_text (List.mem_append_right _ (List.mem_cons_of_mem ':' h))
  rw [text, parameter?_trim p hs, trim_cons_of_blank (by decide), trim_eq_self p.type.starts_text
    p.type.ends_text, declared]

theorem readAs_injective : Function.Injective p.readAs := by
  intro s t h
  exact String.ofList_injective (Option.some.inj (congrArg (fun x => x.1.typeName) h))

/-- A part that ends before the type does is not read as it is declared. -/
theorem parameter?_of_shorter {a b : List Char} (h : p.text = a ++ ',' :: b) :
    Starts a ∧ ∃ x, parameter? (trim a) = some x ∧ x ≠ p.declared := by
  have heq : '=' ∉ a := fun ha => p.eq_notMem_text (h ▸ List.mem_append_left _ ha)
  -- The comma is none of the name, so the part reaches into the type.
  obtain ⟨a', rfl, htype⟩ : ∃ a', a = p.name.chars ++ ':' :: ' ' :: a' ∧ p.type.text = a' ++ ',' :: b := by
    rcases List.append_eq_append_iff.1 h with ⟨a', rfl, hrest⟩ | ⟨c, hname, hrest⟩
    · match a' with
      | [] => cases hrest
      | [_] => cases hrest
      | _ :: _ :: a' =>
        rw [List.cons_append, List.cons_append, List.cons.injEq, List.cons.injEq] at hrest
        obtain ⟨rfl, rfl, htype⟩ := hrest
        exact ⟨a', rfl, htype⟩
    · match c with
      | [] => cases hrest
      | _ :: c =>
        cases hrest
        exact absurd (hname ▸ List.mem_append_right a List.mem_cons_self) (p.name.notMem (by decide))
  refine ⟨p.name.starts.append _, _, p.parameter?_trim fun hs => heq (List.mem_append_right _ ?_), ?_⟩
  · exact List.mem_cons_of_mem ':' hs
  · -- What is read as the type is shorter than the type.
    intro hread
    have hsame : trim (' ' :: a') = p.type.text := p.readAs_injective hread
    have hshort : (trim (' ' :: a')).length ≤ a'.length := by
      rw [trim_cons_of_blank (by decide)]
      exact length_trim_le a'
    rw [hsame, htype, List.length_append, List.length_cons] at hshort
    omega

/-- A part that goes on behind the type is not read as it is declared. -/
theorem parameter?_of_longer {s : List Char} (hs : '=' ∉ s) :
    ∃ x, parameter? (trim (p.text ++ ',' :: s)) = some x ∧ x ≠ p.declared := by
  -- Nothing in it looks like a default, so all of it is read as the type.
  have heq : '=' ∉ ' ' :: (p.type.text ++ ',' :: s) := by
    intro h
    rw [List.mem_cons, List.mem_append, List.mem_cons] at h
    rcases h with h | h | h | h
    · exact absurd h (by decide)
    · exact p.eq_notMem_text (List.mem_append_right _ (List.mem_cons_of_mem _ (List.mem_cons_of_mem _ h)))
    · exact absurd h (by decide)
    · exact hs h
  have htext : p.text ++ ',' :: s = p.name.chars ++ ':' :: ' ' :: (p.type.text ++ ',' :: s) := by
    rw [text, List.append_assoc]
    rfl
  -- What is read as the type has a comma behind the type.
  refine ⟨_, htext ▸ p.parameter?_trim heq, fun hread => ?_⟩
  have hsame := p.readAs_injective hread
  rw [trim_cons_of_blank (by decide), trim_append p.type.starts_text p.type.ends_text,
    trimEnd_cons_of_not_blank (by decide)] at hsame
  have hlength := congrArg List.length hsame
  rw [List.length_append, List.length_cons] at hlength
  omega

section Lists

variable {run : List Char}

/-- The last parameter of a list. -/
theorem parameters_last (hrun : ∀ c ∈ run, isBlank c = true) :
    (splitFrom ',' 0 run p.text).filterMap parameter? = [p.declared] ↔ Whole ',' 0 p.text := by
  -- Either the text is not split, and the whole parameter is read, or its first part is too short.
  rcases splitFrom_cases ',' 0 run p.text with ⟨hwhole, hsplit⟩ | ⟨a, b, htext, -, hlevel, hsplit⟩
  · refine iff_of_true ?_ hwhole
    rw [hsplit, listPart_reverse_append hrun p.starts_text, List.filterMap_cons_some p.parameter?_trim_text]
    rfl
  · obtain ⟨hstarts, x, hx, hne⟩ := p.parameter?_of_shorter htext
    refine iff_of_false ?_ ?_
    · rw [hsplit, listPart_reverse_append hrun hstarts, List.filterMap_cons_some hx]
      exact fun h => hne (List.cons.inj h).1
    · intro hwhole
      rw [htext, whole_append] at hwhole
      exact hwhole.2.1 ⟨rfl, hlevel⟩

/-- A parameter that others follow. -/
theorem parameters_cons (hrun : ∀ c ∈ run, isBlank c = true) {s : List Char} (hs : '=' ∉ s)
    (l : List (Parameter × Option String)) :
    (splitFrom ',' 0 run (p.text ++ ',' :: s)).filterMap parameter? = p.declared :: l ↔
      p.type.arrows = 0 ∧ (splitFrom ',' 0 [] s).filterMap parameter? = l := by
  by_cases harrows : p.type.arrows = 0
  · -- The comma behind the parameter is the first one at level zero.
    have hlevel : levelAfter 0 p.text = 0 := by
      rw [p.levelAfter_text, harrows]
      rfl
    rw [splitFrom_of_whole (p.whole_text_of_arrows harrows), hlevel, splitFrom, if_pos ⟨rfl, rfl⟩,
      listPart_reverse_append hrun p.starts_text, List.filterMap_cons_some p.parameter?_trim_text]
    exact ⟨fun h => ⟨harrows, (List.cons.inj h).2⟩, fun h => congrArg _ h.2⟩
  refine iff_of_false ?_ fun h => harrows h.1
  -- The first part ends inside the parameter, or it goes on behind it.
  have hpart : ∃ a parts, splitFrom ',' 0 run (p.text ++ ',' :: s) = trim a :: parts ∧
      ∃ x, parameter? (trim a) = some x ∧ x ≠ p.declared := by
    rcases splitFrom_cases ',' 0 run (p.text ++ ',' :: s) with
      ⟨-, hsplit⟩ | ⟨a, b, htext, hwhole, hlevel, hsplit⟩
    · exact ⟨_, _, hsplit.trans (listPart_reverse_append hrun (p.starts_text.append _) _),
        p.parameter?_of_longer hs⟩
    · rcases List.append_eq_append_iff.1 htext with ⟨a', rfl, hrest⟩ | ⟨c, hinside, hrest⟩
      · cases a' with
        | nil =>
          -- The comma behind the parameter is below level zero.
          rw [List.append_nil, p.levelAfter_text] at hlevel
          have hzero : (0 - p.type.arrows : Int) = 0 := hlevel
          omega
        | cons d a' =>
          cases hrest
          have ha : '=' ∉ a' := fun h => hs (List.mem_append_left _ h)
          exact ⟨_, _, hsplit.trans (listPart_reverse_append hrun (p.starts_text.append _) _),
            p.parameter?_of_longer ha⟩
      · cases c with
        | nil =>
          rw [List.append_nil] at hinside
          rw [← hinside, p.levelAfter_text] at hlevel
          have hzero : (0 - p.type.arrows : Int) = 0 := hlevel
          omega
        | cons d c =>
          cases hrest
          obtain ⟨hstarts, hread⟩ := p.parameter?_of_shorter hinside
          exact ⟨a, _, hsplit.trans (listPart_reverse_append hrun hstarts _), hread⟩
  obtain ⟨a, parts, hsplit, x, hx, hne⟩ := hpart
  rw [hsplit, List.filterMap_cons_some hx]
  exact fun h => hne (List.cons.inj h).1

/-- The parameters of a list that is read behind blanks. -/
theorem parameters_listText (ps : List ParameterDecl) (hrun : ∀ c ∈ run, isBlank c = true) :
    (splitFrom ',' 0 run (listText ps)).filterMap parameter? = ps.map declared ↔ Readable ps := by
  -- By induction on the list. White space may be left over from the comma before it.
  induction ps generalizing run with
  | nil =>
    have hnone : splitFrom ',' 0 run (listText []) = [] := listPart_of_blank hrun []
    rw [hnone]
    exact iff_of_true rfl ⟨fun p h => absurd h List.not_mem_nil, fun p h => nomatch h⟩
  | cons p ps ih =>
    match ps with
    | [] =>
      rw [readable_singleton, ← p.whole_text]
      exact p.parameters_last hrun
    | q :: ps =>
      have htext : listText (p :: q :: ps) = p.text ++ ',' :: ' ' :: listText (q :: ps) := by
        show p.text ++ ", ".toList ++ _ = _
        rw [List.append_assoc]
        rfl
      have heq : '=' ∉ ' ' :: listText (q :: ps) := by
        rw [List.mem_cons, not_or]
        exact ⟨by decide, eq_notMem_listText (q :: ps)⟩
      have hspace : splitFrom ',' 0 [] (' ' :: listText (q :: ps))
          = splitFrom ',' 0 [' '] (listText (q :: ps)) :=
        splitFrom_of_whole (a := [' ']) (whole_of_notMem (by decide) 0) [] _
      rw [htext, List.map_cons, p.parameters_cons hrun heq, hspace, readable_cons_cons,
        ih fun _ hc => List.mem_singleton.1 hc ▸ by decide]

end Lists

/-- **A list of parameters is read as it is declared exactly if it is readable.** The splitter counts the
`>` of an arrow as a closing bracket: behind an arrow it is below level zero, so the next comma between
two parameters goes unseen, and a comma inside as many brackets cuts the type. -/
theorem parameters_eq_iff_readable (ps : List ParameterDecl) :
    parameters (listText ps) = ps.map declared ↔ Readable ps :=
  parameters_listText ps fun _ hc => absurd hc List.not_mem_nil

/-- A function before another parameter. -/
def callbackFirst : List ParameterDecl :=
  [{ name := { chars := "cb".toList }
     type := .function [.name { chars := "Int".toList }] (.name { chars := "Unit".toList }) },
    { name := { chars := "x".toList }, type := .name { chars := "Int".toList } }]

/-- **The parameter behind a function is lost in the type of the function.** -/
theorem parameters_callbackFirst :
    String.ofList (listText callbackFirst) = "cb: (Int) -> Unit, x: Int" ∧
      parameters (listText callbackFirst)
        = [({ name := "cb", typeName := some "(Int) -> Unit, x: Int" }, none)] ∧
      callbackFirst.map declared
        = [({ name := "cb", typeName := some "(Int) -> Unit" }, none),
          ({ name := "x", typeName := some "Int" }, none)] := by
  decide +kernel

/-- A function as the last parameter is read as it is declared. -/
example : parameters "m: Map<K, V>, cb: (A, B) -> C".toList
    = [({ name := "m", typeName := some "Map<K, V>" }, none),
      ({ name := "cb", typeName := some "(A, B) -> C" }, none)] := by
  decide +kernel

end ParameterDecl

end CodeAtlas.Kotlin
