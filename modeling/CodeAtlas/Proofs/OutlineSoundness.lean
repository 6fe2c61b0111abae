import CodeAtlas.Proofs.Extent
import Mathlib.Logic.Relation

/-!
# Sound outlines

What a reader of lines may leave behind, whatever the lines hold. The properties are those of the record
(`Declarations.Sound`): every span and every line number lies in the file, calls are listed in the order
of their lines, and a type that something belongs to is listed too, an enclosing type before the types
inside it.

The reading is seen as a machine whose states are a line index and an outline. A *turn* reads the line at
the index and moves on by one line and those that were read with it (`Dialect.Turn`). The invariant of a
state before line `k` is `Outline.SoundBefore n k`: to the properties of the record it adds that the calls
found so far stand before line `k`, and that every body that is open belongs to a listed type. It is kept
by each of the small operations that a reader is made of, one lemma for each of them.

A dialect is `Steady` if what it declares keeps the invariant and takes lines that are there. For such a
dialect, `Dialect.turn_forward` says what one turn does, `Dialect.reached` what any number of turns does,
and `Dialect.reaches_end` that the turns lead to the end of the file, to the outline that `readLines`
computes.
-/

namespace CodeAtlas

/-! ### The properties of a record -/

/-- The span lies in a file of `n` lines. -/
structure Span.Within (n : Nat) (s : Span) : Prop where
  one_le_first : 1 ≤ s.first
  first_le_last : s.first ≤ s.last
  last_le : s.last ≤ n

/-- The line is one of a file of `n` lines. -/
def LineWithin (n line : Nat) : Prop :=
  1 ≤ line ∧ line ≤ n

namespace Declarations

/-- Some type with the nested name is listed. -/
def Lists (types : List TypeDecl) (name : String) : Prop :=
  ∃ t ∈ types, t.nestedName = name

/-- **The declarations are sound** for a file of `n` lines. -/
structure Sound (n : Nat) (d : Declarations) : Prop where
  type_spans : ∀ t ∈ d.types, t.span.Within n
  callable_spans : ∀ c ∈ d.callables, c.span.Within n
  field_spans : ∀ f ∈ d.fields, f.span.Within n
  import_lines : ∀ i ∈ d.imports, LineWithin n i.line
  call_lines : ∀ c ∈ d.calls, LineWithin n c.line
  calls_ordered : d.calls.Pairwise (·.line ≤ ·.line)
  callable_owners : ∀ c ∈ d.callables, ∀ owner, c.owner = some owner → Lists d.types owner
  field_owners : ∀ f ∈ d.fields, ∀ owner, f.owner = some owner → Lists d.types owner
  /-- What encloses a type is listed before it. -/
  enclosing_before : ∀ earlier t later, d.types = earlier ++ t :: later →
    ∀ outer, t.enclosing = some outer → Lists earlier outer

theorem Lists.mono {types types' : List TypeDecl} {name : String} (h : Lists types name)
    (hsub : types ⊆ types') : Lists types' name := by
  obtain ⟨t, ht, hname⟩ := h
  exact ⟨t, hsub ht, hname⟩

theorem Lists.append {types : List TypeDecl} {name : String} (h : Lists types name)
    (more : List TypeDecl) : Lists (types ++ more) name :=
  h.mono (List.subset_append_left types more)

/-- **What encloses a type is listed before it**, also when one more type is listed whose own enclosing type is
there. -/
theorem enclosing_before_concat {types : List TypeDecl} {d : TypeDecl}
    (h : ∀ earlier t later, types = earlier ++ t :: later → ∀ outer, t.enclosing = some outer → Lists earlier outer)
    (hd : ∀ outer, d.enclosing = some outer → Lists types outer) :
    ∀ earlier t later, types ++ [d] = earlier ++ t :: later →
      ∀ outer, t.enclosing = some outer → Lists earlier outer := by
  intro earlier t later heq outer ht
  -- Either the type stands among the old ones, or it is the new one and all old ones precede it.
  rcases List.eq_nil_or_concat later with rfl | ⟨front, e, rfl⟩
  · obtain ⟨hold, hnew⟩ := List.append_inj' heq rfl
    cases hnew
    rw [← hold]
    exact hd outer ht
  · rw [List.concat_eq_append] at heq
    have hsplit : types ++ [d] = (earlier ++ t :: front) ++ [e] := by
      rw [List.append_assoc]
      exact heq
    exact h earlier t front (List.append_inj' hsplit rfl).1 outer ht

/-- Nothing is declared, and all of it is sound. -/
theorem sound_empty (n : Nat) : Sound n {} where
  type_spans := fun _ h => by cases h
  callable_spans := fun _ h => by cases h
  field_spans := fun _ h => by cases h
  import_lines := fun _ h => by cases h
  call_lines := fun _ h => by cases h
  calls_ordered := List.Pairwise.nil
  callable_owners := fun _ h => by cases h
  field_owners := fun _ h => by cases h
  enclosing_before := fun earlier t later h => by
    -- A type in front of others cannot come from an empty list.
    have hlength := congrArg List.length h
    simp at hlength

end Declarations

/-! ### The invariant -/

namespace Outline

/-- **The state before line `k`** of a file of `n` lines. -/
structure SoundBefore (n k : Nat) (o : Outline) : Prop where
  facts : o.facts.Sound n
  calls_before : ∀ c ∈ o.facts.calls, c.line < k
  bodies_listed : ∀ b ∈ o.bodies, Declarations.Lists o.facts.types b.name

/-- An empty outline is sound before every line. -/
theorem soundBefore_empty (n k : Nat) : SoundBefore n k {} where
  facts := Declarations.sound_empty n
  calls_before := fun _ h => by cases h
  bodies_listed := fun _ h => by cases h

namespace SoundBefore

variable {n k : Nat} {o : Outline}

/-- The owner of a declaration is listed. -/
theorem owner_listed (h : o.SoundBefore n k) {owner : String} (ho : o.owner = some owner) :
    Declarations.Lists o.facts.types owner := by
  obtain ⟨b, hb, rfl⟩ := Option.map_eq_some_iff.mp ho
  exact h.bodies_listed b (List.mem_of_mem_head? (Option.mem_def.mpr hb))

/-- The invariant is kept when the reader moves on. -/
theorem mono (h : o.SoundBefore n k) {k' : Nat} (hk : k ≤ k') : o.SoundBefore n k' where
  facts := h.facts
  calls_before := fun c hc => Nat.lt_of_lt_of_le (h.calls_before c hc) hk
  bodies_listed := h.bodies_listed

theorem leaveTo (h : o.SoundBefore n k) (depth : Nat) : (o.leaveTo depth).SoundBefore n k where
  facts := h.facts
  calls_before := h.calls_before
  bodies_listed := fun b hb => h.bodies_listed b ((List.dropWhile_sublist _).subset hb)

/-- Neither the annotations that wait nor the scope that the file names take part. -/
theorem of_facts_bodies (h : o.SoundBefore n k) {o' : Outline} (hfacts : o'.facts = o.facts)
    (hbodies : o'.bodies = o.bodies) : o'.SoundBefore n k where
  facts := hfacts ▸ h.facts
  calls_before := hfacts ▸ h.calls_before
  bodies_listed := by
    rw [hfacts, hbodies]
    exact h.bodies_listed

theorem clearAnnotations (h : o.SoundBefore n k) : o.clearAnnotations.SoundBefore n k :=
  h.of_facts_bodies rfl rfl

theorem addImport (h : o.SoundBefore n k) {d : ImportDecl} (hd : LineWithin n d.line) :
    (o.addImport d).SoundBefore n k where
  facts :=
    { h.facts with
      import_lines := by
        intro i hi
        rcases List.mem_append.mp hi with hi | hi
        · exact h.facts.import_lines i hi
        · rwa [List.mem_singleton.mp hi] }
  calls_before := h.calls_before
  bodies_listed := h.bodies_listed

/-- A type that belongs to the innermost open body. -/
theorem addType (h : o.SoundBefore n k) {d : TypeDecl} (hspan : d.span.Within n)
    (henclosing : d.enclosing = o.owner) : (o.addType d).SoundBefore n k where
  facts :=
    { h.facts with
      type_spans := by
        intro t ht
        rcases List.mem_append.mp ht with ht | ht
        · exact h.facts.type_spans t ht
        · rwa [List.mem_singleton.mp ht]
      callable_owners := fun c hc owner ho => (h.facts.callable_owners c hc owner ho).append [d]
      field_owners := fun f hf owner ho => (h.facts.field_owners f hf owner ho).append [d]
      -- What encloses the new type is an open body, and these are listed.
      enclosing_before := Declarations.enclosing_before_concat h.facts.enclosing_before fun outer ho =>
        h.owner_listed (henclosing ▸ ho) }
  calls_before := h.calls_before
  bodies_listed := fun b hb => (h.bodies_listed b hb).append [d]

/-- A callable that belongs to the innermost open body. -/
theorem addCallable (h : o.SoundBefore n k) {d : CallableDecl} (hspan : d.span.Within n)
    (howner : d.owner = o.owner) : (o.addCallable d).SoundBefore n k where
  facts :=
    { h.facts with
      callable_spans := by
        -- Old callables are as they were, and the new one is the last of the list.
        intro c hc
        rcases List.mem_append.mp hc with hc | hc
        · exact h.facts.callable_spans c hc
        · rwa [List.mem_singleton.mp hc]
      callable_owners := by
        intro c hc owner ho
        rcases List.mem_append.mp hc with hc | hc
        · exact h.facts.callable_owners c hc owner ho
        · rw [List.mem_singleton.mp hc, howner] at ho
          exact h.owner_listed ho }
  calls_before := h.calls_before
  bodies_listed := h.bodies_listed

/-- Fields that belong to a type that is listed. -/
theorem addFields (h : o.SoundBefore n k) {l : List FieldDecl} (hspan : ∀ f ∈ l, f.span.Within n)
    (howner : ∀ f ∈ l, ∀ owner, f.owner = some owner → Declarations.Lists o.facts.types owner) :
    (o.addFields l).SoundBefore n k where
  facts :=
    { h.facts with
      field_spans := by
        -- Old fields are as they were, and the new ones follow them.
        intro f hf
        rcases List.mem_append.mp hf with hf | hf
        · exact h.facts.field_spans f hf
        · exact hspan f hf
      field_owners := by
        intro f hf
        rcases List.mem_append.mp hf with hf | hf
        · exact h.facts.field_owners f hf
        · exact howner f hf }
  calls_before := h.calls_before
  bodies_listed := h.bodies_listed

/-- Calls of the lines from line `k` on: the state is then one before a later line. -/
theorem addCalls (h : o.SoundBefore n k) {k' : Nat} {l : List CallSite} (hl : CallSite.Listed k k' l)
    (hk : 1 ≤ k) (hkk' : k ≤ k') (hn : k' ≤ n + 1) : (o.addCalls l).SoundBefore n k' where
  facts :=
    { h.facts with
      call_lines := by
        intro c hc
        rcases List.mem_append.mp hc with hc | hc
        · exact h.facts.call_lines c hc
        · have hbetween := hl.between c hc
          exact ⟨Nat.le_trans hk hbetween.1,
            Nat.le_of_lt_succ (Nat.lt_of_lt_of_le hbetween.2 hn)⟩
      calls_ordered := by
        -- The calls so far stand before line `k`, and the new ones at it or behind it.
        refine List.pairwise_append.mpr ⟨h.facts.calls_ordered, hl.ordered, ?_⟩
        intro c hc d hd
        exact Nat.le_trans (Nat.le_of_lt (h.calls_before c hc)) (hl.between d hd).1 }
  calls_before := by
    intro c hc
    rcases List.mem_append.mp hc with hc | hc
    · exact Nat.lt_of_lt_of_le (h.calls_before c hc) hkk'
    · exact (hl.between c hc).2
  bodies_listed := h.bodies_listed

/-- The body of a type that is listed. -/
theorem enter (h : o.SoundBefore n k) (lines : List SourceLine) (headerEnd : Nat)
    {body : Nat → OpenBody} (hbody : ∀ depth, Declarations.Lists o.facts.types (body depth).name) :
    (o.enter lines headerEnd body).SoundBefore n k := by
  unfold Outline.enter
  -- Either no body opens here, or the new one is the innermost of all that are open.
  split
  · split
    · refine ⟨h.facts, h.calls_before, ?_⟩
      intro b hb
      rcases List.mem_cons.mp hb with rfl | hb
      · exact hbody _
      · exact h.bodies_listed b hb
    · exact h
  · exact h

end SoundBefore

end Outline

/-! ### Spans of what is left of a file -/

namespace SourceLine.Tail

variable {n k : Nat} {line : SourceLine} {rest : List SourceLine}

/-- The next line is one of the file. -/
theorem lineWithin (h : Tail n k (line :: rest)) : LineWithin n line.number := by
  have hlength := h.length_eq
  rw [List.length_cons] at hlength
  have hnumber := h.number_eq
  exact ⟨hnumber ▸ h.one_le, by omega⟩

theorem lineWithin_numberAt {lines : List SourceLine} (h : Tail n k lines) {offset : Nat}
    (ho : offset < lines.length) : LineWithin n (numberAt lines offset) := by
  have hlength := h.length_eq
  have hone := h.one_le
  rw [h.numberAt_eq ho]
  exact ⟨by omega, by omega⟩

end SourceLine.Tail

/-- A span between two lines of a file lies in the file. -/
theorem Span.within_new {n first last : Nat} (hfirst : LineWithin n first) (hlast : last ≤ n) :
    (Span.new first last).Within n where
  one_le_first := hfirst.1
  first_le_last := Span.first_le_last_new first last
  last_le := Nat.max_le.mpr ⟨hlast, hfirst.2⟩

theorem Span.within_single {n line : Nat} (h : LineWithin n line) : (Span.single line).Within n :=
  Span.within_new h h.2

/-! ### One turn -/

/-- **What reading a line has to come to**: it takes lines that are there, and leaves a sound state before
the first line that it did not take. -/
structure Advances (n k : Nat) (rest : List SourceLine) (r : Outline × Nat) : Prop where
  taken_le : r.2 ≤ rest.length
  sound : r.1.SoundBefore n (k + 1 + r.2)

namespace Advances

open SourceLine (Tail)

variable {n k : Nat} {line : SourceLine} {rest : List SourceLine} {o : Outline}

/-- A line that takes no other and adds no call. -/
theorem of_sound (h : o.SoundBefore n k) : Advances n k rest (o, 0) where
  taken_le := Nat.zero_le _
  sound := h.mono (Nat.le_succ k)

/-- A declaration that takes lines and adds no call. -/
theorem of_sound_le (h : o.SoundBefore n k) {taken : Nat} (ht : taken ≤ rest.length) :
    Advances n k rest (o, taken) where
  taken_le := ht
  sound := h.mono (by omega)

/-- A declaration that adds the calls of the lines that it takes. -/
theorem of_calls (ht : Tail n k (line :: rest)) (h : o.SoundBefore n k) {taken : Nat}
    (htaken : taken ≤ rest.length) {l : List CallSite} (hl : CallSite.Listed k (k + taken + 1) l) :
    Advances n k rest (o.addCalls l, taken) where
  taken_le := htaken
  sound := by
    have hlength := ht.length_eq
    rw [List.length_cons] at hlength
    refine h.addCalls (hl.mono (Nat.le_refl k) ?_) ht.one_le ?_ ?_ <;> omega

/-- A line of which only the calls count. -/
theorem of_lineCalls (ht : Tail n k (line :: rest)) (h : o.SoundBefore n k) {l : List CallSite}
    (hl : ∀ c ∈ l, c.line = line.number) : Advances n k rest (o.addCalls l, 0) := by
  refine of_calls ht h (Nat.zero_le _) (CallSite.Listed.of_forall_eq ?_)
  intro c hc
  rw [hl c hc, ht.number_eq]

end Advances

/-- **A dialect that declares soundly.** -/
structure Dialect.Steady (d : Dialect) : Prop where
  bodyCalls : ∀ line, ∀ c ∈ d.bodyCalls line, c.line = line.number
  declare : ∀ {n k : Nat} (code : List Char) {line : SourceLine} {rest : List SourceLine} {o : Outline},
    SourceLine.Tail n k (line :: rest) → o.SoundBefore n k → Advances n k rest (d.declare code line rest o)

namespace Dialect

variable {d : Dialect}

/-- **One line read** by a steady dialect. -/
theorem Steady.advances_readLine (hd : d.Steady) {n k : Nat} {line : SourceLine}
    {rest : List SourceLine} {o : Outline} (ht : SourceLine.Tail n k (line :: rest))
    (h : o.SoundBefore n k) : Advances n k rest (d.readLine line rest o) := by
  -- Bodies that have ended are left first; then the line is inside a body, or it declares something.
  have hleft := h.leaveTo line.depth
  rw [readLine]
  split
  · exact .of_sound hleft
  · split
    · exact .of_lineCalls ht hleft (hd.bodyCalls line)
    · -- The annotations of the line join those that wait, which the invariant does not see.
      dsimp only
      split
      · exact .of_sound (hleft.of_facts_bodies rfl rfl)
      · exact hd.declare _ ht (hleft.of_facts_bodies rfl rfl)

/-- **One turn of the loop over the lines**: from the state before the line with index `i` to the state
before the line that is read next. -/
inductive Turn (d : Dialect) (lines : List SourceLine) : Nat × Outline → Nat × Outline → Prop
  | read {i : Nat} {line : SourceLine} {rest : List SourceLine} (o : Outline) :
    lines.drop i = line :: rest →
      Turn d lines (i, o) (i + 1 + (d.readLine line rest o).2, (d.readLine line rest o).1)

/-- The states that turns lead to from the first line. -/
def Reached (d : Dialect) (lines : List SourceLine) (s : Nat × Outline) : Prop :=
  Relation.ReflTransGen (d.Turn lines) (0, {}) s

variable {lines : List SourceLine}

/-- The state of the loop between two turns. -/
structure LoopState (lines : List SourceLine) (s : Nat × Outline) : Prop where
  index_le : s.1 ≤ lines.length
  sound : s.2.SoundBefore lines.length (s.1 + 1)

/-- What is left behind an index is an end of the lines. -/
theorem tail_of_drop_eq (ht : SourceLine.Tail lines.length 1 lines) {i : Nat} {line : SourceLine}
    {rest : List SourceLine} (hdrop : lines.drop i = line :: rest) :
    SourceLine.Tail lines.length (i + 1) (line :: rest) := by
  have hi : i ≤ lines.length := by
    by_contra hi
    rw [List.drop_eq_nil_iff.mpr (by omega)] at hdrop
    cases hdrop
  have htail := ht.drop hi
  rwa [hdrop, Nat.add_comm] at htail

/-- **What one turn does**: it goes forward, not past the end, and keeps the state sound. -/
theorem Steady.turn_forward (hd : d.Steady) (ht : SourceLine.Tail lines.length 1 lines)
    {s t : Nat × Outline} (hs : LoopState lines s) (hturn : d.Turn lines s t) :
    s.1 < t.1 ∧ LoopState lines t := by
  obtain ⟨o, hdrop⟩ := hturn
  next i line rest =>
    have htail := tail_of_drop_eq ht hdrop
    -- The line is read, and with it as many as it took.
    have hadvances : Advances lines.length (i + 1) rest (d.readLine line rest o) :=
      hd.advances_readLine htail hs.sound
    have hlength := htail.length_eq
    have htaken := hadvances.taken_le
    rw [List.length_cons] at hlength
    refine ⟨by dsimp only; omega, ?_, ?_⟩
    · dsimp only
      omega
    · have hnext : i + 1 + 1 + (d.readLine line rest o).2 = i + 1 + (d.readLine line rest o).2 + 1 := by
        omega
      exact hnext ▸ hadvances.sound

/-- **What any number of turns does.** -/
theorem Steady.loopState_of_reached (hd : d.Steady) (ht : SourceLine.Tail lines.length 1 lines)
    {s : Nat × Outline} (hs : d.Reached lines s) : LoopState lines s := by
  induction hs with
  | refl => exact ⟨Nat.zero_le _, Outline.soundBefore_empty _ _⟩
  | tail _ hturn ih => exact (hd.turn_forward ht ih hturn).2

/-- The turns from a state on are those that `readLines` takes: it skips the lines that the turn before
has read. -/
theorem Steady.reaches_readLines (hd : d.Steady) (ht : SourceLine.Tail lines.length 1 lines) {i skip : Nat}
    {ls : List SourceLine} {o : Outline} (hdrop : lines.drop i = ls) (hskip : skip ≤ ls.length)
    (hs : d.Reached lines (i + skip, o)) : d.Reached lines (lines.length, d.readLines skip ls o) := by
  -- By induction on the lines that are left. Lines that were taken are passed without a turn.
  induction ls generalizing i skip o with
  | nil =>
    have hi := List.drop_eq_nil_iff.mp hdrop
    have hle := (hd.loopState_of_reached ht hs).index_le
    have hend : i + skip = lines.length := by
      dsimp only at hle
      omega
    rw [readLines, ← hend]
    exact hs
  | cons line rest ih =>
    have hrest : lines.drop (i + 1) = rest := by
      rw [← List.drop_drop, hdrop]
      rfl
    cases skip with
    | succ skip =>
      rw [readLines]
      refine ih hrest (Nat.le_of_succ_le_succ hskip) ?_
      rwa [Nat.add_right_comm]
    | zero =>
      have hturn : d.Turn lines (i, o) _ := .read o hdrop
      have hsound := (hd.loopState_of_reached ht hs).sound
      have hadvances := hd.advances_readLine (tail_of_drop_eq ht hdrop) hsound
      rw [readLines]
      exact ih hrest hadvances.taken_le (hs.tail hturn)

/-- **The loop over the lines of a file runs to its end**: its turns lead from the first line to the end
of the lines and to the outline, each of them goes forward by at least one line, and none goes past the
end. -/
structure Completes (d : Dialect) (lines : List SourceLine) (o : Outline) : Prop where
  reaches_end : d.Reached lines (lines.length, o)
  forward : ∀ s t, d.Reached lines s → d.Turn lines s t → s.1 < t.1 ∧ t.1 ≤ lines.length

/-- **Reading a file completes** in a steady dialect. -/
theorem Steady.completes_outline (hd : d.Steady) (source : List Char) :
    d.Completes (SourceLine.ofSource source) (d.outline source) where
  reaches_end :=
    hd.reaches_readLines (SourceLine.tail_ofSource source) (i := 0) (by rw [List.drop_zero])
      (Nat.zero_le _) .refl
  forward := by
    intro s t hs hturn
    have ht := SourceLine.tail_ofSource source
    have hforward := hd.turn_forward ht (hd.loopState_of_reached ht hs) hturn
    exact ⟨hforward.1, hforward.2.index_le⟩

/-- **The declarations that a steady dialect finds are sound.** -/
theorem Steady.sound_outline (hd : d.Steady) (source : List Char) :
    (d.outline source).facts.Sound (SourceLine.ofSource source).length :=
  (hd.loopState_of_reached (SourceLine.tail_ofSource source)
    (hd.completes_outline source).reaches_end).sound.facts

end Dialect

end CodeAtlas
