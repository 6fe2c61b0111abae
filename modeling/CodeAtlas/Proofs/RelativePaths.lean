import CodeAtlas.Graph.Imports
import Mathlib.Logic.Relation

/-!
# Where relative paths lead

An import in Dart may name a file by a path that starts in the directory of its own file. Such a path is a
list of steps: a name goes down, `..` goes up again, and an empty step or `.` stays. What it comes to is found
by *folding* it, which leaves out the steps that stay and lets each `..` cancel the name before it (`Folds`).
Every list of steps folds to one `Destination`, whatever is folded first (`leadsTo_iff`): some `..` that have
nothing left to cancel, and then names. If there is such a `..`, the path leads above the root at which it
started.

`WorkingSet.addSegment` folds in one pass from left to right and keeps only the names. A `..` that has nothing
to cancel changes nothing there, and so it is forgotten. `fileTargets_relative` says what follows. The answer
is the file at the names of the place, as if these were counted from the root. That is the file that the path
leads to exactly as long as the path stays below the root, or no file happens to have the names;
`climbing_path_finds_file` is a path that leads out of the project and finds a file in it.
-/

namespace CodeAtlas

namespace Path

/-! ### Steps and destinations -/

/-- The steps of a path, as texts. -/
def steps (p : String) : List String :=
  Text.parts (· == '/') p

/-- The steps to the directory of a file. -/
def directory (file : String) : List String :=
  (steps file).dropLast

/-- A step that goes down. -/
def IsName (s : String) : Prop :=
  s ≠ "" ∧ s ≠ "." ∧ s ≠ ".."

instance (s : String) : Decidable (IsName s) :=
  inferInstanceAs (Decidable (_ ∧ _ ∧ _))

/-- **One fold of a list of steps.** -/
inductive Folds : List String → List String → Prop
  /-- A step that stays is left out. -/
  | skip (before after : List String) {s : String} : s = "" ∨ s = "." →
    Folds (before ++ s :: after) (before ++ after)
  /-- A step up cancels the name before it. -/
  | cancel (before after : List String) {s : String} : IsName s →
    Folds (before ++ s :: ".." :: after) (before ++ after)

/-- **Where a path leads**, seen from the root: so many directories above it, and then down along names. -/
@[ext]
structure Destination where
  above : Nat
  names : List String
  isName : ∀ s ∈ names, IsName s

namespace Destination

/-- The shortest way from the root to a place. -/
def steps (p : Destination) : List String :=
  List.replicate p.above ".." ++ p.names

/-- The place at which all ways start. -/
def root : Destination :=
  ⟨0, [], by simp⟩

/-- The place that a step leads to. -/
def enter (p : Destination) (s : String) : Destination :=
  if hstay : s = "" ∨ s = "." then p
  else if hup : s = ".." then
    { above := if p.names = [] then p.above + 1 else p.above
      names := p.names.dropLast
      isName := fun t ht => p.isName t (List.dropLast_subset p.names ht) }
  else
    { above := p.above
      names := p.names ++ [s]
      isName := by
        have hs : IsName s := ⟨fun h => hstay (.inl h), fun h => hstay (.inr h), hup⟩
        intro t ht
        rcases List.mem_append.1 ht with ht | ht
        · exact p.isName t ht
        · rwa [List.mem_singleton.1 ht] }

end Destination

/-- **The place that a list of steps leads to.** -/
def LeadsTo (l : List String) (p : Destination) : Prop :=
  Relation.ReflTransGen Folds l p.steps

/-! ### Walking is folding -/

namespace Destination

variable {p : Destination} {s : String}

theorem enter_of_stay (p : Destination) (h : s = "" ∨ s = ".") : p.enter s = p :=
  dif_pos h

/-- A name goes down. -/
theorem enter_of_isName (h : IsName s) :
    (p.enter s).above = p.above ∧ (p.enter s).names = p.names ++ [s] := by
  have hstay : ¬(s = "" ∨ s = ".") := fun h' => h'.elim h.1 h.2.1
  unfold enter
  rw [dif_neg hstay, dif_neg h.2.2]
  exact ⟨rfl, rfl⟩

/-- Two dots go up: to the directory around, or above the root. -/
theorem enter_up (p : Destination) :
    (p.enter "..").above = (if p.names = [] then p.above + 1 else p.above) ∧
      (p.enter "..").names = p.names.dropLast :=
  ⟨rfl, rfl⟩

/-- A name that is entered and left again makes no difference. -/
theorem enter_enter_up (h : IsName s) : (p.enter s).enter ".." = p := by
  obtain ⟨habove, hnames⟩ := enter_of_isName (p := p) h
  obtain ⟨habove', hnames'⟩ := enter_up (p.enter s)
  ext1
  · rw [habove', hnames, if_neg (by simp), habove]
  · rw [hnames', hnames, List.dropLast_concat]

/-- A step behind the way to a place folds to the way to the next place. -/
theorem folds_enter (p : Destination) (s : String) (l : List String) :
    Relation.ReflTransGen Folds (p.steps ++ s :: l) ((p.enter s).steps ++ l) := by
  -- A step stays, goes up or goes down.
  by_cases hstay : s = "" ∨ s = "."
  · rw [enter_of_stay p hstay]
    exact .single (.skip p.steps l hstay)
  by_cases hup : s = ".."
  · subst hup
    obtain ⟨habove, hnames⟩ := p.enter_up
    unfold steps
    rw [habove, hnames]
    rcases List.eq_nil_or_concat p.names with hnil | ⟨init, last, hlast⟩
    · -- There is nothing to cancel, and the step up is one more.
      rw [hnil, if_pos rfl, List.replicate_succ', List.dropLast_nil, List.append_nil, List.append_nil,
        List.append_assoc, List.singleton_append]
    · have hname : IsName last := p.isName last (by simp [hlast])
      have hne : p.names ≠ [] := by simp [hlast]
      rw [if_neg hne, hlast, List.concat_eq_append, List.dropLast_concat]
      simpa only [List.append_assoc, List.singleton_append] using
        Relation.ReflTransGen.single (Folds.cancel (List.replicate p.above ".." ++ init) l hname)
  · have hname : IsName s := ⟨fun h => hstay (.inl h), fun h => hstay (.inr h), hup⟩
    obtain ⟨habove, hnames⟩ := enter_of_isName (p := p) hname
    unfold steps
    rw [habove, hnames, List.append_assoc, List.append_assoc, List.append_assoc, List.singleton_append]

/-- Walking along a list of steps folds it. -/
theorem folds_foldl_enter (p : Destination) (l : List String) :
    Relation.ReflTransGen Folds (p.steps ++ l) (l.foldl enter p).steps := by
  induction l generalizing p with
  | nil => rw [List.append_nil, List.foldl_nil]
  | cons s l ih => exact (p.folds_enter s l).trans (ih (p.enter s))

/-- **Folding does not change where a list of steps leads.** -/
theorem foldl_enter_of_folds {l m : List String} (h : Folds l m) : l.foldl enter p = m.foldl enter p := by
  cases h with
  | skip before after hstay =>
    rw [List.foldl_append, List.foldl_cons, enter_of_stay _ hstay, List.foldl_append]
  | cancel before after hname =>
    rw [List.foldl_append, List.foldl_cons, List.foldl_cons, enter_enter_up hname, List.foldl_append]

/-- Names are walked down one after the other. -/
theorem foldl_enter_names {l : List String} (h : ∀ s ∈ l, IsName s) :
    (l.foldl enter p).above = p.above ∧ (l.foldl enter p).names = p.names ++ l := by
  induction l generalizing p with
  | nil => exact ⟨rfl, (List.append_nil _).symm⟩
  | cons s l ih =>
    obtain ⟨habove, hnames⟩ := enter_of_isName (p := p) (h s List.mem_cons_self)
    obtain ⟨habove', hnames'⟩ := ih (p := p.enter s) fun t ht => h t (List.mem_cons_of_mem s ht)
    refine ⟨habove'.trans habove, ?_⟩
    rw [List.foldl_cons, hnames', hnames, List.append_assoc, List.singleton_append]

/-- So many steps up from the root lead so far above it. -/
theorem foldl_enter_ups (n : Nat) :
    ((List.replicate n "..").foldl enter root).above = n ∧
      ((List.replicate n "..").foldl enter root).names = [] := by
  induction n with
  | zero => exact ⟨rfl, rfl⟩
  | succ n ih =>
    rw [List.replicate_succ', List.foldl_append, List.foldl_cons, List.foldl_nil]
    obtain ⟨habove, hnames⟩ := enter_up ((List.replicate n "..").foldl enter root)
    rw [habove, hnames, ih.2, if_pos rfl, ih.1]
    exact ⟨rfl, rfl⟩

/-- The shortest way to a place leads to it. -/
theorem foldl_enter_steps (p : Destination) : p.steps.foldl enter root = p := by
  obtain ⟨habove, hnames⟩ := foldl_enter_ups p.above
  obtain ⟨habove', hnames'⟩ :=
    foldl_enter_names (p := (List.replicate p.above "..").foldl enter root) p.isName
  unfold steps
  rw [List.foldl_append]
  ext1
  · rw [habove', habove]
  · rw [hnames', hnames, List.nil_append]

end Destination

/-- **Every list of steps leads to one place**, the one that is reached by taking them one by one. -/
theorem leadsTo_iff {l : List String} {p : Destination} :
    LeadsTo l p ↔ l.foldl Destination.enter .root = p := by
  constructor
  · intro h
    -- By induction on the folds, each of which leaves the walk where it was.
    have hfold : l.foldl Destination.enter .root = p.steps.foldl Destination.enter .root := by
      unfold LeadsTo at h
      generalize p.steps = m at h
      induction h with
      | refl => rfl
      | tail _ hstep ih => exact ih.trans (Destination.foldl_enter_of_folds hstep)
    exact hfold.trans p.foldl_enter_steps
  · rintro rfl
    exact Destination.root.folds_foldl_enter l

end Path

namespace WorkingSet

open CodeAtlas.Path (Destination)

/-- **The file at a place**, if there is one. Above its root a project has no files. -/
def filesAt (s : WorkingSet) (p : Destination) : List String :=
  if p.above = 0 ∧ (s.files.get? (Text.joined "/" p.names)).isSome then [Text.joined "/" p.names] else []

/-! ### What becomes of a relative path -/

/-- The segments that are kept are the names of the place. -/
theorem foldl_addSegment (p : Destination) (l : List String) :
    l.foldl addSegment p.names = (l.foldl Destination.enter p).names := by
  induction l generalizing p with
  | nil => rfl
  | cons s l ih =>
    have hstep : addSegment p.names s = (p.enter s).names := by
      unfold addSegment Destination.enter
      split
      · rfl
      · split <;> rfl
    rw [List.foldl_cons, List.foldl_cons, hstep, ih]

/-- A relative path is joined to the names of the place that it leads to. -/
theorem joinRelative_eq {file target : String} {p : Destination}
    (hfile : ∀ s ∈ Path.steps file, Path.IsName s)
    (h : Path.LeadsTo (Path.directory file ++ Path.steps target) p) :
    joinRelative file target = Text.joined "/" p.names := by
  have hdirectory : ∀ s ∈ Path.directory file, Path.IsName s :=
    fun s hs => hfile s (List.dropLast_subset _ hs)
  obtain ⟨-, hnames⟩ := Destination.foldl_enter_names (p := .root) hdirectory
  rw [Path.leadsTo_iff, List.foldl_append] at h
  have hfold := foldl_addSegment ((Path.directory file).foldl Destination.enter .root) (Path.steps target)
  rw [hnames, h] at hfold
  exact congrArg (Text.joined "/") hfold

/-- A path without a scheme is seen from the directory of the file. -/
theorem fileTargets_eq {s : WorkingSet} {file target : String}
    (h : ∀ scheme ∈ ["dart:", "package:"], Text.hasStart scheme target = false) :
    s.fileTargets file target =
      if (s.files.get? (joinRelative file target)).isSome then [joinRelative file target] else [] := by
  have hlibrary : Text.hasStart "dart:" target = false := h _ List.mem_cons_self
  have hpackage : Text.hasStart "package:" target = false :=
    h _ (List.mem_cons_of_mem _ List.mem_cons_self)
  have hnone : Text.stripPrefix? "package:".toList target.toList = none :=
    Option.not_isSome_iff_eq_none.1 (Bool.eq_false_iff.1 hpackage)
  unfold fileTargets
  rw [hlibrary, if_neg Bool.false_ne_true, hnone]

/-- **What a relative path finds.** The path leads to one place, and the file that is found is the one that
has the names of the place below the root. It is the file at the place itself exactly if the place is not
above the root, or there is no such file. -/
theorem fileTargets_relative (s : WorkingSet) (file target : String)
    (hfile : ∀ t ∈ Path.steps file, Path.IsName t)
    (hscheme : ∀ scheme ∈ ["dart:", "package:"], Text.hasStart scheme target = false) :
    ∃ p : Destination, Path.LeadsTo (Path.directory file ++ Path.steps target) p ∧
      (∀ q, Path.LeadsTo (Path.directory file ++ Path.steps target) q → q = p) ∧
      s.fileTargets file target = s.filesAt { p with above := 0 } ∧
      (s.fileTargets file target = s.filesAt p ↔
        p.above = 0 ∨ s.files.get? (Text.joined "/" p.names) = none) := by
  obtain ⟨p, hp⟩ : ∃ p, Path.LeadsTo (Path.directory file ++ Path.steps target) p :=
    ⟨_, Path.leadsTo_iff.2 rfl⟩
  -- Steps above the root are forgotten, so the file is looked up by the names alone.
  have htargets : s.fileTargets file target = s.filesAt { p with above := 0 } := by
    unfold filesAt
    rw [fileTargets_eq hscheme, joinRelative_eq hfile hp]
    simp
  refine ⟨p, hp, fun q hq => ?_, htargets, ?_⟩
  · exact (Path.leadsTo_iff.1 hq).symm.trans (Path.leadsTo_iff.1 hp)
  · rw [htargets]
    unfold filesAt
    cases s.files.get? (Text.joined "/" p.names) with
    | none => simp
    | some id => by_cases habove : p.above = 0 <;> simp [habove]

/-- A project with a library at its root and one in a directory. -/
def twoLibraries : WorkingSet :=
  let file (path name : String) : Node := .declared (.generic .file) path name path 1
  (({} : WorkingSet).addFile "b.dart" (file "b.dart" "b.dart")).addFile "lib/a.dart"
    (file "lib/a.dart" "a.dart")

/-- A path with a detour finds the file at its place. -/
theorem fileTargets_relative_twoLibraries :
    (∀ t ∈ Path.steps "lib/a.dart", Path.IsName t) ∧
      (∀ scheme ∈ ["dart:", "package:"], Text.hasStart scheme "src/.././../b.dart" = false) ∧
      ∃ p : Destination, Path.LeadsTo (Path.directory "lib/a.dart" ++ Path.steps "src/.././../b.dart") p ∧
        (∀ q, Path.LeadsTo (Path.directory "lib/a.dart" ++ Path.steps "src/.././../b.dart") q → q = p) ∧
        twoLibraries.fileTargets "lib/a.dart" "src/.././../b.dart"
          = twoLibraries.filesAt { p with above := 0 } ∧
        (twoLibraries.fileTargets "lib/a.dart" "src/.././../b.dart" = twoLibraries.filesAt p ↔
          p.above = 0 ∨ twoLibraries.files.get? (Text.joined "/" p.names) = none) :=
  have hfile : ∀ t ∈ Path.steps "lib/a.dart", Path.IsName t := by decide +kernel
  have hscheme : ∀ scheme ∈ ["dart:", "package:"],
      Text.hasStart scheme "src/.././../b.dart" = false := by decide +kernel
  ⟨hfile, hscheme, fileTargets_relative twoLibraries "lib/a.dart" "src/.././../b.dart" hfile hscheme⟩

/-- **A path that leads out of the project may find a file in it.** Two steps up from `lib` are one too many,
and what is found is the library at the root. -/
theorem climbing_path_finds_file :
    Path.LeadsTo (Path.directory "lib/a.dart" ++ Path.steps "../../b.dart") ⟨1, ["b.dart"], by decide⟩ ∧
      twoLibraries.fileTargets "lib/a.dart" "../../b.dart" = ["b.dart"] :=
  ⟨Path.leadsTo_iff.2 (Destination.ext (by decide +kernel) (by decide +kernel)), by decide +kernel⟩

end WorkingSet

end CodeAtlas
