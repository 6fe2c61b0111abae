import Mathlib.Algebra.GroupWithZero.Nat
import Mathlib.Data.List.Sort
import CodeAtlas.Graph.Build
import CodeAtlas.Schema.Standard

/-!
# The order in which files arrive

The files of a project are read side by side and arrive in any order. Nothing that is said about a project
depends on it: `ParseResult.ofFiles` sorts by path, and if no two files have the same path, the sorted list
is the only strictly ascending list with those files (`files_ofFiles_perm`). Since a build walks a project
in the order of its files and lets the first declaration win, this is also what makes builds reproducible.

The totals of the languages are the second subject. The languages of a result divide its files, so
whatever is counted file by file may be counted language by language (`sum_languages`); files, lines and
failures are three cases of it.
-/

namespace CodeAtlas.ParseResult

/-! ### Sorting by path -/

/-- The files of a result, in an order that puts no path before a lesser one. -/
theorem pairwise_files_ofFiles (files : List ParsedFile) :
    (ofFiles files).files.Pairwise fun a b => ¬ b.path < a.path := by
  -- Sorting asks for a relation that is transitive and total, here on paths.
  have htrans : ∀ a b c : ParsedFile, (!decide (b.path < a.path)) = true →
      (!decide (c.path < b.path)) = true → (!decide (c.path < a.path)) = true := by
    intro a b c hab hbc
    simp only [Bool.not_eq_true', decide_eq_false_iff_not, String.not_lt] at hab hbc ⊢
    exact String.le_trans hab hbc
  have htotal : ∀ a b : ParsedFile,
      (!decide (b.path < a.path) || !decide (a.path < b.path)) = true := by
    intro a b
    simp only [Bool.or_eq_true, Bool.not_eq_true', decide_eq_false_iff_not, String.not_lt]
    exact String.le_total a.path b.path
  refine (List.pairwise_mergeSort htrans htotal files).imp fun h => ?_
  simpa using h

theorem files_ofFiles_perm_self (files : List ParsedFile) : (ofFiles files).files.Perm files :=
  List.mergeSort_perm files _

/-- Files with different paths are in strictly ascending order. -/
theorem ascending_files_ofFiles {files : List ParsedFile} (h : (files.map (·.path)).Nodup) :
    (ofFiles files).files.Pairwise fun a b => a.path < b.path := by
  have hdistinct : (ofFiles files).files.Pairwise fun a b => a.path ≠ b.path :=
    List.pairwise_map.1 (((files_ofFiles_perm_self files).map ParsedFile.path).nodup_iff.2 h)
  refine (pairwise_files_ofFiles files).imp₂ (fun a b hle hne => ?_) hdistinct
  by_contra hlt
  exact hne (String.le_antisymm (String.not_lt.1 hle) (String.not_lt.1 hlt))

/-- **The order of arrival does not matter**, if no two files have the same path. -/
theorem files_ofFiles_perm {files arrived : List ParsedFile} (hperm : arrived.Perm files)
    (h : (files.map (·.path)).Nodup) : ofFiles arrived = ofFiles files := by
  have harrived : (arrived.map (·.path)).Nodup := (hperm.map ParsedFile.path).nodup_iff.2 h
  have hfiles : (ofFiles arrived).files = (ofFiles files).files := by
    refine List.Perm.eq_of_pairwise ?_ (ascending_files_ofFiles harrived) (ascending_files_ofFiles h) ?_
    · -- The order is strict, so no two files are below each other.
      intro a b _ _ hab hba
      exact absurd hba (String.lt_asymm hab)
    · exact (files_ofFiles_perm_self arrived).trans
        (hperm.trans (files_ofFiles_perm_self files).symm)
  exact congrArg (ParseResult.mk · none) hfiles

/-! ### Totals -/

/-- Leaving out what counts nothing does not change a sum. -/
theorem sum_map_filter {α : Type} {p : α → Bool} {g : α → Nat} {l : List α}
    (h : ∀ a ∈ l, p a = false → g a = 0) : ((l.filter p).map g).sum = (l.map g).sum := by
  induction l with
  | nil => rfl
  | cons a l ih =>
    have hl := ih fun b hb => h b (List.mem_cons_of_mem a hb)
    rw [List.filter_cons]
    split
    · rw [List.map_cons, List.map_cons, List.sum_cons, List.sum_cons, hl]
    · rename_i ha
      rw [hl, List.map_cons, List.sum_cons, h a List.mem_cons_self (Bool.eq_false_iff.2 ha),
        Nat.zero_add]

/-- Every file has one language. -/
theorem sum_all_languages (g : ParsedFile → Nat) (files : List ParsedFile) :
    (Language.all.map fun l => ((files.filter fun f => f.language == l).map g).sum).sum
      = (files.map g).sum := by
  induction files with
  | nil => rfl
  | cons f files ih =>
    rw [List.map_cons, List.sum_cons, ← ih]
    cases h : f.language <;> simp [Language.all, List.filter_cons, h] <;> omega

/-- **What is counted file by file is counted language by language.** -/
theorem sum_languages (r : ParseResult) (g : ParsedFile → Nat) :
    (r.languages.map fun l => ((r.filesOf l).map g).sum).sum = (r.files.map g).sum := by
  unfold languages
  rw [sum_map_filter, ← sum_all_languages g r.files]
  · rfl
  · intro l _ hl
    -- A language that is left out has no files.
    have hempty : r.filesOf l = [] := by simpa using hl
    rw [hempty]
    rfl

theorem foldl_lines (files : List ParsedFile) :
    files.foldl (fun n f => n + f.lines) 0 = (files.map (·.lines)).sum := by
  rw [List.sum_eq_foldl, List.foldl_map]

/-- The files with a property are as many as there are ones among their marks. -/
theorem length_filter_eq_sum (p : ParsedFile → Bool) (files : List ParsedFile) :
    (files.filter p).length = (files.map fun f => if p f then 1 else 0).sum := by
  induction files with
  | nil => rfl
  | cons f files ih =>
    rw [List.filter_cons, List.map_cons, List.sum_cons, ← ih]
    split
    · rw [List.length_cons, Nat.add_comm]
    · rw [Nat.zero_add]

/-- **The totals of the languages add up.** -/
theorem sum_totals (r : ParseResult) :
    r.files.length = (r.languages.map fun l => (r.totals l).files).sum ∧
      r.totalLines = (r.languages.map fun l => (r.totals l).lines).sum ∧
      r.failures.length = (r.languages.map fun l => (r.totals l).failures).sum := by
  -- Each total is a sum over the files, and a sum over the files is one over the languages.
  refine ⟨?_, ?_, ?_⟩
  · have hlength : ∀ files : List ParsedFile, files.length = (files.map fun _ => 1).sum := by
      intro files
      simp
    simp only [totals, hlength]
    exact (r.sum_languages fun _ => 1).symm
  · unfold totalLines totals
    simp only [foldl_lines]
    exact (r.sum_languages (·.lines)).symm
  · unfold failures totals
    rw [List.length_mergeSort, List.length_map]
    simp only [length_filter_eq_sum]
    exact (r.sum_languages _).symm

/-! ### Builds -/

/-- **The outcome does not depend on the order in which files arrive.** If no two files have the same path,
all orders of arrival give one result: the files in strictly ascending order of their paths, with totals
that add up. So they give one plan and one list of statements. -/
theorem ofFiles_of_perm (settings : BuildSettings) {files arrived : List ParsedFile}
    (hperm : arrived.Perm files) (hpaths : (files.map (·.path)).Nodup) :
    let r := ofFiles files
    ofFiles arrived = r ∧ (ofFiles arrived).toJson = r.toJson ∧
      r.files.Perm files ∧ (r.files.Pairwise fun a b => a.path < b.path) ∧
      r.files.length = (r.languages.map fun l => (r.totals l).files).sum ∧
      r.totalLines = (r.languages.map fun l => (r.totals l).lines).sum ∧
      r.failures.length = (r.languages.map fun l => (r.totals l).failures).sum ∧
      build settings (ofFiles arrived) = build settings r ∧
      (plan settings (ofFiles arrived)).statements = (plan settings r).statements := by
  intro r
  have hr : ofFiles arrived = r := files_ofFiles_perm hperm hpaths
  obtain ⟨hfiles, hlines, hfailures⟩ := r.sum_totals
  exact ⟨hr, congrArg toJson hr, files_ofFiles_perm_self files, ascending_files_ofFiles hpaths,
    hfiles, hlines, hfailures, congrArg (build settings) hr,
    congrArg (fun r => (plan settings r).statements) hr⟩

/-- Two files of one scope that declare a class of the same name, and one that could not be read. -/
def threeFiles : List ParsedFile :=
  let animal : TypeDecl := { name := "Animal", kind := .plainClass, span := ⟨2, 2⟩ }
  [.ofRecord "b/Animal.java" (.java (some "zoo") 1 { types := [animal] }),
    { path := "c.py", language := .python, record := none, success := false, fidelity := .parser },
    .ofRecord "a/Animal.java" (.java (some "zoo") 1 { types := [animal] })]

/-- The file that was read last may well be the first one of the project. -/
theorem ofFiles_of_perm_threeFiles :
    threeFiles.reverse.Perm threeFiles ∧ (threeFiles.map (·.path)).Nodup ∧
      ofFiles threeFiles.reverse = ofFiles threeFiles ∧
      build { schema := .standard } (ofFiles threeFiles.reverse)
        = build { schema := .standard } (ofFiles threeFiles) := by
  have hperm : threeFiles.reverse.Perm threeFiles := List.reverse_perm threeFiles
  have hpaths : (threeFiles.map (·.path)).Nodup := by decide +kernel
  obtain ⟨hr, -, -, -, -, -, -, hbuild, -⟩ := ofFiles_of_perm { schema := .standard } hperm hpaths
  exact ⟨hperm, hpaths, hr, hbuild⟩

end CodeAtlas.ParseResult
