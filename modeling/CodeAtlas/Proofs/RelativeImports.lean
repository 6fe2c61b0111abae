import CodeAtlas.Graph.Imports
import CodeAtlas.Proofs.Words
import Mathlib.Data.List.Basic

/-!
# Where relative imports lead

An import in Python may count packages upwards from the package of its own file: one dot is that package,
each further dot the package around it. The file is given by its path, so two readings of the path have to
agree. `Python.moduleName` makes the name of the module out of it, in which the file `__init__` of a
directory stands for the directory, and `WorkingSet.absoluteModule?` takes that name apart again, after
asking the path once more whether the file is such an `__init__`.

`follows_directories_iff` says for which files they do agree. Counting dots is the same as counting
directories (`upward?`) exactly for the files that are `Regular`, and these are all but two sorts of files:

* a file whose name ends in `__init__` and is longer, such as `my__init__`. Its name is not that of a
  package, but the end of its path is taken for one, so the file counts as a package inside its directory;
* the `__init__` of a directory that is itself called `__init__` and stands at the root. The name of that
  module is the one that is kept for the root, so the directory is lost.

`absoluteModule?_relative` covers all files: dots are counted from `ModuleFile.package`, the package that
the two readings make of the path. It rests on `moduleName_path`, which says what the first reading finds,
and on `isPackage_path`, which says what the second one asks.
-/

namespace CodeAtlas

/-! ### Ends and pieces of a text -/

namespace Text

/-- A suffix is taken off exactly if the text ends with it. -/
theorem stripSuffix?_eq_some_iff {q s r : List Char} : stripSuffix? q s = some r ↔ s = r ++ q := by
  unfold stripSuffix?
  rw [Option.map_eq_some_iff]
  constructor
  · rintro ⟨t, ht, rfl⟩
    have hs : s.reverse = q.reverse ++ t := stripPrefix?_eq_some_iff.1 ht
    calc s = s.reverse.reverse := (List.reverse_reverse s).symm
      _ = t.reverse ++ q := by rw [hs, List.reverse_append, List.reverse_reverse]
  · rintro rfl
    refine ⟨r.reverse, stripPrefix?_eq_some_iff.2 ?_, List.reverse_reverse r⟩
    rw [List.reverse_append]

/-- The test on ends of texts. -/
theorem endsWith_iff {q s : List Char} : endsWith q s = true ↔ q <:+ s := by
  unfold endsWith
  rw [Option.isSome_iff_exists]
  constructor
  · rintro ⟨r, hr⟩
    exact ⟨r, (stripSuffix?_eq_some_iff.1 hr).symm⟩
  · rintro ⟨r, hr⟩
    exact ⟨r, stripSuffix?_eq_some_iff.2 hr.symm⟩

/-- Cutting a text with a run in hand: the run goes in front of the first piece. -/
theorem piecesFrom_eq (p : Char → Bool) (run s : List Char) :
    -- At a mark the run in hand is a whole piece; at any other character it grows.
    piecesFrom p run s = (s.splitOnP p).modifyHead (run.reverse ++ ·) := by
  induction s generalizing run with
  | nil =>
    rw [piecesFrom, List.splitOnP_nil, List.modifyHead_cons, List.append_nil]
  | cons c s ih =>
    rw [piecesFrom, List.splitOnP_cons_eq_if_modifyHead]
    split
    · have hrest : piecesFrom p [] s = s.splitOnP p := by
        rw [ih []]
        exact congrFun List.modifyHead_id _
      rw [hrest, List.modifyHead_cons, List.append_nil]
    · rw [ih (c :: run), List.modifyHead_modifyHead]
      congr 1
      funext t
      simp

/-- The pieces of a text are those of the library's own splitting. -/
theorem pieces_eq_splitOnP (p : Char → Bool) (s : List Char) : pieces p s = s.splitOnP p := by
  rw [pieces, piecesFrom_eq]
  exact congrFun List.modifyHead_id _

/-- The parts of a joined text are the texts that were joined. -/
theorem parts_joined {sep : Char} {l : List String} (hl : l ≠ []) (h : ∀ s ∈ l, sep ∉ s.toList) :
    parts (· == sep) (joined (String.ofList [sep]) l) = l := by
  have htext : (joined (String.ofList [sep]) l).toList = [sep].intercalate (l.map String.toList) := by
    rw [joined, String.toList_intercalate, String.toList_ofList]
  -- No name holds the separator, so the cuts are where the names were joined.
  have hsplit : ([sep].intercalate (l.map String.toList)).splitOnP (· == sep) = l.map String.toList := by
    refine List.splitOn_intercalate sep ?_ (fun hnil => hl (List.map_eq_nil_iff.1 hnil))
    intro t ht
    obtain ⟨s, hs, rfl⟩ := List.mem_map.1 ht
    exact h s hs
  rw [parts, htext, pieces_eq_splitOnP, hsplit, List.map_map]
  calc l.map (String.ofList ∘ String.toList) = l.map id :=
        List.map_congr_left fun s _ => String.ofList_toList
    _ = l := List.map_id l

section Separated

variable {sep : Char} {a q last : List Char}

/-- An end of a text that does not reach a separator is an end of what follows the separator. -/
theorem suffix_after_iff (hq : sep ∉ q) : q <:+ a ++ sep :: last ↔ q <:+ last := by
  -- Of two ends of one text the shorter one is an end of the longer one.
  have hlast : sep :: last <:+ a ++ sep :: last := List.suffix_append _ _
  constructor
  · intro h
    rcases List.suffix_or_suffix_of_suffix h hlast with hshort | hlong
    · rcases List.suffix_cons_iff.1 hshort with rfl | hend
      · exact absurd List.mem_cons_self hq
      · exact hend
    · exact absurd (hlong.subset List.mem_cons_self) hq
  · intro h
    exact h.trans ((List.suffix_cons sep last).trans hlast)

/-- An end of a text that starts at its last separator is all that follows the separator. -/
theorem cons_suffix_after_iff (hq : sep ∉ q) (hlast : sep ∉ last) :
    sep :: q <:+ a ++ sep :: last ↔ q = last := by
  constructor
  · intro h
    rcases List.suffix_or_suffix_of_suffix h (List.suffix_append a (sep :: last)) with hshort | hlong
    · rcases List.suffix_cons_iff.1 hshort with heq | hend
      · exact (List.cons.inj heq).2
      · exact absurd (hend.subset List.mem_cons_self) hlast
    · rcases List.suffix_cons_iff.1 hlong with heq | hend
      · exact (List.cons.inj heq).2.symm
      · exact absurd (hend.subset List.mem_cons_self) hq
  · rintro rfl
    exact List.suffix_append _ _

/-- A last member is joined behind the others. -/
theorem intercalate_concat {l : List (List Char)} (hl : l ≠ []) :
    [sep].intercalate (l ++ [last]) = [sep].intercalate l ++ sep :: last := by
  induction l with
  | nil => exact absurd rfl hl
  | cons s l ih =>
    cases l with
    | nil =>
      rw [List.singleton_append, List.intercalate_cons_cons, List.intercalate_singleton,
        List.intercalate_singleton, List.append_assoc, List.singleton_append]
    | cons t l =>
      have hrest := ih (List.cons_ne_nil t l)
      rw [List.cons_append] at hrest ⊢
      rw [List.cons_append, List.intercalate_cons_cons, hrest, List.intercalate_cons_cons]
      simp only [List.append_assoc]

/-- A character of a joined text is the separator or stands in a member. -/
theorem mem_intercalate {l : List (List Char)} {c : Char} (h : c ∈ [sep].intercalate l) :
    c = sep ∨ ∃ s ∈ l, c ∈ s := by
  induction l with
  | nil =>
    rw [List.intercalate_nil] at h
    cases h
  | cons s l ih =>
    -- The separator only stands where another member follows.
    cases l with
    | nil =>
      rw [List.intercalate_singleton] at h
      exact .inr ⟨s, List.mem_cons_self, h⟩
    | cons t l =>
      rw [List.intercalate_cons_cons, List.append_assoc] at h
      rcases List.mem_append.1 h with h | h
      · exact .inr ⟨s, List.mem_cons_self, h⟩
      · rcases List.mem_append.1 h with h | h
        · exact .inl (List.mem_singleton.1 h)
        · rcases ih h with h | ⟨u, hu, hc⟩
          · exact .inl h
          · exact .inr ⟨u, List.mem_cons_of_mem s hu, hc⟩

/-- Characters may be replaced before or after joining. -/
theorem map_intercalate (f : Char → Char) (l : List (List Char)) :
    ([sep].intercalate l).map f = [f sep].intercalate (l.map (List.map f)) := by
  induction l with
  | nil => rw [List.intercalate_nil, List.map_nil, List.map_nil, List.intercalate_nil]
  | cons s l ih =>
    -- A separator is written between two members, so the last one is a case of its own.
    cases l with
    | nil =>
      rw [List.map_cons, List.map_nil, List.intercalate_singleton, List.intercalate_singleton]
    | cons t l =>
      rw [List.map_cons] at ih
      rw [List.map_cons, List.map_cons, List.intercalate_cons_cons, List.intercalate_cons_cons,
        List.map_append, List.map_append, ih, List.map_singleton]

/-- Joined texts are a text without separators only if there is nothing to join. -/
theorem intercalate_eq_iff {l : List String} {w : String} (hsep : sep ∉ w.toList) (hw : w ≠ "") :
    [sep].intercalate (l.map String.toList) = w.toList ↔ l = [w] := by
  match l with
  | [] =>
    have hnil : w.toList ≠ [] := fun h => hw (String.toList_injective h)
    constructor
    · intro h
      rw [List.map_nil, List.intercalate_nil] at h
      exact absurd h.symm hnil
    · intro h
      cases h
  | [s] =>
    rw [List.map_singleton, List.intercalate_singleton, String.toList_inj, List.singleton_inj]
  | s :: t :: l =>
    constructor
    · intro h
      rw [List.map_cons, List.map_cons, List.intercalate_cons_cons] at h
      -- With two members or more, a separator stands in the joined text.
      have hmem : sep ∈ w.toList := by
        rw [← h]
        exact List.mem_append_left _ (List.mem_append_right _ (List.mem_singleton_self sep))
      exact absurd hmem hsep
    · intro h
      cases h

end Separated

end Text

/-! ### Files and their packages -/

namespace Python

/-- A name that may stand in the path of a module: it is not empty, and it holds neither a dot nor a mark
that separates directories. -/
def IsSegment (s : String) : Prop :=
  s ≠ "" ∧ '.' ∉ s.toList ∧ '/' ∉ s.toList ∧ '\\' ∉ s.toList

instance (s : String) : Decidable (IsSegment s) :=
  inferInstanceAs (Decidable (_ ∧ _ ∧ _ ∧ _))

/-- **The file of a module** below the root of a project. -/
structure ModuleFile where
  /-- The directories from the root down to the file. -/
  directories : List String
  /-- The name of the file without its ending. -/
  stem : String
  /-- Whether the file holds types only, which shows in its ending. -/
  isInterface : Bool := false
  isSegment : ∀ s ∈ directories ++ [stem], IsSegment s := by decide

namespace ModuleFile

/-- The ending of the path. -/
def ending (f : ModuleFile) : String :=
  if f.isInterface then ".pyi" else ".py"

/-- The path of the file. -/
def path (f : ModuleFile) : String :=
  Text.joined "/" (f.directories ++ [f.stem]) ++ f.ending

/-- The name under which the module is known in a graph: the name that follows from the path, or the name
that is kept for the root. -/
def scope (f : ModuleFile) : String :=
  if moduleName f.path = "" then rootModule else moduleName f.path

/-- The segments of the name that the path gives to the module. -/
def names (f : ModuleFile) : List String :=
  if f.stem = rootModule then if f.directories = [rootModule] then [] else f.directories
  else f.directories ++ [f.stem]

/-- **The package from which the dots of an import are counted.** -/
def package (f : ModuleFile) : List String :=
  if Text.hasEnd rootModule f.stem then f.names else f.names.dropLast

/-- **A file whose path is read in one way.** Its name ends like that of a package only if it is one, and
the package is not the directory that has the name of the root. -/
def Regular (f : ModuleFile) : Prop :=
  if f.stem = rootModule then f.directories ≠ [rootModule] else Text.hasEnd rootModule f.stem = false

instance (f : ModuleFile) : Decidable f.Regular :=
  inferInstanceAs (Decidable (ite _ _ _))

end ModuleFile

/-- **The module that `dots` dots and a name lead to**, counted upwards from a package. There is none above
the root. -/
def upward? (package : List String) (dots : Nat) (rest : String) : Option String :=
  if package.length + 1 < dots then none
  else
    let base := package.take (package.length + 1 - dots)
    some (Text.joined "." (if rest = "" then base else base ++ [rest]))

/-- The path of a relative import. -/
def relativePath (dots : Nat) (rest : String) : String :=
  String.ofList (List.replicate dots '.') ++ rest

/-! ### The first reading: the name of the module -/

namespace ModuleFile

variable (f : ModuleFile)

/-- The path without its ending. -/
def base : List Char :=
  ['/'].intercalate ((f.directories ++ [f.stem]).map String.toList)

/-- The path is its base and its ending. -/
theorem toList_path : f.path.toList = f.base ++ f.ending.toList := by
  unfold path base Text.joined
  rw [String.toList_append, String.toList_intercalate]
  rfl

theorem base_of_nil (h : f.directories = []) : f.base = f.stem.toList := by
  unfold base
  rw [h, List.nil_append, List.map_singleton, List.intercalate_singleton]

/-- Elsewhere it is the directories, a slash and the stem. -/
theorem base_of_ne_nil (h : f.directories ≠ []) :
    f.base = ['/'].intercalate (f.directories.map String.toList) ++ '/' :: f.stem.toList := by
  unfold base
  rw [List.map_append, List.map_singleton]
  exact Text.intercalate_concat fun hnil => h (List.map_eq_nil_iff.1 hnil)

theorem isSegment_stem : IsSegment f.stem :=
  f.isSegment f.stem (List.mem_append_right _ (List.mem_singleton_self f.stem))

theorem isSegment_of_mem_names {s : String} (hs : s ∈ f.names) : IsSegment s := by
  refine f.isSegment s ?_
  unfold names at hs
  split at hs
  · split at hs
    · cases hs
    · exact List.mem_append_left _ hs
  · exact hs

/-- No dot stands in the path before its ending, and no backslash either. -/
theorem ne_of_mem_base {c : Char} (hc : c ∈ f.base) : c ≠ '.' ∧ c ≠ '\\' := by
  rcases Text.mem_intercalate hc with rfl | ⟨t, ht, hc⟩
  · decide
  · obtain ⟨s, hs, rfl⟩ := List.mem_map.1 ht
    obtain ⟨-, hdot, -, hback⟩ := f.isSegment s hs
    exact ⟨fun h => hdot (h ▸ hc), fun h => hback (h ▸ hc)⟩

/-- The ending is taken off, whichever of the two it is. -/
theorem dropEnding_base_append :
    dropEnding [".pyi", ".py"] (f.base ++ f.ending.toList) = f.base := by
  unfold ending
  cases f.isInterface with
  | true =>
    have hlong : Text.stripSuffix? ".pyi".toList (f.base ++ ".pyi".toList) = some f.base :=
      Text.stripSuffix?_eq_some_iff.2 rfl
    rw [if_pos rfl, dropEnding, hlong, Option.getD_some]
  | false =>
    have hshort : Text.stripSuffix? ".py".toList (f.base ++ ".py".toList) = some f.base :=
      Text.stripSuffix?_eq_some_iff.2 rfl
    -- The last characters of the two endings differ.
    have hlong : Text.stripSuffix? ".pyi".toList (f.base ++ ".py".toList) = none := by
      rw [Option.eq_none_iff_forall_ne_some]
      intro r hr
      have hlast := congrArg List.getLast? (Text.stripSuffix?_eq_some_iff.1 hr)
      simp at hlast
    rw [if_neg Bool.false_ne_true, dropEnding, hlong, Option.getD_none, dropEnding, hshort,
      Option.getD_some]

/-- A path loses its last segment if that is the name of packages, and no other. -/
theorem dropEnding_base :
    dropEnding ["/__init__"] f.base =
      if f.stem = rootModule ∧ f.directories ≠ [] then ['/'].intercalate (f.directories.map String.toList)
      else f.base := by
  have hroot : '/' ∉ rootModule.toList := by decide
  have hmark : "/__init__".toList = '/' :: rootModule.toList := by decide
  have hstem : '/' ∉ f.stem.toList := f.isSegment_stem.2.2.1
  rw [dropEnding, dropEnding]
  split
  next h =>
    have hbase : f.base = ['/'].intercalate (f.directories.map String.toList) ++ "/__init__".toList := by
      rw [f.base_of_ne_nil h.2, h.1, hmark]
    rw [Text.stripSuffix?_eq_some_iff.2 hbase, Option.getD_some]
  next h =>
    have hnone : Text.stripSuffix? "/__init__".toList f.base = none := by
      rw [Option.eq_none_iff_forall_ne_some]
      intro r hr
      have hend : '/' :: rootModule.toList <:+ f.base := by
        rw [← hmark, Text.stripSuffix?_eq_some_iff.1 hr]
        exact List.suffix_append _ _
      -- A path that ends so has a directory, since the stem itself holds no slash.
      by_cases hnil : f.directories = []
      · rw [f.base_of_nil hnil] at hend
        exact hstem (hend.subset List.mem_cons_self)
      · rw [f.base_of_ne_nil hnil, Text.cons_suffix_after_iff hroot hstem] at hend
        exact h ⟨(String.toList_injective hend).symm, hnil⟩
    rw [hnone, Option.getD_none]

/-- A file of another stem is not the root module. -/
theorem directories_concat_ne (h : f.stem ≠ rootModule) : f.directories ++ [f.stem] ≠ [rootModule] := by
  intro heq
  have hmem : f.stem ∈ [rootModule] := heq ▸ List.mem_append_right _ (List.mem_singleton_self f.stem)
  exact h (List.mem_singleton.1 hmem)

/-- What is left of a path spells the segments of the name. -/
theorem stem_eq :
    (if dropEnding ["/__init__"] f.base = rootModule.toList then []
      else dropEnding ["/__init__"] f.base) = ['/'].intercalate (f.names.map String.toList) := by
  have hroot : '/' ∉ rootModule.toList := by decide
  have hne : rootModule ≠ "" := by decide
  -- The file is a package or it is not, and a package may be the root.
  unfold names
  by_cases hstem : f.stem = rootModule
  · rw [if_pos hstem]
    by_cases hnil : f.directories = []
    · -- The package is the root, whose name is empty.
      have hdrop : dropEnding ["/__init__"] f.base = rootModule.toList := by
        rw [f.dropEnding_base, if_neg fun h => h.2 hnil, f.base_of_nil hnil, hstem]
      rw [hdrop, if_pos rfl, hnil, if_neg (by simp), List.map_nil, List.intercalate_nil]
    · have hdrop : dropEnding ["/__init__"] f.base = ['/'].intercalate (f.directories.map String.toList) := by
        rw [f.dropEnding_base, if_pos ⟨hstem, hnil⟩]
      rw [hdrop, if_congr (Text.intercalate_eq_iff hroot hne) rfl rfl]
      split
      · rw [List.map_nil, List.intercalate_nil]
      · rfl
  · have hdrop : dropEnding ["/__init__"] f.base = f.base := by
      rw [f.dropEnding_base, if_neg fun h => hstem h.1]
    rw [hdrop, if_neg hstem]
    exact if_neg fun h => f.directories_concat_ne hstem ((Text.intercalate_eq_iff hroot hne).1 h)

/-- **The name of the module** is made of its segments. -/
theorem moduleName_path : moduleName f.path = Text.joined "." f.names := by
  -- No segment holds one of the marks that are replaced.
  have hbackslash : f.path.toList.map (fun c => if c = '\\' then '/' else c) = f.path.toList := by
    have hkeep : ∀ c ∈ f.path.toList, (if c = '\\' then '/' else c) = c := by
      intro c hc
      rw [f.toList_path] at hc
      rcases List.mem_append.1 hc with hc | hc
      · exact if_neg (f.ne_of_mem_base hc).2
      · have hending : '\\' ∉ f.ending.toList := by
          unfold ending
          cases f.isInterface <;> decide
        exact if_neg fun h : c = '\\' => hending (h ▸ hc)
    rw [List.map_congr_left hkeep, List.map_id']
  have hslash : (f.names.map String.toList).map (List.map fun c => if c = '/' then '.' else c)
      = f.names.map String.toList := by
    have hkeep : ∀ t ∈ f.names.map String.toList, t.map (fun c => if c = '/' then '.' else c) = t := by
      intro t ht
      obtain ⟨s, hs, rfl⟩ := List.mem_map.1 ht
      have hsegment := (f.isSegment_of_mem_names hs).2.2.1
      rw [List.map_congr_left fun c hc => if_neg fun h : c = '/' => hsegment (h ▸ hc), List.map_id']
    rw [List.map_congr_left hkeep, List.map_id']
  -- No dot stands in front, so there is nothing to strip.
  have hstrip : Text.stripAll "./".toList (['/'].intercalate (f.names.map String.toList))
      = ['/'].intercalate (f.names.map String.toList) := by
    refine Text.stripAll_of_stripPrefix?_eq_none (Option.eq_none_iff_forall_ne_some.2 ?_)
    intro r hr
    have hdot : '.' ∈ ['/'].intercalate (f.names.map String.toList) := by
      rw [Text.stripPrefix?_eq_some_iff.1 hr]
      exact List.mem_cons_self
    rcases Text.mem_intercalate hdot with h | ⟨t, ht, hmem⟩
    · exact absurd h (by decide)
    · obtain ⟨s, hs, rfl⟩ := List.mem_map.1 ht
      exact (f.isSegment_of_mem_names hs).2.1 hmem
  have hstem := f.stem_eq
  unfold moduleName
  dsimp only
  rw [hbackslash, f.toList_path, f.dropEnding_base_append]
  change String.ofList ((Text.stripAll "./".toList
    (if dropEnding ["/__init__"] f.base = rootModule.toList then []
      else dropEnding ["/__init__"] f.base)).map _) = _
  rw [hstem, hstrip, Text.map_intercalate, hslash, if_pos rfl, ← String.toList_inj, String.toList_ofList,
    Text.joined, String.toList_intercalate]
  rfl

/-! ### The second reading: the package of the file -/

/-- The name of a module is never the one that is kept for the root. -/
theorem names_ne_root : f.names ≠ [rootModule] := by
  unfold names
  split
  · split
    · exact (List.cons_ne_nil _ _).symm
    · assumption
  next hstem => exact f.directories_concat_ne hstem

/-- **The name in the graph** is taken apart into the segments that it was made of. -/
theorem parts_scope :
    (if f.scope = rootModule then [] else Text.parts (· == '.') f.scope) = f.names := by
  unfold scope
  rw [f.moduleName_path]
  by_cases hnil : f.names = []
  · have hempty : Text.joined "." f.names = "" := by
      rw [hnil]
      rfl
    rw [if_pos hempty, if_pos rfl, hnil]
  · have hparts : Text.parts (· == '.') (Text.joined "." f.names) = f.names :=
      Text.parts_joined hnil fun s hs => (f.isSegment_of_mem_names hs).2.1
    -- Both names that would be mistaken consist of one segment, which the file does not have.
    have hname : Text.joined "." f.names ≠ "" := by
      intro h
      rw [h] at hparts
      have hmem : "" ∈ f.names := by
        rw [← hparts]
        decide
      exact (f.isSegment_of_mem_names hmem).1 rfl
    have hroot : Text.joined "." f.names ≠ rootModule := by
      intro h
      rw [h] at hparts
      have hone : Text.parts (· == '.') rootModule = [rootModule] := by decide
      exact f.names_ne_root (hparts.symm.trans hone)
    rw [if_neg hname, if_neg hroot, hparts]

/-- The path ends like that of a package exactly if the name of the file does. -/
theorem isPackage_path :
    (Text.hasEnd "__init__.py" f.path || Text.hasEnd "__init__.pyi" f.path)
      = Text.hasEnd rootModule f.stem := by
  have hbase : rootModule.toList <:+ f.base ↔ rootModule.toList <:+ f.stem.toList := by
    by_cases hnil : f.directories = []
    · rw [f.base_of_nil hnil]
    · rw [f.base_of_ne_nil hnil]
      exact Text.suffix_after_iff (by decide)
  -- The two endings are told apart by their last characters.
  have hlast : ∀ (q a : List Char) (c d : Char), c ≠ d → ¬q ++ [c] <:+ a ++ [d] := by
    intro q a c d hne h
    rcases List.suffix_concat_iff.1 h with hnil | ⟨t, ht, -⟩
    · exact absurd hnil (by simp)
    · exact hne (List.singleton_inj.1 (List.append_inj' ht rfl).2)
  unfold Text.hasEnd
  rw [Bool.eq_iff_iff, Bool.or_eq_true, Text.endsWith_iff, Text.endsWith_iff, Text.endsWith_iff,
    f.toList_path, ← hbase]
  unfold ending
  -- Each of the two endings fits one of the two kinds of files.
  cases f.isInterface with
  | true =>
    have hshort : ¬"__init__.py".toList <:+ f.base ++ ".pyi".toList := by
      have hne := hlast "__init__.p".toList (f.base ++ ".py".toList) 'y' 'i' (by decide)
      rwa [List.append_assoc] at hne
    have hlong : "__init__.pyi".toList <:+ f.base ++ ".pyi".toList ↔ rootModule.toList <:+ f.base :=
      @List.suffix_append_self_iff _ rootModule.toList f.base ".pyi".toList
    exact ⟨fun h => hlong.1 (h.resolve_left hshort), fun h => .inr (hlong.2 h)⟩
  | false =>
    have hlong : ¬"__init__.pyi".toList <:+ f.base ++ ".py".toList := by
      have hne := hlast "__init__.py".toList (f.base ++ ".p".toList) 'i' 'y' (by decide)
      rwa [List.append_assoc] at hne
    have hshort : "__init__.py".toList <:+ f.base ++ ".py".toList ↔ rootModule.toList <:+ f.base :=
      @List.suffix_append_self_iff _ rootModule.toList f.base ".py".toList
    exact ⟨fun h => hshort.1 (h.resolve_right hlong), fun h => .inl (hshort.2 h)⟩

/-! ### Counting upwards -/

end ModuleFile

/-- A list without its last entries is the rest of its first ones. -/
theorem dropLast?_eq (n : Nat) (l : List String) :
    WorkingSet.dropLast? n l = if l.length < n then none else some (l.take (l.length - n)) := by
  -- By induction on the number of names to drop.
  induction n generalizing l with
  | zero =>
    rw [WorkingSet.dropLast?, if_neg (Nat.not_lt_zero _), Nat.sub_zero, List.take_length]
  | succ n ih =>
    rw [WorkingSet.dropLast?]
    by_cases hnil : l = []
    · rw [if_pos hnil, hnil, List.length_nil, if_pos (Nat.succ_pos n)]
    · have hpos : 0 < l.length := List.length_pos_iff.2 hnil
      rw [if_neg hnil, ih, List.length_dropLast, List.dropLast_eq_take, List.take_take]
      by_cases hlt : l.length < n + 1
      · rw [if_pos hlt, if_pos (by omega)]
      · have hmin : min (l.length - 1 - n) (l.length - 1) = l.length - (n + 1) := by omega
        rw [if_neg hlt, if_neg (by omega), hmin]

/-- One can count upwards as far as there are packages, and once more for the root. -/
theorem isSome_upward?_iff (package : List String) (dots : Nat) (rest : String) :
    (upward? package dots rest).isSome ↔ dots ≤ package.length + 1 := by
  unfold upward?
  split
  next h => exact ⟨fun hsome => absurd hsome Bool.false_ne_true, fun hle => absurd h (Nat.not_lt.2 hle)⟩
  next h => exact ⟨fun _ => Nat.not_lt.1 h, fun _ => rfl⟩

section Relative

variable {dots : Nat} {rest : String} (hdots : 1 ≤ dots) (hrest : rest.toList.head? ≠ some '.')

include hrest in
/-- The leading dots of a relative path are those that it was made with. -/
theorem takeWhile_relativePath :
    (relativePath dots rest).toList.takeWhile (· == '.') = List.replicate dots '.' := by
  -- What follows the dots does not begin with another one.
  have hnone : rest.toList.takeWhile (· == '.') = [] := by
    cases hl : rest.toList with
    | nil => rfl
    | cons c l =>
      have hc : ¬(c == '.') = true := by
        intro h
        rw [hl, List.head?_cons, beq_iff_eq.1 h] at hrest
        exact hrest rfl
      exact List.takeWhile_cons_of_neg hc
  have hdot : ∀ c ∈ List.replicate dots '.', (c == '.') = true := by
    intro c hc
    rw [List.eq_of_mem_replicate hc]
    rfl
  rw [relativePath, String.toList_append, String.toList_ofList, List.takeWhile_append_of_pos hdot, hnone,
    List.append_nil]

include hdots hrest in
/-- **The module of a relative import**, for every file: the dots are counted from the package that the
path of the file is taken for. -/
theorem absoluteModule?_relative (f : ModuleFile) :
    WorkingSet.absoluteModule? (some f.scope) f.path (relativePath dots rest)
      = upward? f.package dots rest := by
  have hcount : ((relativePath dots rest).toList.takeWhile (· == '.')).length = dots := by
    rw [takeWhile_relativePath hrest, List.length_replicate]
  have hname : String.ofList ((relativePath dots rest).toList.drop dots) = rest := by
    rw [relativePath, String.toList_append, String.toList_ofList,
      List.drop_left' List.length_replicate, String.ofList_toList]
  unfold WorkingSet.absoluteModule?
  dsimp only
  rw [hcount, if_neg (Nat.one_le_iff_ne_zero.1 hdots), hname, Option.getD_some, f.parts_scope,
    f.isPackage_path]
  change (WorkingSet.dropLast? (dots - 1) f.package).map _ = _
  rw [dropLast?_eq, upward?]
  -- Above the top of the package there is no module; below it, some directories are left over.
  by_cases hlt : f.package.length + 1 < dots
  · rw [if_pos hlt, if_pos (by omega), Option.map_none]
  · have hsub : f.package.length - (dots - 1) = f.package.length + 1 - dots := by omega
    rw [if_neg hlt, if_neg (by omega), Option.map_some, hsub]

end Relative

namespace ModuleFile

theorem hasEnd_rootModule : Text.hasEnd rootModule rootModule = true := by decide

/-- A regular file counts from its own directory. -/
theorem Regular.package_eq {f : ModuleFile} (h : f.Regular) : f.package = f.directories := by
  unfold Regular at h
  unfold package names
  by_cases hstem : f.stem = rootModule
  · rw [if_pos hstem] at h ⊢
    rw [hstem, if_pos hasEnd_rootModule, if_neg h]
  · rw [if_neg hstem] at h ⊢
    rw [h, if_neg Bool.false_ne_true, List.dropLast_concat]

/-- A file that is not regular is counted from a package that is too deep or too high. -/
theorem regular_of_length_package {f : ModuleFile} (h : f.package.length = f.directories.length) :
    f.Regular := by
  unfold package names at h
  unfold Regular
  -- Is the stem that of a root module, and if it is not, does it end like one?
  by_cases hstem : f.stem = rootModule
  · rw [if_pos hstem] at h ⊢
    rw [hstem, if_pos hasEnd_rootModule] at h
    intro hroot
    rw [if_pos hroot, hroot] at h
    exact absurd h (by decide)
  · rw [if_neg hstem] at h ⊢
    cases hend : Text.hasEnd rootModule f.stem with
    | false => rfl
    | true =>
      rw [hend, if_pos rfl, List.length_append, List.length_singleton] at h
      omega

/-- **Relative imports follow the directories exactly in regular files.** There, dots are counted upwards
from the directory of the file, be it the `__init__` of a package or any other module of the directory:
one dot is the directory itself, and where there are too few directories there is no module. -/
theorem follows_directories_iff (f : ModuleFile) :
    (∀ dots rest, 1 ≤ dots → rest.toList.head? ≠ some '.' →
      WorkingSet.absoluteModule? (some f.scope) f.path (relativePath dots rest)
        = upward? f.directories dots rest) ↔ f.Regular := by
  constructor
  · intro h
    -- Both ways of counting reach the same number of packages.
    have hsame : ∀ dots, 1 ≤ dots → (dots ≤ f.package.length + 1 ↔ dots ≤ f.directories.length + 1) := by
      intro dots hdots
      have hnone : "".toList.head? ≠ some '.' := by decide
      have heq := h dots "" hdots hnone
      rw [absoluteModule?_relative hdots hnone] at heq
      rw [← isSome_upward?_iff f.package dots "", heq, isSome_upward?_iff]
    have hle := (hsame (f.package.length + 1) (by omega)).1 (Nat.le_refl _)
    have hge := (hsame (f.directories.length + 1) (by omega)).2 (Nat.le_refl _)
    exact regular_of_length_package (by omega)
  · intro h dots rest hdots hrest
    rw [absoluteModule?_relative hdots hrest, h.package_eq]

/-- A module whose name only ends like that of a package, and a package with the name of the root: one dot
leads from the first into the module itself, and from the second out of the package. -/
theorem one_dot_misleads :
    let module : ModuleFile := { directories := ["pkg"], stem := "my__init__" }
    let package : ModuleFile := { directories := ["__init__"], stem := "__init__" }
    ¬module.Regular ∧ ¬package.Regular ∧ module.path = "pkg/my__init__.py" ∧
      WorkingSet.absoluteModule? (some module.scope) module.path ".util" = some "pkg.my__init__.util" ∧
      upward? module.directories 1 "util" = some "pkg.util" ∧
      WorkingSet.absoluteModule? (some package.scope) package.path ".util" = some "util" ∧
      upward? package.directories 1 "util" = some "__init__.util" := by
  decide +kernel

end ModuleFile

end Python

end CodeAtlas
