import CodeAtlas.Proofs.ImportLinks
import CodeAtlas.Proofs.RelativeImports

/-!
# The files that a qualified name stands for

On the JVM an import names a declaration by its qualified name. It may also name a member of that
declaration, and then the declaration is a name around the given one (`Encloses`). A wildcard names all that
a package or a type holds.

`qualifiedTargets_exact` says which files are meant, for every working set and every import:

* without a wildcard, the files that declare the longest of these names that is declared at all
  (`LongestDeclared`). The names around a name are tried from the longest to the shortest one
  (`dottedAncestors_descending`), so the first one that is found is the longest;
* with a wildcard, the files whose scope is the name, and those that declare it.

The files come in ascending order, without repetition. When relationships are made of them, the file in which
the import stands is left out.

A name may have empty segments, as in `a..b`, and the marks of a wildcard may be repeated at its end
(`IsStem`), so all of this is said of texts and not of lists of identifiers.
-/

namespace CodeAtlas

/-! ### Texts that are stripped and taken apart -/

namespace Text

/-- What is taken off the front of a text are copies of the prefix. -/
theorem eq_replicate_append_stripUpTo (n : Nat) (p s : List Char) :
    ∃ k, s = (List.replicate k p).flatten ++ stripUpTo n p s := by
  induction n generalizing s with
  | zero => exact ⟨0, rfl⟩
  | succ n ih =>
    unfold stripUpTo
    cases hs : stripPrefix? p s with
    | none => exact ⟨0, rfl⟩
    | some r =>
      -- One copy is taken here, and the others off what is left.
      obtain ⟨k, hk⟩ := ih r
      refine ⟨k + 1, ?_⟩
      rw [stripPrefix?_eq_some_iff.1 hs, List.replicate_succ, List.flatten_cons, List.append_assoc, ← hk]

/-- What is stripped off the end of a text are repetitions of the mark. -/
theorem eq_stripAllEnd_append (q s : List Char) :
    ∃ k, s = stripAllEnd q s ++ (List.replicate k q).flatten := by
  obtain ⟨k, hk⟩ := eq_replicate_append_stripUpTo s.reverse.length q.reverse s.reverse
  refine ⟨k, ?_⟩
  have hmarks : (List.replicate k q.reverse).flatten.reverse = (List.replicate k q).flatten := by
    rw [List.reverse_flatten, List.map_replicate, List.reverse_reverse, List.reverse_replicate]
  calc s = s.reverse.reverse := (List.reverse_reverse s).symm
    _ = stripAllEnd q s ++ (List.replicate k q.reverse).flatten.reverse :=
      (congrArg List.reverse hk).trans List.reverse_append
    _ = stripAllEnd q s ++ (List.replicate k q).flatten := by rw [hmarks]

/-- No copy is left at the end. -/
theorem endsWith_stripAllEnd {q : List Char} (hq : q ≠ []) (s : List Char) :
    endsWith q (stripAllEnd q s) = false := by
  have hnone : stripPrefix? q.reverse (stripAll q.reverse s.reverse) = none :=
    stripPrefix?_stripUpTo (fun h => hq (List.reverse_eq_nil_iff.1 h)) (Nat.le_refl _)
  unfold endsWith stripSuffix? stripAllEnd
  rw [List.reverse_reverse, hnone]
  rfl

/-- The parts of a text are cut at each separator. -/
theorem parts_eq_splitOn (sep : Char) (s : String) :
    parts (· == sep) s = (s.toList.splitOn sep).map String.ofList := by
  rw [parts, pieces_eq_splitOnP, List.splitOn_eq_splitOnP]

/-- The parts of a text, joined again, are the text. -/
theorem joined_parts (sep : Char) (s : String) :
    joined (String.ofList [sep]) (parts (· == sep) s) = s := by
  have htexts : (parts (· == sep) s).map String.toList = s.toList.splitOn sep := by
    rw [parts_eq_splitOn, List.map_map]
    calc (s.toList.splitOn sep).map (String.toList ∘ String.ofList) = (s.toList.splitOn sep).map id :=
          List.map_congr_left fun t _ => String.toList_ofList
      _ = s.toList.splitOn sep := List.map_id _
  rw [← String.toList_inj, joined, String.toList_intercalate, String.toList_ofList, htexts,
    List.intercalate_splitOn]

/-- The parts of two texts with a separator between them. -/
theorem parts_append (sep : Char) (a b : String) :
    parts (· == sep) (a ++ String.ofList [sep] ++ b) = parts (· == sep) a ++ parts (· == sep) b := by
  rw [parts_eq_splitOn, parts_eq_splitOn, parts_eq_splitOn, String.toList_append, String.toList_append,
    String.toList_ofList, List.append_assoc, List.singleton_append, List.splitOn_append_cons_self,
    List.map_append]

theorem parts_ne_nil (sep : Char) (s : String) : parts (· == sep) s ≠ [] := by
  rw [parts_eq_splitOn]
  exact fun h => List.splitOn_ne_nil sep s.toList (List.map_eq_nil_iff.1 h)

end Text

namespace WorkingSet

/-! ### Names around a name -/

/-- **What is left of an import when the marks of a wildcard are taken off its end.** -/
structure IsStem (path stem : String) : Prop where
  marks : ∃ n, path = stem ++ String.join (List.replicate n ".*")
  /-- No mark is left. -/
  bare : Text.hasEnd ".*" stem = false

/-- The name around a dotted name: all that stands before its last dot. -/
def IsParent (outer name : String) : Prop :=
  ∃ last, '.' ∉ last.toList ∧ name = outer ++ "." ++ last

/-- **A name encloses another one** if it is that name, or is around it, or around a name around it, and so
on. -/
def Encloses (outer name : String) : Prop :=
  Relation.ReflTransGen (fun inner outer => IsParent outer inner) name outer

theorem toList_importedScope (path : String) :
    (importedScope path).toList = Text.stripAllEnd ".*".toList path.toList :=
  String.toList_ofList

/-- The scope of an import is the import without its marks. -/
theorem isStem_importedScope (path : String) : IsStem path (importedScope path) where
  marks := by
    obtain ⟨n, hn⟩ := Text.eq_stripAllEnd_append ".*".toList path.toList
    refine ⟨n, ?_⟩
    rw [← String.toList_inj, String.toList_append, toList_importedScope, String.toList_join,
      List.flatMap_def, List.map_replicate]
    exact hn
  bare := by
    unfold Text.hasEnd
    rw [toList_importedScope]
    exact Text.endsWith_stripAllEnd (by decide) path.toList

/-- A text with a dot has a last one. -/
theorem exists_isParent {name : String} (h : '.' ∈ name.toList) : ∃ outer, IsParent outer name := by
  obtain ⟨last, outer, hsplit, hlast⟩ := List.eq_append_cons_of_mem (List.mem_reverse.2 h)
  refine ⟨String.ofList outer.reverse, String.ofList last.reverse, ?_, ?_⟩
  · rw [String.toList_ofList, List.mem_reverse]
    exact hlast
  · rw [← String.toList_inj, String.toList_append, String.toList_append, String.toList_ofList,
      String.toList_ofList, ← List.reverse_reverse name.toList, hsplit]
    simp

/-- A name encloses what is written behind it and a dot. -/
theorem encloses_append (outer rest : String) : Encloses outer (outer ++ "." ++ rest) := by
  -- The last dot of the rest is taken off, until the dot behind `outer` is the last one.
  induction hlen : rest.length using Nat.strongRecOn generalizing rest with
  | ind n ih =>
    by_cases hdot : '.' ∈ rest.toList
    · obtain ⟨shorter, last, hlast, rfl⟩ := exists_isParent hdot
      have hlt : shorter.length < n := by
        have hdot : ".".length = 1 := rfl
        rw [← hlen, String.length_append, String.length_append]
        omega
      refine .head ⟨last, hlast, ?_⟩ (ih _ hlt shorter rfl)
      simp only [String.append_assoc]
    · exact .single ⟨rest, hdot, rfl⟩

/-- The names that enclose a name are the name and what stands before its dots. -/
theorem encloses_iff {outer name : String} :
    Encloses outer name ↔ outer = name ∨ ∃ rest, name = outer ++ "." ++ rest := by
  constructor
  · intro h
    -- By induction on the way outwards: each step adds a part at the end.
    induction h with
    | refl => exact .inl rfl
    | tail _ hparent ih =>
      obtain ⟨last, -, rfl⟩ := hparent
      rcases ih with rfl | ⟨rest, rfl⟩
      · exact .inr ⟨last, rfl⟩
      · exact .inr ⟨last ++ "." ++ rest, by simp only [String.append_assoc]⟩
  · rintro (rfl | ⟨rest, rfl⟩)
    · exact .refl
    · exact encloses_append outer rest

/-- A dotted name falls into its first parts and the others. -/
theorem joined_take_append {l : List String} {n : Nat} (hpos : 0 < n) (hlt : n < l.length) :
    Text.joined "." l = Text.joined "." (l.take n) ++ "." ++ Text.joined "." (l.drop n) := by
  have htake : l.take n ≠ [] := by
    rw [← List.length_pos_iff, List.length_take]
    omega
  have hdrop : l.drop n ≠ [] := by
    rw [← List.length_pos_iff, List.length_drop]
    omega
  conv_lhs => rw [← List.take_append_drop n l]
  exact String.intercalate_append_of_ne_nil htake hdrop

/-- **The names that are tried are those that enclose the given one.** -/
theorem mem_dottedAncestors {outer name : String} :
    outer ∈ dottedAncestors name ↔ Encloses outer name := by
  have hname : Text.joined "." (Text.parts (· == '.') name) = name := Text.joined_parts '.' name
  have hpos : 0 < (Text.parts (· == '.') name).length := List.length_pos_iff.2 (Text.parts_ne_nil _ _)
  rw [encloses_iff]
  unfold dottedAncestors
  simp only [List.mem_map, List.mem_range]
  constructor
  · rintro ⟨i, hi, rfl⟩
    -- Nothing is left out for the name itself; otherwise something stands behind the name.
    by_cases hzero : i = 0
    · left
      rw [hzero, Nat.sub_zero, List.take_length]
      exact hname
    · right
      refine ⟨_, hname.symm.trans (joined_take_append ?_ ?_)⟩ <;> omega
  · rintro (rfl | ⟨rest, rfl⟩)
    · refine ⟨0, hpos, ?_⟩
      rw [Nat.sub_zero, List.take_length]
      exact hname
    · -- The parts of the outer name are the first parts of the name.
      have hparts : Text.parts (· == '.') (outer ++ "." ++ rest)
          = Text.parts (· == '.') outer ++ Text.parts (· == '.') rest := Text.parts_append '.' outer rest
      have houter : 0 < (Text.parts (· == '.') outer).length := List.length_pos_iff.2 (Text.parts_ne_nil _ _)
      refine ⟨(Text.parts (· == '.') rest).length, ?_, ?_⟩
      · rw [hparts, List.length_append]
        omega
      · rw [hparts, List.length_append, Nat.add_sub_cancel, List.take_left]
        exact Text.joined_parts '.' outer

/-- **Longer names are tried before shorter ones.** -/
theorem dottedAncestors_descending (name : String) :
    (dottedAncestors name).Pairwise fun a b => b.length < a.length := by
  unfold dottedAncestors
  rw [List.pairwise_map]
  refine List.pairwise_lt_range.imp_of_mem fun {i j} hi hj hij => ?_
  rw [List.mem_range] at hi hj
  generalize hparts : Text.parts (· == '.') name = l at hi hj ⊢
  -- The shorter name is followed by a dot in the longer one.
  have hlen : (l.take (l.length - i)).length = l.length - i := by
    rw [List.length_take]
    omega
  have htake : (l.take (l.length - i)).take (l.length - j) = l.take (l.length - j) := by
    rw [List.take_take, Nat.min_eq_left (by omega)]
  have hsplit := joined_take_append (l := l.take (l.length - i)) (n := l.length - j) (by omega) (by omega)
  have hdot : ".".length = 1 := rfl
  rw [htake] at hsplit
  rw [hsplit, String.length_append, String.length_append]
  omega

/-! ### Files that declare a name -/

/-- **A file declares a qualified name in a namespace** if a declaration of that name, which is neither a
scope nor an import, has its node there. -/
def DeclaredIn (s : WorkingSet) (ns : Namespace) (qualified file : String) : Prop :=
  ∃ d ∈ s.declarations.entries, d.qualifiedName = qualified ∧
    ∃ n, s.node? d.id = some n ∧ n.kind.space = ns ∧ n.kind.category.isScope = false ∧
      n.kind.category ≠ .importLine ∧ n.path = file

/-- **The longest of the names that enclose a name and that some file declares.** -/
def LongestDeclared (s : WorkingSet) (ns : Namespace) (name q : String) : Prop :=
  Encloses q name ∧ (∃ file, s.DeclaredIn ns q file) ∧
    ∀ q', Encloses q' name → (∃ file, s.DeclaredIn ns q' file) → q'.length ≤ q.length

variable {s : WorkingSet} {ns : Namespace}

/-- The files that are listed for a name are those that declare it. -/
theorem mem_declaringFiles {qualified file : String} :
    file ∈ s.declaringFiles ns qualified ↔ s.DeclaredIn ns qualified file := by
  unfold declaringFiles
  dsimp only
  rw [mem_sortedNames]
  simp only [byQualifiedName, declared, List.mem_map, List.mem_filter, List.mem_filterMap,
    Bool.and_eq_true, beq_iff_eq, Bool.not_eq_true', bne_iff_ne]
  -- The list of files is built from declarations by their nodes, so both sides name a declaration and its
  -- node.
  constructor
  · rintro ⟨n, ⟨⟨id, ⟨d, ⟨hd, hname⟩, rfl⟩, hn⟩, ⟨hspace, hscope⟩, himport⟩, rfl⟩
    exact ⟨d, hd, hname, n, hn, hspace, hscope, himport, rfl⟩
  · rintro ⟨d, hd, hname, n, hn, hspace, hscope, himport, rfl⟩
    exact ⟨n, ⟨⟨d.id, ⟨d, ⟨hd, hname⟩, rfl⟩, hn⟩, ⟨hspace, hscope⟩, himport⟩, rfl⟩

/-- There are some exactly if a file declares it. -/
theorem declaringFiles_ne_nil_iff {qualified : String} :
    s.declaringFiles ns qualified ≠ [] ↔ ∃ file, s.DeclaredIn ns qualified file := by
  rw [ne_eq, List.eq_nil_iff_forall_not_mem, not_forall_not]
  simp only [mem_declaringFiles]

theorem ascending_declaringFiles (s : WorkingSet) (ns : Namespace) (qualified : String) :
    (s.declaringFiles ns qualified).Pairwise (· < ·) :=
  ascending_sortedNames _

/-- Either all lists are empty, or the answer is one of them and those before it are empty. -/
theorem firstNonempty_map_cases (g : String → List String) (l : List String) :
    (∀ q ∈ l, g q = []) ∧ firstNonempty (l.map g) = [] ∨
      ∃ a q b, l = a ++ q :: b ∧ (∀ q' ∈ a, g q' = []) ∧ g q ≠ [] ∧ firstNonempty (l.map g) = g q := by
  unfold firstNonempty
  rw [List.find?_map]
  -- The first list that is not empty, if there is one, splits the names into those before it and those
  -- behind.
  cases hfind : l.find? ((fun x => !x.isEmpty) ∘ g) with
  | none =>
    refine .inl ⟨fun q hq => ?_, rfl⟩
    simpa using List.find?_eq_none.1 hfind q hq
  | some q =>
    obtain ⟨hq, a, b, rfl, ha⟩ := List.find?_eq_some_iff_append.1 hfind
    refine .inr ⟨a, q, b, rfl, fun q' hq' => ?_, ?_, rfl⟩
    · simpa using ha q' hq'
    · simpa using hq

/-- **The first of the enclosing names that is declared is the longest one.** -/
theorem mem_firstNonempty_dottedAncestors {name file : String} :
    file ∈ firstNonempty ((dottedAncestors name).map (s.declaringFiles ns)) ↔
      ∃ q, s.LongestDeclared ns name q ∧ s.DeclaredIn ns q file := by
  rcases firstNonempty_map_cases (s.declaringFiles ns) (dottedAncestors name) with
    ⟨hnone, hfirst⟩ | ⟨before, q, after, hsplit, hbefore, hne, hfirst⟩
  · rw [hfirst]
    constructor
    · intro h
      cases h
    · rintro ⟨q, ⟨hq, -, -⟩, hfile⟩
      have hempty := hnone q (mem_dottedAncestors.2 hq)
      rw [← mem_declaringFiles, hempty] at hfile
      exact hfile
  · rw [hfirst, mem_declaringFiles]
    have hdescending := dottedAncestors_descending name
    rw [hsplit, List.pairwise_append, List.pairwise_cons] at hdescending
    obtain ⟨-, ⟨hafter, -⟩, -⟩ := hdescending
    -- A declared name that encloses the given one is not tried before `q`.
    have hlater : ∀ q', Encloses q' name → (∃ file, s.DeclaredIn ns q' file) → q' = q ∨ q' ∈ after := by
      intro q' hq' hdeclared
      have hmem := mem_dottedAncestors.2 hq'
      rw [hsplit, List.mem_append, List.mem_cons] at hmem
      rcases hmem with hmem | hmem
      · exact absurd (hbefore q' hmem) (declaringFiles_ne_nil_iff.2 hdeclared)
      · exact hmem
    have hq : Encloses q name := by
      rw [← mem_dottedAncestors, hsplit]
      exact List.mem_append_right before List.mem_cons_self
    have hlongest : s.LongestDeclared ns name q := by
      refine ⟨hq, declaringFiles_ne_nil_iff.1 hne, fun q' hq' hdeclared => ?_⟩
      rcases hlater q' hq' hdeclared with rfl | hmem
      · exact Nat.le_refl _
      · exact Nat.le_of_lt (hafter q' hmem)
    -- The names are tried from the longest on, so the first that is declared is the longest.
    constructor
    · intro h
      exact ⟨q, hlongest, h⟩
    · rintro ⟨q', ⟨hq', hdeclared, hlong⟩, hfile⟩
      rcases hlater q' hq' hdeclared with rfl | hmem
      · exact hfile
      · have hle := hlong q hq hlongest.2.1
        exact absurd (hafter q' hmem) (Nat.not_lt_of_le hle)

/-! ### The files of an import -/

/-- So are the targets of an import. -/
theorem ascending_qualifiedTargets (s : WorkingSet) (ns : Namespace) (i : ImportTarget) :
    (s.qualifiedTargets ns i).Pairwise (· < ·) := by
  unfold qualifiedTargets
  dsimp only
  split
  · exact ascending_sortedNames _
  · rcases firstNonempty_map_cases (s.declaringFiles ns) (dottedAncestors (importedScope i.path)) with
      ⟨-, hfirst⟩ | ⟨-, q, -, -, -, -, hfirst⟩
    · exact hfirst ▸ .nil
    · exact hfirst ▸ s.ascending_declaringFiles ns q

/-- A wildcard finds all that a scope holds. -/
theorem mem_qualifiedTargets_of_wildcard {i : ImportTarget} (h : i.wildcard = true) {file : String} :
    file ∈ s.qualifiedTargets ns i ↔
      (file ∈ s.filePaths ∧ s.scopes.get? file = some (importedScope i.path)) ∨
        s.DeclaredIn ns (importedScope i.path) file := by
  unfold qualifiedTargets
  dsimp only
  rw [if_pos h, mem_sortedNames, List.mem_append, List.mem_filter, beq_iff_eq, mem_declaringFiles]
  rfl

/-- Without a wildcard, the longest declared name decides. -/
theorem mem_qualifiedTargets_of_single {i : ImportTarget} (h : i.wildcard = false) {file : String} :
    file ∈ s.qualifiedTargets ns i ↔
      ∃ q, s.LongestDeclared ns (importedScope i.path) q ∧ s.DeclaredIn ns q file := by
  unfold qualifiedTargets
  dsimp only
  rw [h, if_neg Bool.false_ne_true]
  exact mem_firstNonempty_dottedAncestors

/-- **An import relates its file to other files only.** Every relationship that was not there before leads
from the file of the import to a target at another path. -/
theorem relationships_resolveImport (languages : List Language) (s : WorkingSet) (file : String)
    (l : Language) (i : ImportTarget) (line : Nat) (statement : String) :
    ∀ rel ∈ (resolveImport languages s file l i line statement).relationships.entries,
      rel ∈ s.relationships.entries ∨
        ∃ target ∈ s.importTargets l file i, target ≠ file ∧
          s.files.get? file = some rel.source ∧ s.files.get? target = some rel.target := by
  rw [resolveImport_eq]
  refine forall_relationships_applyAll (fun rel hrel => .inl hrel) fun rel hrel => .inr ?_
  obtain ⟨source, target, id, hsource, hid, ⟨htarget, hne⟩, heq⟩ := mem_importChanges hrel
  obtain rfl := Change.relationship.inj heq
  exact ⟨target, htarget, hne, hsource, hid⟩

/-- **The files of an import on the JVM**, exactly. A single name stands for the files that declare the
longest name around it that is declared, a wildcard for the files of a scope and those that declare its
name. In both cases each file is listed once, in ascending order; and no import relates a file to itself. -/
theorem qualifiedTargets_exact (s : WorkingSet) (ns : Namespace) (i : ImportTarget) :
    ∃ name, IsStem i.path name ∧
      (s.qualifiedTargets ns i).Pairwise (· < ·) ∧
      (i.wildcard = false → ∀ file, file ∈ s.qualifiedTargets ns i ↔
        ∃ q, s.LongestDeclared ns name q ∧ s.DeclaredIn ns q file) ∧
      (i.wildcard = true → ∀ file, file ∈ s.qualifiedTargets ns i ↔
        (file ∈ s.filePaths ∧ s.scopes.get? file = some name) ∨ s.DeclaredIn ns name file) ∧
      ∀ languages file l line statement,
        ∀ rel ∈ (resolveImport languages s file l i line statement).relationships.entries,
          rel ∈ s.relationships.entries ∨
            ∃ target ∈ s.importTargets l file i, target ≠ file ∧
              s.files.get? file = some rel.source ∧ s.files.get? target = some rel.target :=
  ⟨importedScope i.path, isStem_importedScope i.path, s.ascending_qualifiedTargets ns i,
    fun h _ => mem_qualifiedTargets_of_single h, fun h _ => mem_qualifiedTargets_of_wildcard h,
    fun languages file l => relationships_resolveImport languages s file l i⟩

end WorkingSet

end CodeAtlas
