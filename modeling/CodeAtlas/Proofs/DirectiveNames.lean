import CodeAtlas.Proofs.DirectivePaths
import CodeAtlas.Proofs.Containment

/-!
# How the nodes of directives are named

An entry of the imports has a path, and it may have a member: the name that is taken out of the path, as
Python's `from x import y` does. The node of an entry with a member is named by path and member, joined by a
dot; the node of an entry without one is named by its path (`ImportDecl.qualifiedName`).

In Dart no directive names a member, yet every entry has one: the word that the directive begins with. So a
node is named by its path only where the naming does not look at the member, and it looks away from paths
with a colon, such as `package:a/b.dart`. The node of `import 'src/b.dart';` is `src/b.dart.import`.

* The word is what the first group of the pattern of directives has taken, and it is one of three
  (`Dart.word_mem_of_match?`): the group is all alternatives of fixed texts, and nothing behind it touches it.
* Where the word is appended, the name differs from the path (`ImportDecl.joined_ne_path`).
* `Dart.names_of_directives` says for every source which name each node gets, and that it is the path exactly
  if the path holds a colon.
-/

namespace CodeAtlas

/-! ### Fixed texts -/

namespace Pattern

open Cursor (Passes)

/-- A given text passes that text. -/
theorem passes_of_mem_ends_chars {s : List Char} {c d : Cursor}
    (h : d ∈ (all (s.map char)).ends c) : c.Passes s d := by
  -- By induction on the text, whose characters are matched one after the other.
  induction s generalizing c with
  | nil =>
    rw [List.mem_singleton.mp h]
    exact .refl c
  | cons x s ih =>
    have hchar : ∀ {m : Cursor}, m ∈ (char x).ends c → c.Passes [x] m := by
      intro m hm
      obtain ⟨y, hy, hpass, -⟩ := mem_ends_one hm
      rwa [beq_iff_eq.mp hy] at hpass
    cases s with
    | nil => exact hchar h
    | cons y s =>
      obtain ⟨m, hm, hd⟩ := mem_ends_seq h
      exact (hchar hm).trans (ih hd)

/-- A match of some alternatives is a match of one of them. -/
theorem exists_of_mem_ends_any {l : List Pattern} {c d : Cursor} (h : d ∈ (any l).ends c) :
    ∃ p ∈ l, d ∈ p.ends c := by
  -- By induction on the alternatives; a match of several is one of the first or of the rest.
  induction l with
  | nil =>
    obtain ⟨x, hx, -⟩ := mem_ends_one h
    cases hx
  | cons p l ih =>
    cases l with
    | nil => exact ⟨p, List.mem_cons_self, h⟩
    | cons q l =>
      rcases List.mem_append.mp (Cursor.mem_of_mem_distinct h) with hp | hrest
      · exact ⟨p, List.mem_cons_self, hp⟩
      · obtain ⟨r, hr, hd⟩ := ih hrest
        exact ⟨r, List.mem_cons_of_mem p hr, hd⟩

/-- **A group of fixed texts has taken one of them.** -/
theorem group_of_mem_ends_anyText {l : List String} {n : Nat} {c d : Cursor}
    (h : d ∈ (group n (anyText l)).ends c) : ∃ s ∈ l, d.group? n = some s.toList := by
  obtain ⟨e, he, rfl⟩ := List.mem_map.mp h
  obtain ⟨p, hp, he⟩ := exists_of_mem_ends_any he
  obtain ⟨s, hs, rfl⟩ := List.mem_map.mp hp
  have hpass := passes_of_mem_ends_chars he
  have htaken : c.rest.take (e.position - c.position) = s.toList := by
    rw [hpass.position_eq, Nat.add_sub_cancel_left, hpass.rest_eq, List.take_left]
  refine ⟨s, hs, ?_⟩
  change List.lookup n ((n, c.rest.take (e.position - c.position)) :: e.groups) = some s.toList
  rw [List.lookup_cons_self, htaken]

end Pattern

/-! ### The words of directives -/

namespace Dart

open Pattern

/-- **The words that a directive with a path begins with.** -/
def directiveWords : List String :=
  ["import", "export", "part"]

/-- A match of the pattern has taken one of the words. -/
theorem word_mem_of_match? {code : List Char} {c : Cursor} (h : directivePattern.match? code = some c) :
    String.ofList (c.group 1) ∈ directiveWords := by
  have hends : c ∈ directivePattern.ends { rest := code } := List.mem_of_mem_head? (Option.mem_def.mpr h)
  obtain ⟨m, hword, htail⟩ := mem_ends_seq hends
  obtain ⟨s, hs, hgroup⟩ := group_of_mem_ends_anyText hword
  -- The rest of the pattern has white space and the second group.
  have hsame : c.group? 1 = m.group? 1 := group?_of_mem_ends (by decide) htail
  have hcapture : c.group 1 = s.toList := by
    unfold Cursor.group
    rw [hsame, hgroup, Option.getD_some]
  rw [hcapture, String.ofList_toList]
  exact hs

/-- So a directive begins with one of them. -/
theorem word_mem_of_directiveAt? {line : SourceLine} {o : Outline} {d : Directive}
    (h : directiveAt? line o = some d) : d.word ∈ directiveWords := by
  unfold directiveAt? at h
  -- All branches but the last one give no directive.
  simp only [Option.ite_none_left_eq_some] at h
  obtain ⟨-, -, -, -, h⟩ := h
  unfold directiveOf? at h
  split at h
  next c hmatch =>
    split at h
    · cases h
    · cases h
      exact word_mem_of_match? hmatch
  next => cases h

/-- And so do all directives of a file. -/
theorem word_mem_of_directivesFrom {skip : Nat} {lines : List SourceLine} {o : Outline} :
    ∀ d ∈ directivesFrom skip lines o, d.word ∈ directiveWords := by
  induction lines generalizing skip o with
  | nil =>
    intro d hd
    cases skip <;> cases hd
  | cons line rest ih =>
    -- Lines inside a declaration that has been read are passed over.
    cases skip with
    | succ skip => exact ih
    | zero =>
      intro d hd
      rw [directivesFrom, List.mem_append, Option.mem_toList] at hd
      rcases hd with hhere | hlater
      · exact word_mem_of_directiveAt? hhere
      · exact ih d hlater

/-- **Every entry of the imports has the word of its directive for a member.** -/
theorem member_of_mem_imports {source : List Char} {d : ImportDecl}
    (hd : d ∈ (record source).facts.imports) : ∃ word ∈ directiveWords, d.member = some word := by
  rw [imports_record] at hd
  obtain ⟨directive, hdirective, hdeclared⟩ := List.mem_filterMap.mp hd
  obtain ⟨path, -, rfl⟩ := Option.map_eq_some_iff.mp hdeclared
  exact ⟨directive.word, word_mem_of_directivesFrom directive hdirective, rfl⟩

end Dart

/-! ### The names of nodes -/

namespace ImportDecl

/-- The path of an entry without dots at its end, a dot, and a word. -/
def joined (d : ImportDecl) (word : String) : String :=
  String.ofList (Text.dropEndWhile (· == '.') d.path.toList) ++ "." ++ word

/-- **A word that is no run of dots takes the name away from the path.** -/
theorem joined_ne_path (d : ImportDecl) {word : String} {x : Char} (hx : x ∈ word.toList) (hdot : x ≠ '.') :
    d.joined word ≠ d.path := by
  intro h
  -- The path is what is left of it without the dots at its end, and these dots.
  let stem := Text.dropEndWhile (· == '.') d.path.toList
  let dots := (d.path.toList.reverse.takeWhile (· == '.')).reverse
  have hpath : stem ++ dots = d.path.toList := by
    change (d.path.toList.reverse.dropWhile _).reverse ++ (d.path.toList.reverse.takeWhile _).reverse = _
    rw [← List.reverse_append, List.takeWhile_append_dropWhile, List.reverse_reverse]
  have hjoined : stem ++ '.' :: word.toList = d.path.toList := by
    calc stem ++ '.' :: word.toList = (d.joined word).toList := by
          simp only [joined, String.toList_append, String.toList_ofList, List.append_assoc]
          rfl
      _ = d.path.toList := by rw [h]
  -- What follows the common beginning is the word on one side and dots on the other.
  have htail : '.' :: word.toList = dots := List.append_cancel_left (hjoined.trans hpath.symm)
  have hmem : x ∈ dots := htail ▸ List.mem_cons_of_mem _ hx
  have hall : (x == '.') = true :=
    List.mem_takeWhile_imp (p := (· == '.')) (List.mem_reverse.mp hmem)
  exact hdot (beq_iff_eq.mp hall)

/-- A path with a colon is the name of its node. -/
theorem qualifiedName_of_colon (d : ImportDecl) (h : ':' ∈ d.path.toList) : d.qualifiedName = d.path := by
  unfold qualifiedName
  split
  · exact if_neg fun hname => by simp [h] at hname
  · rfl

/-- To any other path the member is appended. -/
theorem qualifiedName_of_member (d : ImportDecl) {word : String} (hmember : d.member = some word)
    (hword : word ≠ "*") (h : ':' ∉ d.path.toList) : d.qualifiedName = d.joined word := by
  have hcontains : (!d.path.toList.contains ':') = true := by simpa using h
  unfold qualifiedName
  rw [hmember]
  exact if_pos ⟨hword, hcontains⟩

/-- **Both names of the node of an entry** are what the entry names. -/
theorem names_node (d : ImportDecl) (kind : NodeKind) (path : String) :
    (d.node kind path).name = d.qualifiedName ∧
      (d.node kind path).properties.get? "qualified_name" = some (.text d.qualifiedName) := by
  unfold node
  cases d.localName <;> constructor <;>
    simp [Node.set, Node.declared, Node.withId, Keyed.get?_insert]

end ImportDecl

namespace Dart

/-- **How the nodes of directives are named.** Every entry of the imports of a source brings a node into the
working set, whose two names are the same text. It is the path of the entry where that holds a colon, as
paths of packages do. Where it does not, the text is the path without dots at its end, a dot, and the word
that the directive begins with; and that is never the path. -/
theorem names_of_directives (source : List Char) (s : WorkingSet) (f : FileSite) :
    (emitRecord s f (record source)).nodes = s.nodes.foldNodes (f.recordNodes (record source)) ∧
    ∀ d ∈ (record source).facts.imports, ∃ n ∈ f.recordNodes (record source),
      n = (f.inside (record source)).importNode d ∧
      n.properties.get? "qualified_name" = some (.text n.name) ∧
      (':' ∈ d.path.toList → n.name = d.path) ∧
      (':' ∉ d.path.toList → n.name ≠ d.path ∧
        ∃ word ∈ directiveWords, d.member = some word ∧ n.name = d.joined word) := by
  refine ⟨nodes_emitRecord s f (record source), fun d hd => ?_⟩
  let n := (f.inside (record source)).importNode d
  have hmem : n ∈ f.recordNodes (record source) := by
    -- Of the parts of the nodes of a record, the nodes of imports are the fourth.
    have himport : n ∈ (record source).facts.imports.map (f.inside (record source)).importNode :=
      List.mem_map_of_mem hd
    simp only [FileSite.recordNodes, List.mem_append]
    exact .inl (.inl (.inl (.inr himport)))
  obtain ⟨hname, hqualified⟩ : n.name = d.qualifiedName ∧
      n.properties.get? "qualified_name" = some (.text d.qualifiedName) := d.names_node _ _
  obtain ⟨word, hword, hmember⟩ := member_of_mem_imports hd
  refine ⟨n, hmem, rfl, by rw [hqualified, hname], fun hcolon => ?_, fun hcolon => ?_⟩
  · rw [hname]
    exact d.qualifiedName_of_colon hcolon
  · -- The words have letters, so none is a wildcard or a run of dots.
    have hletters : ∀ w ∈ directiveWords, w ≠ "*" ∧ w.toList.any (· != '.') = true := by decide
    obtain ⟨hstar, hany⟩ := hletters word hword
    obtain ⟨x, hx, hdot⟩ := List.any_eq_true.mp hany
    have hjoined : n.name = d.joined word := hname.trans (d.qualifiedName_of_member hmember hstar hcolon)
    exact ⟨hjoined ▸ d.joined_ne_path hx (bne_iff_ne.mp hdot), word, hword, hmember, hjoined⟩

/-- **The node of an import by a relative path is not named by that path.** -/
theorem name_of_relativeImport :
    let site : FileSite :=
      { language := .dart, path := "a.dart", fileId := nodeId ⟨.generic, .file⟩ "a.dart" "a.dart" }
    let r := record "import 'src/b.dart';\n".toList
    r.facts.imports.map (·.path) = ["src/b.dart"] ∧
    (r.facts.imports.map fun d => ((site.inside r).importNode d).name) = ["src/b.dart.import"] := by
  decide +kernel

end Dart

end CodeAtlas
