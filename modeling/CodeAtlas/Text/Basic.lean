import CodeAtlas.Text.Letter

/-!
# Cutting text

Source text is read as a list of characters. This module holds the cuts that every reader shares:
trimming, splitting into words and lines, taking what stands before or after a mark. All of them are
plain recursions on the list, and each returns a piece of its argument, so nothing here can invent a
character.

The versions on `String` at the end serve the parts of the library whose data are names and paths.
-/

namespace CodeAtlas.Text

/-! ### Trimming -/

/-- The text without leading white space. -/
def trimStart (s : List Char) : List Char :=
  s.dropWhile isBlank

/-- The text without trailing characters that satisfy `p`. -/
def dropEndWhile (p : Char → Bool) (s : List Char) : List Char :=
  (s.reverse.dropWhile p).reverse

/-- The text without trailing white space. -/
def trimEnd (s : List Char) : List Char :=
  dropEndWhile isBlank s

/-- The text without white space at either end. -/
def trim (s : List Char) : List Char :=
  trimEnd (trimStart s)

/-- Whether the text is empty or holds white space only. -/
def isBlankText (s : List Char) : Bool :=
  s.all isBlank

@[simp]
theorem trimStart_nil : trimStart [] = [] := rfl

@[simp]
theorem trim_nil : trim [] = [] := rfl

/-! ### Prefixes and suffixes -/

/-- What follows `p` at the front of the text, if the text starts with `p`. -/
def stripPrefix? : (p s : List Char) → Option (List Char)
  | [], s => some s
  | _ :: _, [] => none
  | a :: p, b :: s => if a = b then stripPrefix? p s else none

@[simp]
theorem stripPrefix?_nil (s : List Char) : stripPrefix? [] s = some s := by
  cases s <;> rfl

/-- Stripping succeeds exactly on the texts that start with the prefix. -/
theorem stripPrefix?_eq_some_iff {p s r : List Char} :
    stripPrefix? p s = some r ↔ s = p ++ r := by
  induction p generalizing s with
  | nil => cases s <;> simp [stripPrefix?]
  | cons a p ih =>
    cases s with
    | nil => simp [stripPrefix?]
    | cons b s =>
      -- The first characters have to be the same.
      by_cases h : a = b
      · simp [stripPrefix?, h, ih]
      · simp only [stripPrefix?, h, if_false, List.cons_append, List.cons.injEq]
        constructor
        · intro h'; cases h'
        · rintro ⟨rfl, _⟩; exact absurd rfl h

/-- Whether the text starts with `p`. -/
def startsWith (p s : List Char) : Bool :=
  (stripPrefix? p s).isSome

/-- What precedes `q` at the end of the text, if the text ends with `q`. -/
def stripSuffix? (q s : List Char) : Option (List Char) :=
  (stripPrefix? q.reverse s.reverse).map List.reverse

/-- Whether the text ends with `q`. -/
def endsWith (q s : List Char) : Bool :=
  (stripSuffix? q s).isSome

/-- The text without up to `n` repetitions of `p` at its front. -/
def stripUpTo : (n : Nat) → (p s : List Char) → List Char
  | 0, _, s => s
  | n + 1, p, s =>
    match stripPrefix? p s with
    | some r => stripUpTo n p r
    | none => s

/-- The text without any repetition of `p` at its front. A text of length `n` starts with at most `n`
repetitions of a text that is not empty, and an empty `p` strips nothing. -/
def stripAll (p s : List Char) : List Char :=
  stripUpTo s.length p s

/-- The text without any repetition of `q` at its end. -/
def stripAllEnd (q s : List Char) : List Char :=
  (stripAll q.reverse s.reverse).reverse

/-! ### Before and after a mark -/

/-- What stands before the first character that satisfies `p`; all of the text if there is none. -/
def before (p : Char → Bool) (s : List Char) : List Char :=
  s.takeWhile (fun c => !p c)

/-- The two sides of the first `c`, if the text holds one. -/
def cut? (c : Char) : List Char → Option (List Char × List Char)
  | [] => none
  | d :: s => if d = c then some ([], s) else (cut? c s).map fun r => (d :: r.1, r.2)

/-- What stands after the last `c`; all of the text if there is none. -/
def afterLast (c : Char) (s : List Char) : List Char :=
  (s.reverse.takeWhile (· != c)).reverse

/-- The two sides of the last `c`, if the text holds one. -/
def cutLast? (c : Char) (s : List Char) : Option (List Char × List Char) :=
  (cut? c s.reverse).map fun r => (r.2.reverse, r.1.reverse)

/-- The two sides of the first occurrence of `p`, if the text holds one. -/
def cutText? (p : List Char) : List Char → Option (List Char × List Char)
  | [] => if p = [] then some ([], []) else none
  | c :: s =>
    match stripPrefix? p (c :: s) with
    | some r => some ([], r)
    | none => (cutText? p s).map fun r => (c :: r.1, r.2)

/-- What stands before the first occurrence of `p`; all of the text if there is none. -/
def beforeText (p s : List Char) : List Char :=
  ((cutText? p s).map (·.1)).getD s

/-- Whether `p` occurs in the text. -/
def hasText (p s : List Char) : Bool :=
  (cutText? p s).isSome

/-- The number of occurrences of the two characters `a b` that do not overlap, from the left. -/
def countPair (a b : Char) : List Char → Nat
  | [] => 0
  | [_] => 0
  | c :: d :: s => if c = a ∧ d = b then countPair a b s + 1 else countPair a b (d :: s)

/-! ### Words and lines -/

/-- The maximal runs of characters that are not white space; `run` is the run being read, reversed. -/
def wordsFrom (run : List Char) : List Char → List (List Char)
  | [] => if run = [] then [] else [run.reverse]
  | c :: s =>
    if isBlank c then
      if run = [] then wordsFrom [] s else run.reverse :: wordsFrom [] s
    else wordsFrom (c :: run) s

/-- The words of the text: its maximal runs of characters that are not white space. -/
def words (s : List Char) : List (List Char) :=
  wordsFrom [] s

/-- The pieces between the characters that satisfy `p`; `run` is the piece being read, reversed. -/
def piecesFrom (p : Char → Bool) (run : List Char) : List Char → List (List Char)
  | [] => [run.reverse]
  | c :: s => if p c then run.reverse :: piecesFrom p [] s else piecesFrom p (c :: run) s

/-- The pieces of the text between the characters that satisfy `p`, empty ones included. -/
def pieces (p : Char → Bool) (s : List Char) : List (List Char) :=
  piecesFrom p [] s

/-- The pieces joined with `sep` between them. -/
def joinWith (sep : List Char) : List (List Char) → List Char
  | [] => []
  | [s] => s
  | s :: t :: r => s ++ sep ++ joinWith sep (t :: r)

/-- The words of the text with one space between them. -/
def squash (s : List Char) : List Char :=
  joinWith [' '] (words s)

/-- A line of text without the carriage return that its line feed may have brought along. -/
def dropReturn (line : List Char) : List Char :=
  match line.reverse with
  | '\r' :: r => r.reverse
  | _ => line

/-- The lines of the text, without their ends; `run` is the line being read, reversed. -/
def linesFrom (run : List Char) : List Char → List (List Char)
  | [] => if run = [] then [] else [run.reverse]
  | '\n' :: s => dropReturn run.reverse :: linesFrom [] s
  | c :: s => linesFrom (c :: run) s

/-- **The lines of a text.** A line ends at a line feed, and one carriage return before the line feed
belongs to the end of the line; a text that ends in a line feed has no empty line after it. -/
def lines (s : List Char) : List (List Char) :=
  linesFrom [] s

/-! ### The same on strings -/

/-- A string without white space at either end. -/
def trimmed (s : String) : String :=
  String.ofList (trim s.toList)

/-- Whether a string is empty or holds white space only. -/
def isBlankString (s : String) : Bool :=
  isBlankText s.toList

/-- A string with `p` repeatedly removed from its front. -/
def strippedAll (p s : String) : String :=
  String.ofList (stripAll p.toList s.toList)

/-- A string in which one character is exchanged for another. -/
def exchange (a b : Char) (s : String) : String :=
  String.ofList (s.toList.map fun c => if c = a then b else c)

/-- Whether two strings agree up to the case of ASCII letters. -/
def sameName (a b : String) : Bool :=
  let small := fun c : Char => if 'A' ≤ c ∧ c ≤ 'Z' then Char.ofNat (c.toNat + 32) else c
  a.toList.map small == b.toList.map small

/-- Whether a string starts with another. -/
def hasStart (p s : String) : Bool :=
  startsWith p.toList s.toList

/-- Whether a string ends with another. -/
def hasEnd (q s : String) : Bool :=
  endsWith q.toList s.toList

/-- The pieces of a string between the characters that satisfy `p`. -/
def parts (p : Char → Bool) (s : String) : List String :=
  (pieces p s.toList).map String.ofList

/-- Strings joined with `sep` between them. -/
def joined (sep : String) (l : List String) : String :=
  String.intercalate sep l

end CodeAtlas.Text
