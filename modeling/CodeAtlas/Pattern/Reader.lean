import CodeAtlas.Pattern.Basic
import CodeAtlas.Text.CaseFold
import CodeAtlas.Text.NamedSet

/-!
# Patterns written as text

The usual notation for patterns: `ab|c`, `a*`, `[a-z&&[^x]]`, `\w+`, `(?i:…)`. Not every text is a
pattern: brackets have to close, an operator needs something to repeat, ranges go upwards, names of
groups differ, and neither look-around nor back-references exist. `Pattern.read?` gives the pattern of a
text, if it is one.

Settings such as `(?i)` hold from where they stand to the end of the group around them, so they are read
along with the text:

* `Settings` — what may be set within a pattern;
* `Reader` — the rest of the text, the settings, and the names that have been used;
* `readClass` — the sets in brackets; `readEscape` — what a backslash introduces;
* `readBranches` — alternatives up to the end of a group; its `fuel` bounds the number of steps, and each
  step takes at least one character.
-/

namespace CodeAtlas.Pattern

/-- **What may be set within a pattern.** -/
structure Settings where
  /-- The flag `i`: the case of letters does not count. -/
  caseless : Bool := false
  /-- The flag `m`: `^` and `$` match at every line. -/
  perLine : Bool := false
  /-- The flag `s`: `.` matches line breaks. -/
  acrossLines : Bool := false
  /-- The flag `x`: blanks and comments do not count. -/
  spaced : Bool := false
  /-- The flag `u`: classes have their Unicode meaning. -/
  wide : Bool := true
  /-- The flag `R`: a line ends with `\r\n`, too. -/
  returns : Bool := false
  deriving Repr

/-- The state of reading. -/
structure Reader where
  rest : List Char
  settings : Settings := {}
  /-- The names of the groups so far. -/
  names : List (List Char) := []

namespace Reader

/-- What is left after the blanks and comments of a spaced pattern. -/
def skipSpaced (comment : Bool) : List Char → List Char
  | [] => []
  | c :: rest =>
    if comment then skipSpaced (c != '\n') rest
    else if c == '#' then skipSpaced true rest
    else if Text.isBlank c then skipSpaced false rest
    else c :: rest

/-- The reader before the next character that counts. -/
def skip (r : Reader) : Reader :=
  if r.settings.spaced then { r with rest := skipSpaced false r.rest } else r

/-- The reader with another rest. -/
def withRest (r : Reader) (rest : List Char) : Reader :=
  { r with rest }

end Reader

/-! ### Escapes -/

/-- **What a backslash introduces.** -/
inductive Escape where
  /-- One character. -/
  | char (c : Char)
  /-- A set of characters. -/
  | set (allowed : Char → Bool)
  /-- A condition on the characters around a place. -/
  | place (allowed : Option Char → Option Char → Bool)

/-- The characters that mean something in patterns. -/
def isOperator (c : Char) : Bool :=
  "\\.+*?()|[]\x7b\x7d^$#&-~".toList.contains c

/-- The characters that stand for themselves behind a backslash. -/
def standsForItself (c : Char) : Bool :=
  isOperator c || (c.toNat < 128 && !Text.isAsciiLetter c && !Text.isAsciiDigit c && c != '<' && c != '>')

/-- The character with a code point, if there is one. -/
def charOfCode? (n : Nat) : Option Char :=
  if n < 0xD800 ∨ (0xDFFF < n ∧ n < 0x110000) then some (Char.ofNat n) else none

/-- The value of hexadecimal digits. -/
def hexValueOf? (ds : List Char) : Option Nat :=
  if ds.isEmpty then none
  else ds.foldlM (fun n c => (Text.hexDigitValue? c).map (n * 16 + ·)) 0

/-- A character given by its code point: in braces, or with a fixed number of digits. -/
def readCode? (digits : Nat) : List Char → Option (Char × List Char)
  | '{' :: rest => do
    let (ds, rest) ← Text.cut? '}' rest
    return (← (← hexValueOf? ds) |> charOfCode?, rest)
  | s =>
    if s.length < digits then none
    else do return (← (← hexValueOf? (s.take digits)) |> charOfCode?, s.drop digits)

/-- A set without the characters of another one. -/
def complement (allowed : Char → Bool) (c : Char) : Bool :=
  !allowed c

/-- **A set as it counts where the case of letters does not**: with every character that is the same
letter as one of its own. -/
def caselessSet (s : Settings) (allowed : Char → Bool) : Char → Bool :=
  if s.caseless then fun c => (Text.letterForms c).any allowed else allowed

/-- A set, complemented if `negated` says so, with respect to case. -/
def finishedSet (s : Settings) (negated : Bool) (allowed : Char → Bool) : Char → Bool :=
  if negated then complement (caselessSet s allowed) else caselessSet s allowed

/-- The set that a name in braces stands for. -/
def namedSetOf? (name : List Char) : Option (Char → Bool) :=
  match Text.cutText? "!=".toList name with
  | some (a, v) => (Text.valuedSet? a v).map complement
  | none =>
    match Text.cut? ':' name with
    | some (a, v) => Text.valuedSet? a v
    | none =>
      match Text.cut? '=' name with
      | some (a, v) => Text.valuedSet? a v
      | none => Text.namedSet? name

/-- A named set: one letter, or a name in braces. -/
def readNamedSet? (s : Settings) (negated : Bool) : List Char → Option (Escape × List Char)
  | '{' :: rest => do
    let (name, rest) ← Text.cut? '}' rest
    return (.set (finishedSet s negated (← namedSetOf? name)), rest)
  | c :: rest => do return (.set (finishedSet s negated (← Text.namedSet? [c])), rest)
  | [] => none

/-- One of the three sets that have a letter of their own, complemented for the capital letter. Without
Unicode meaning the complement would reach into the bytes of a character, so there is none. -/
def shortSet? (s : Settings) (negated : Bool) (wide ascii : Char → Bool) : Option Escape :=
  if s.wide then some (.set (if negated then complement wide else wide))
  else if negated then none
  else some (.set fun c => c.toNat < 128 && ascii c)

/-- Whether there is a word character. -/
def isWordAt (s : Settings) (c : Option Char) : Bool :=
  c.any fun c => Text.isWord c && (s.wide || c.toNat < 128)

/-- The edge of a word that a name in braces stands for. -/
def wordPlace? (s : Settings) (name : List Char) : Option Escape :=
  if name = "start".toList then some (.place fun a b => !isWordAt s a && isWordAt s b)
  else if name = "end".toList then some (.place fun a b => isWordAt s a && !isWordAt s b)
  else if name = "start-half".toList then some (.place fun a _ => !isWordAt s a)
  else if name = "end-half".toList then some (.place fun _ b => !isWordAt s b)
  else none

/-- The edge of a word, of the kind that braces may name. What cannot be a name is a repetition. -/
def readWordEdge? (s : Settings) (rest : List Char) : Option (Escape × List Char) :=
  let edge := Escape.place fun a b => isWordAt s a != isWordAt s b
  match rest with
  | '{' :: t =>
    if t.head?.any fun c => Text.isAsciiLetter c || c == '-' then do
      let (name, after) ← Text.cut? '}' t
      return (← wordPlace? s name, after)
    else some (edge, rest)
  | _ => some (edge, rest)

/-- **What follows a backslash.** -/
def readEscape? (s : Settings) : List Char → Option (Escape × List Char)
  | [] => none
  | c :: rest =>
    match c with
    | 'x' =>
      match readCode? 2 rest with
      | some (c, after) =>
        if s.wide || c.toNat < 128 || rest.head? == some '{' then some (.char c, after) else none
      | none => none
    | 'u' => (readCode? 4 rest).map fun r => (.char r.1, r.2)
    | 'U' => (readCode? 8 rest).map fun r => (.char r.1, r.2)
    | 'p' => readNamedSet? s false rest
    | 'P' => readNamedSet? s true rest
    | 'd' => (shortSet? s false Text.isDecimal Text.isAsciiDigit).map (·, rest)
    | 'D' => (shortSet? s true Text.isDecimal Text.isAsciiDigit).map (·, rest)
    | 's' => (shortSet? s false Text.isBlank Text.isBlank).map (·, rest)
    | 'S' => (shortSet? s true Text.isBlank Text.isBlank).map (·, rest)
    | 'w' => (shortSet? s false Text.isWord Text.isWord).map (·, rest)
    | 'W' => (shortSet? s true Text.isWord Text.isWord).map (·, rest)
    | 'a' => some (.char '\x07', rest)
    | 'f' => some (.char '\x0c', rest)
    | 't' => some (.char '\t', rest)
    | 'n' => some (.char '\n', rest)
    | 'r' => some (.char '\r', rest)
    | 'v' => some (.char '\x0b', rest)
    | 'A' => some (.place fun a _ => a.isNone, rest)
    | 'z' => some (.place fun _ b => b.isNone, rest)
    | 'b' => readWordEdge? s rest
    | 'B' => some (.place fun a b => isWordAt s a == isWordAt s b, rest)
    | '<' => some (.place fun a b => !isWordAt s a && isWordAt s b, rest)
    | '>' => some (.place fun a b => isWordAt s a && !isWordAt s b, rest)
    | c => if standsForItself c then some (.char c, rest) else none

/-! ### Sets in brackets -/

/-- The sets that have a name between colons. -/
def colonSets : List (String × (Char → Bool)) :=
  let between (a b : Nat) (c : Char) : Bool := a ≤ c.toNat && c.toNat ≤ b
  let letterOrDigit (c : Char) : Bool := Text.isAsciiLetter c || Text.isAsciiDigit c
  [("alnum", letterOrDigit), ("alpha", Text.isAsciiLetter), ("ascii", between 0 0x7f),
   ("blank", fun c => c == ' ' || c == '\t'), ("cntrl", fun c => c.toNat < 0x20 || c.toNat == 0x7f),
   ("digit", Text.isAsciiDigit), ("graph", between 0x21 0x7e), ("lower", between 0x61 0x7a),
   ("print", between 0x20 0x7e), ("punct", Text.isAsciiSign),
   ("space", fun c => between 9 13 c || c == ' '), ("upper", between 0x41 0x5a),
   ("word", fun c => letterOrDigit c || c == '_'),
   ("xdigit", fun c => Text.isAsciiDigit c || between 0x41 0x46 c || between 0x61 0x66 c)]

/-- A set between colons at the front of a text, such as `[:alpha:]`. -/
def readColonSet? (s : Settings) : List Char → Option ((Char → Bool) × List Char)
  | '[' :: ':' :: rest =>
    let (negated, rest) := match rest with
      | '^' :: t => (true, t)
      | t => (false, t)
    match Text.cutText? ":]".toList rest with
    | none => none
    | some (name, rest) =>
      (colonSets.lookup (String.ofList name)).map fun allowed => (finishedSet s negated allowed, rest)
  | _ => none

/-- How two sets are combined. -/
inductive SetOperator where
  | intersection
  | difference
  | symmetricDifference
  deriving Repr

/-- The combination of two sets. -/
def SetOperator.apply (op : SetOperator) (a b : Char → Bool) (c : Char) : Bool :=
  match op with
  | .intersection => a c && b c
  | .difference => a c && !b c
  | .symmetricDifference => a c != b c

/-- **An open bracket**: what has been read of it. -/
structure OpenSet where
  negated : Bool
  /-- The left side of the operator that waits for its right side. -/
  left : Option ((Char → Bool) × SetOperator) := none
  /-- What has been read since the operator. -/
  items : List (Char → Bool) := []

namespace OpenSet

/-- The open bracket with one more item. -/
def add (o : OpenSet) (item : Char → Bool) : OpenSet :=
  { o with items := item :: o.items }

/-- The set of what has been read. -/
def body (s : Settings) (o : OpenSet) : Char → Bool :=
  let union (c : Char) : Bool := o.items.any fun p => p c
  match o.left with
  | none => union
  | some (left, op) => op.apply (caselessSet s left) (caselessSet s union)

/-- The open bracket behind an operator. -/
def operate (s : Settings) (o : OpenSet) (op : SetOperator) : OpenSet :=
  { o with left := some (o.body s, op), items := [] }

/-- The set of a bracket that closes. -/
def close (s : Settings) (o : OpenSet) : Char → Bool :=
  finishedSet s o.negated (o.body s)

end OpenSet

/-- The hyphens at the start of a bracket, which stand for themselves. -/
def readHyphens (r : Reader) : (fuel : Nat) → OpenSet → List Char → OpenSet × List Char
  | 0, o, s => (o, s)
  | fuel + 1, o, '-' :: rest => readHyphens r fuel (o.add (· == '-')) ((r.withRest rest).skip.rest)
  | _ + 1, o, s => (o, s)

/-- The start of a bracket from after its `[`: whether it is negated, and the characters that stand for
themselves because they come first. -/
def openBracket (r : Reader) : OpenSet × List Char :=
  let s := r.skip.rest
  let (negated, s) := match s with
    | '^' :: t => (true, (r.withRest t).skip.rest)
    | t => (false, t)
  let (o, s) := readHyphens r s.length { negated } s
  match o.items, s with
  | [], ']' :: t => (o.add (· == ']'), t)
  | _, s => (o, s)

/-- One item of a bracket: a character, or a set behind a backslash. -/
def readSetItem? (s : Settings) : List Char → Option (Escape × List Char)
  | [] => none
  | '\\' :: rest => readEscape? s rest
  | c :: rest => some (.char c, rest)

/-- The set of an item; a condition on places is none. -/
def Escape.allowed? : Escape → Option (Char → Bool)
  | .char c => some (· == c)
  | .set allowed => some allowed
  | .place _ => none

/-- The character of an item; a range needs one at both ends. -/
def Escape.char? : Escape → Option Char
  | .char c => some c
  | _ => none

/-- **One item of a bracket or a range.** A hyphen before the closing bracket, and one of two hyphens,
make no range. -/
def readRange? (r : Reader) (s : List Char) : Option ((Char → Bool) × List Char) := do
  let (first, s) ← readSetItem? r.settings s
  let s := (r.withRest s).skip.rest
  match s with
  | [] => none
  | '-' :: t =>
    let next := (r.withRest t).skip.rest
    if next.head? == some ']' || next.head? == some '-' then
      return (← first.allowed?, s)
    else
      let (last, s) ← readSetItem? r.settings next
      let a ← first.char?
      let b ← last.char?
      if a ≤ b then return (fun c => decide (a ≤ c) && decide (c ≤ b), s) else none
  | _ => return (← first.allowed?, s)

/-- **The set in brackets**, from the open brackets, the innermost first; `fuel` bounds the steps. -/
def readSet? (r : Reader) : (fuel : Nat) → List OpenSet → List Char → Option ((Char → Bool) × List Char)
  | 0, _, _ => none
  | _, [], _ => none
  | fuel + 1, o :: outer, s =>
    match (r.withRest s).skip.rest with
    | [] => none
    | '[' :: rest =>
      match readColonSet? r.settings ('[' :: rest) with
      | some (item, rest) => readSet? r fuel (o.add item :: outer) rest
      | none =>
        let (inner, rest) := openBracket (r.withRest rest)
        readSet? r fuel (inner :: o :: outer) rest
    | ']' :: rest =>
      match outer with
      | [] => some (o.close r.settings, rest)
      | p :: outer => readSet? r fuel (p.add (o.close r.settings) :: outer) rest
    | '&' :: '&' :: rest => readSet? r fuel (o.operate r.settings .intersection :: outer) rest
    | '-' :: '-' :: rest => readSet? r fuel (o.operate r.settings .difference :: outer) rest
    | '~' :: '~' :: rest => readSet? r fuel (o.operate r.settings .symmetricDifference :: outer) rest
    | s =>
      match readRange? r s with
      | none => none
      | some (item, rest) => readSet? r fuel (o.add item :: outer) rest

/-- Whether a set holds one of the 128 characters after those of ASCII. -/
def leavesAscii (allowed : Char → Bool) : Bool :=
  (List.range 128).any fun n => allowed (Char.ofNat (n + 128))

/-- The set in brackets from after its `[`. Without Unicode meaning it has to be one of ASCII characters,
because any other would reach into the bytes of a character. -/
def readBracket? (r : Reader) : Option ((Char → Bool) × List Char) :=
  let (o, s) := openBracket r
  (readSet? r (s.length + 1) [o] s).filter fun b => r.settings.wide || !leavesAscii b.1

/-! ### Repetition -/

/-- How often something is repeated: at least, and at most if there is a bound. -/
structure Count where
  least : Nat
  most : Option Nat
  deriving Repr

/-- A pattern repeated a number of times. -/
def times : Nat → Pattern → Pattern
  | 0, _ => .nothing
  | 1, p => p
  | n + 2, p => .seq p (times (n + 1) p)

/-- A pattern repeated up to a number of times. -/
def upTo : Nat → Pattern → Pattern
  | 0, _ => .nothing
  | n + 1, p => maybe (.seq p (upTo n p))

/-- **A pattern repeated as often as a count says.** -/
def repeatedBy (p : Pattern) (c : Count) : Pattern :=
  match c.most with
  | none => .seq (times c.least p) (.star true p)
  | some most => .seq (times c.least p) (upTo (most - c.least) p)

/-- A number with blanks around it. -/
def readNumber? (s : List Char) : Option (Nat × List Char) :=
  let s := s.dropWhile Text.isBlank
  let digits := s.takeWhile Text.isAsciiDigit
  let n := digits.foldl (fun n c => n * 10 + (c.toNat - 48)) 0
  if digits.isEmpty ∨ UInt32.size ≤ n then none
  else some (n, (s.dropWhile Text.isAsciiDigit).dropWhile Text.isBlank)

/-- A count from after its opening brace. -/
def readCount? (r : Reader) : Option (Count × List Char) := do
  let (least, s) ← readNumber? r.skip.rest
  match s with
  | '}' :: rest => return (⟨least, some least⟩, rest)
  | ',' :: rest =>
    match (r.withRest rest).skip.rest with
    | '}' :: rest => return (⟨least, none⟩, rest)
    | s =>
      let (most, s) ← readNumber? s
      match s with
      | '}' :: rest => if least ≤ most then return (⟨least, some most⟩, rest) else none
      | _ => none
  | _ => none

/-- What is left after the mark of a repetition that takes little, if it is there. Which repetition is
preferred does not matter to whether a pattern occurs. -/
def dropLazy (r : Reader) (s : List Char) : List Char :=
  match (r.withRest s).skip.rest with
  | '?' :: rest => rest
  | s => s

/-! ### Groups and settings -/

/-- The name of a group, from after its `<`: a letter or `_`, then also digits, dots and square
brackets. -/
def readGroupName? (r : Reader) (s : List Char) : Option Reader := do
  let (name, rest) ← Text.cut? '>' s
  let isFirst (c : Char) : Bool := c == '_' || Text.isAlphabetic c
  let isLater (c : Char) : Bool := "_.[]".toList.contains c || Text.isAlphanumeric c
  match name with
  | [] => none
  | c :: cs =>
    if isFirst c && cs.all isLater && !r.names.contains name then
      return { r with rest, names := name :: r.names }
    else none

/-- The settings with one of them changed. -/
def Settings.change (s : Settings) (on : Bool) : Char → Option Settings
  | 'i' => some { s with caseless := on }
  | 'm' => some { s with perLine := on }
  | 's' => some { s with acrossLines := on }
  | 'x' => some { s with spaced := on }
  | 'u' => some { s with wide := on }
  | 'R' => some { s with returns := on }
  | 'U' => some s
  | _ => none

/-- The settings that letters spell, up to a colon or a bracket: the settings, the letters, and the text
from there on. A minus turns the letters after it off; a letter counts once. -/
def readSettings? (s : Settings) (off : Bool) (seen : List Char) :
    List Char → Option (Settings × List Char × List Char)
  | [] => none
  | ':' :: rest => if seen.head? == some '-' then none else some (s, seen, ':' :: rest)
  | ')' :: rest => if seen.head? == some '-' then none else some (s, seen, ')' :: rest)
  | '-' :: rest => if off then none else readSettings? s true ('-' :: seen) rest
  | c :: rest =>
    if seen.contains c then none
    else
      match s.change (!off) c with
      | some s => readSettings? s off (c :: seen) rest
      | none => none

/-! ### Patterns -/

/-- The start of a line or of the text. -/
def lineStart (s : Settings) : Pattern :=
  .between fun a b =>
    a.isNone || (s.perLine && (a == some '\n' || (s.returns && a == some '\r' && b != some '\n')))

/-- The end of a line or of the text. -/
def lineEnd (s : Settings) : Pattern :=
  .between fun a b =>
    b.isNone || (s.perLine &&
      (if s.returns then b == some '\r' || (b == some '\n' && a != some '\r') else b == some '\n'))

/-- Any character; line breaks only where they are asked for. -/
def anyChar (s : Settings) : Pattern :=
  .one fun c => s.acrossLines || (c != '\n' && !(s.returns && c == '\r'))

/-- A character that stands for itself. -/
def plainChar (s : Settings) (c : Char) : Pattern :=
  if s.caseless then .one (Text.sameLetter c) else char c

/-- The pattern of what a backslash introduces. -/
def Escape.pattern (s : Settings) : Escape → Pattern
  | .char c => plainChar s c
  | .set allowed => .one allowed
  | .place allowed => .between allowed

/-- **A sequence that is being read**, the last part first. A change of settings is a part that cannot be
repeated. -/
abbrev Sequence := List (Option Pattern)

/-- The pattern of a sequence. -/
def ofSequence (l : Sequence) : Pattern :=
  all (l.reverse.filterMap id)

/-- A sequence whose last part is repeated. -/
def repeatLast? (c : Count) : Sequence → Option Sequence
  | some p :: rest => some (some (p.repeatedBy c) :: rest)
  | _ => none

/-- **Alternatives up to the end of a group or of the text.** The reader stands at what ends them. -/
def readBranches : (fuel : Nat) → Reader → (branches : List Pattern) → Sequence → Option (Pattern × Reader)
  | 0, _, _, _ => none
  | fuel + 1, r, branches, l =>
    let r := r.skip
    let onward (rest : List Char) (p : Pattern) := readBranches fuel (r.withRest rest) branches (some p :: l)
    let again (c : Count) (rest : List Char) :=
      match repeatLast? c l with
      | some l => readBranches fuel (r.withRest (dropLazy r rest)) branches l
      | none => none
    match r.rest with
    | [] => some (any (branches ++ [ofSequence l]), r)
    | ')' :: _ => some (any (branches ++ [ofSequence l]), r)
    | '|' :: rest => readBranches fuel (r.withRest rest) (branches ++ [ofSequence l]) []
    | '*' :: rest => again ⟨0, none⟩ rest
    | '+' :: rest => again ⟨1, none⟩ rest
    | '?' :: rest => again ⟨0, some 1⟩ rest
    | '{' :: rest =>
      match readCount? (r.withRest rest) with
      | some (c, rest) => again c rest
      | none => none
    | '.' :: rest => if r.settings.wide then onward rest (anyChar r.settings) else none
    | '^' :: rest => onward rest (lineStart r.settings)
    | '$' :: rest => onward rest (lineEnd r.settings)
    | '[' :: rest =>
      match readBracket? (r.withRest rest) with
      | some (allowed, rest) => onward rest (.one allowed)
      | none => none
    | '\\' :: rest =>
      match readEscape? r.settings rest with
      | some (e, rest) => onward rest (e.pattern r.settings)
      | none => none
    | '(' :: rest =>
      let group (inner : Reader) :=
        match readBranches fuel inner [] [] with
        | some (p, done) =>
          match done.rest with
          | ')' :: rest =>
            readBranches fuel { r with rest, names := done.names } branches (some p :: l)
          | _ => none
        | none => none
      match (r.withRest rest).skip.rest with
      | '?' :: 'P' :: '<' :: rest =>
        match readGroupName? r rest with
        | some inner => group inner
        | none => none
      | '?' :: '=' :: _ => none
      | '?' :: '!' :: _ => none
      | '?' :: '<' :: '=' :: _ => none
      | '?' :: '<' :: '!' :: _ => none
      | '?' :: '<' :: rest =>
        match readGroupName? r rest with
        | some inner => group inner
        | none => none
      | '?' :: rest =>
        match readSettings? r.settings false [] rest with
        | some (settings, _, ':' :: rest) => group { r with settings, rest }
        | some (settings, letters, ')' :: rest) =>
          if letters.isEmpty then none
          else readBranches fuel { r with settings, rest } branches (none :: l)
        | _ => none
      | rest => group (r.withRest rest)
    | c :: rest => onward rest (plainChar r.settings c)

/-- **The pattern that a text writes**, if it writes one. -/
def read? (s : List Char) : Option Pattern :=
  match readBranches (s.length + 1) { rest := s } [] [] with
  | some (p, r) => if r.rest.isEmpty then some p else none
  | none => none

end CodeAtlas.Pattern
