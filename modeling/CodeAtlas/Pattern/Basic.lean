import CodeAtlas.Text.Basic

/-!
# Patterns of text

A pattern describes a set of texts and, for a text that it matches in more than one way, which way
counts. Alternatives are tried from left to right and a repetition takes as much as it can, or as little
as it can, so the ways in which a pattern matches are *ordered*. `Pattern.ends` lists the places at which
a match may end, the preferred one first.

Two ways that end at the same place differ only in what their groups hold, and nothing that follows can
tell them apart, so the list keeps only the first of them. That bounds the work: a list of ends never
holds more places than the text has.

* `Cursor` — a place in a text, with what the groups on the way to it have taken;
* `Pattern` — the patterns;
* `Pattern.ends` — the ordered ends of the matches that start at a place;
* `Pattern.match?` — the preferred match at the start of a text;
* `Pattern.search?`, `Pattern.occurs` — the first match in a text, and whether there is one.
-/

namespace CodeAtlas

/-- **A place in a text.** -/
structure Cursor where
  /-- The number of characters before the place. -/
  position : Nat := 0
  /-- The character before the place. -/
  previous : Option Char := none
  /-- The text from the place on. -/
  rest : List Char
  /-- What the groups have taken, the latest first. -/
  groups : List (Nat × List Char) := []
  deriving DecidableEq, Repr

namespace Cursor

/-- What a group has taken last. -/
def group? (c : Cursor) (n : Nat) : Option (List Char) :=
  c.groups.lookup n

/-- What a group has taken, and nothing if it took no part in the match. -/
def group (c : Cursor) (n : Nat) : List Char :=
  (c.group? n).getD []

/-- The places of a list without those that an earlier one shares. -/
def distinct : List Cursor → List Nat → List Cursor
  | [], _ => []
  | c :: l, seen =>
    if seen.contains c.position then distinct l seen else c :: distinct l (c.position :: seen)

end Cursor

/-- **The patterns.** -/
inductive Pattern where
  /-- Matches the empty text. -/
  | nothing
  /-- Matches one character of a class. -/
  | one (allowed : Char → Bool)
  /-- Matches the empty text where the characters before and after allow it. -/
  | between (allowed : Option Char → Option Char → Bool)
  /-- One pattern after the other. -/
  | seq (first second : Pattern)
  /-- Either pattern, and the first one if both match. -/
  | alt (first second : Pattern)
  /-- Any number of repetitions, as many as possible or as few as possible. -/
  | star (greedy : Bool) (body : Pattern)
  /-- A pattern whose text is remembered under a number. -/
  | group (number : Nat) (body : Pattern)

namespace Pattern

/-! ### Matching -/

/-- **Repetition.** From a place, the places that any number of steps leads to, in the order in which the
repetition prefers them. A step that does not advance is no step, so `fuel` need not exceed the length of
the text; a place that has been reached before is not explored again. The first result lists the places
reached. -/
def repeated (step : Cursor → List Cursor) (greedy : Bool) :
    (fuel : Nat) → Cursor → List Nat → List Nat × List Cursor
  | 0, c, seen => if seen.contains c.position then (seen, []) else (c.position :: seen, [c])
  | fuel + 1, c, seen =>
    if seen.contains c.position then (seen, [])
    else
      let onward := (step c).filter fun d => c.position < d.position
      let r := onward.foldl (fun acc d =>
        let r := repeated step greedy fuel d acc.1
        (r.1, acc.2 ++ r.2)) (c.position :: seen, [])
      (r.1, if greedy then r.2 ++ [c] else c :: r.2)

/-- **The ends of the matches that start at a place**, the preferred one first. -/
def ends : Pattern → Cursor → List Cursor
  | .nothing, c => [c]
  | .one allowed, c =>
    match c.rest with
    | [] => []
    | x :: rest =>
      if allowed x then [{ c with position := c.position + 1, previous := some x, rest }] else []
  | .between allowed, c => if allowed c.previous c.rest.head? then [c] else []
  | .seq a b, c => Cursor.distinct ((a.ends c).flatMap b.ends) []
  | .alt a b, c => Cursor.distinct (a.ends c ++ b.ends c) []
  | .star greedy a, c => (repeated a.ends greedy c.rest.length c []).2
  | .group n a, c =>
    (a.ends c).map fun d =>
      { d with groups := (n, c.rest.take (d.position - c.position)) :: d.groups }

/-- The preferred match at the start of a text. -/
def match? (p : Pattern) (text : List Char) : Option Cursor :=
  (p.ends { rest := text }).head?

/-- Whether a pattern matches at the start of a text. -/
def startsIn (p : Pattern) (text : List Char) : Bool :=
  (p.match? text).isSome

/-- The preferred match at the first place where there is one, from a place on. -/
def searchFrom? (p : Pattern) (position : Nat) (previous : Option Char) : List Char → Option Cursor
  | [] => (p.ends { position, previous, rest := [] }).head?
  | c :: rest =>
    match (p.ends { position, previous, rest := c :: rest }).head? with
    | some d => some d
    | none => searchFrom? p (position + 1) (some c) rest

/-- **The first match in a text.** -/
def search? (p : Pattern) (text : List Char) : Option Cursor :=
  searchFrom? p 0 none text

/-- Whether a pattern matches anywhere in a text. -/
def occurs (p : Pattern) (text : List Char) : Bool :=
  (p.search? text).isSome

/-! ### Building patterns -/

/-- The patterns of a list, one after the other. -/
def all : List Pattern → Pattern
  | [] => .nothing
  | [p] => p
  | p :: q :: r => .seq p (all (q :: r))

/-- A pattern that matches no text. -/
def never : Pattern :=
  .one fun _ => false

/-- Any pattern of a list, the first one that matches if there are several. -/
def any : List Pattern → Pattern
  | [] => never
  | [p] => p
  | p :: q :: r => .alt p (any (q :: r))

/-- One given character. -/
def char (c : Char) : Pattern :=
  .one (· == c)

/-- A given text. -/
def text (s : String) : Pattern :=
  all (s.toList.map char)

/-- Any of some given texts. -/
def anyText (l : List String) : Pattern :=
  any (l.map text)

/-- Any number of repetitions, as many as possible. -/
def many (p : Pattern) : Pattern :=
  .star true p

/-- One repetition or more, as many as possible. -/
def many1 (p : Pattern) : Pattern :=
  .seq p (.star true p)

/-- One repetition or more, as few as possible. -/
def few1 (p : Pattern) : Pattern :=
  .seq p (.star false p)

/-- A pattern or nothing. -/
def maybe (p : Pattern) : Pattern :=
  .alt p .nothing

/-- Any amount of white space. -/
def blanks : Pattern :=
  many (.one Text.isBlank)

/-- Some white space. -/
def blanks1 : Pattern :=
  many1 (.one Text.isBlank)

/-- The end of the text. -/
def atEnd : Pattern :=
  .between fun _ next => next.isNone

/-- A place between a word character and what is none. -/
def wordEdge : Pattern :=
  .between fun previous next => previous.any Text.isWord != next.any Text.isWord

end Pattern

end CodeAtlas
