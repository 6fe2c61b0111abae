import CodeAtlas.Digest
import CodeAtlas.Pattern.Basic

/-!
# Globs

A glob describes paths: `*` and `?` stay within one segment, `**` between slashes goes across segments,
`[a-z]` is a set of characters and `{a,b}` a choice. A backslash takes the next character as it is. A
bracket that does not close is a plain character, and so is every bracket after it.

Paths are compared byte by byte, so a glob is read into a pattern of bytes.

* `Glob.Part` — the parts of a glob;
* `Glob.read?` — the parts of a text, unless its braces do not match, a range goes downwards, or it ends in
  a backslash;
* `Glob.pattern` — the pattern that they stand for.
-/

namespace CodeAtlas

namespace Glob

/-- **A part of a glob.** -/
inductive Part where
  | literal (c : Char)
  /-- A `?`: one byte of a segment. -/
  | any
  /-- A `*`: any part of a segment. -/
  | run
  /-- A `**` before a slash at the start: any directories, or none. -/
  | leading
  /-- A `**` behind a slash at the end: whatever is inside. -/
  | trailing
  /-- A `**` between slashes: any directories between two, or none. -/
  | between
  | oneOf (negated : Bool) (ranges : List (Char × Char))
  | choice (branches : List (List Part))

/-! ### Reading -/

/-- **A sequence that is being read**: the finished branches of its choice, and the branch at hand, the
last part first. -/
structure Frame where
  finished : List (List Part) := []
  current : List Part := []

/-- The branches of a choice that closes. -/
def Frame.branches (f : Frame) : List (List Part) :=
  f.finished ++ [f.current.reverse]

/-- The state of reading: the frame at hand, the frames around it, the character before, and whether a
bracket did not close. -/
structure Reader where
  frame : Frame := {}
  outer : List Frame := []
  previous : Option Char := none
  unclosed : Bool := false

namespace Reader

/-- The reader with one more part. -/
def push (r : Reader) (p : Part) : Reader :=
  { r with frame := { r.frame with current := p :: r.frame.current } }

/-- The reader behind a character. -/
def passed (r : Reader) (c : Char) : Reader :=
  { r with previous := some c }

/-- The reader whose last part, a slash, gives way to another part. What goes across segments already
stays. -/
def replaceSlash (r : Reader) (p : Part) : Reader :=
  match r.frame.current with
  | .leading :: _ => r
  | .trailing :: _ => r
  | _ :: rest => { r with frame := { r.frame with current := p :: rest } }
  | [] => r.push p

/-- Whether a text begins with what may end a choice here. -/
def endsBranch (r : Reader) : List Char → Bool
  | ',' :: _ => !r.outer.isEmpty
  | '}' :: _ => !r.outer.isEmpty
  | _ => false

/-- **Two stars**: the reader behind them, and what is left. They go across segments if slashes or the
ends of the glob stand on both sides. -/
def doubleStar (r : Reader) (rest : List Char) : Reader × List Char :=
  let plain := (((r.push .run).push .run).passed '*', rest)
  -- At the start of a glob or of a branch no slash stands in front.
  if r.frame.current.isEmpty then
    match rest with
    | [] => (r.push .leading, [])
    | '/' :: t => ((r.push .leading).passed '/', t)
    | _ => plain
  else if r.previous != some '/' then plain
  else
    match rest with
    | [] => (r.replaceSlash .trailing, [])
    | '/' :: t => ((r.replaceSlash .between).passed '/', t)
    | _ => if r.endsBranch rest then ((r.replaceSlash .trailing).passed '*', rest) else plain

end Reader

/-- A set in brackets that is being read: its ranges, the last first, and whether a hyphen waits for the
end of a range. -/
structure OpenSet where
  ranges : List (Char × Char) := []
  waiting : Bool := false

/-- The set with one more character; nothing if that makes a range go downwards. -/
def OpenSet.add? (o : OpenSet) (c : Char) : Option OpenSet :=
  match o.waiting, o.ranges with
  | true, (a, _) :: rest => if a ≤ c then some ⟨(a, c) :: rest, false⟩ else none
  | _, ranges => some ⟨(c, c) :: ranges, false⟩

/-- How a bracket ends. -/
inductive SetOutcome where
  | closed (ranges : List (Char × Char)) (rest : List Char)
  | unclosed
  | invalid

/-- The ranges of a set from after its bracket. What comes first stands for itself. -/
def readSet (first : Bool) (o : OpenSet) : List Char → SetOutcome
  | [] => .unclosed
  | c :: rest =>
    if c == ']' && !first then
      .closed (if o.waiting then ('-', '-') :: o.ranges else o.ranges).reverse rest
    else if c == '-' && !first && !o.waiting then readSet false { o with waiting := true } rest
    else
      match o.add? c with
      | some o => readSet false o rest
      | none => .invalid

/-- The characters after the sign that negates a set, and whether it is there. -/
def negation : List Char → Bool × List Char
  | '!' :: rest => (true, rest)
  | '^' :: rest => (true, rest)
  | rest => (false, rest)

/-- **The parts of a glob**, from the state of reading; `fuel` bounds the steps. -/
def readParts : (fuel : Nat) → Reader → List Char → Option (List Part)
  | 0, _, _ => none
  | _ + 1, r, [] => if r.outer.isEmpty then some r.frame.current.reverse else none
  | fuel + 1, r, c :: rest =>
    let plain := readParts fuel ((r.push (.literal c)).passed c) rest
    match c with
    | '?' => readParts fuel ((r.push .any).passed c) rest
    | '*' =>
      match rest with
      | '*' :: rest =>
        let (r, rest) := r.doubleStar rest
        readParts fuel r rest
      | _ => readParts fuel ((r.push .run).passed c) rest
    | '[' =>
      if r.unclosed then plain
      else
        let (negated, inside) := negation rest
        match readSet true {} inside with
        | .closed ranges rest => readParts fuel ((r.push (.oneOf negated ranges)).passed ']') rest
        | .unclosed => readParts fuel ({ r.push (.literal c) with unclosed := true }.passed c) rest
        | .invalid => none
    | '{' => readParts fuel ({ r with frame := {}, outer := r.frame :: r.outer }.passed c) rest
    | '}' =>
      match r.outer with
      | [] => none
      | f :: outer =>
        let r' : Reader := { r with frame := f, outer }
        readParts fuel ((r'.push (.choice r.frame.branches)).passed c) rest
    | ',' =>
      if r.outer.isEmpty then plain
      else readParts fuel ({ r with frame := { finished := r.frame.branches } }.passed c) rest
    | '\\' =>
      match rest with
      | [] => none
      | d :: rest => readParts fuel ((r.push (.literal d)).passed d) rest
    | _ => plain

/-- **The parts that a text describes**, if it is a glob. -/
def read? (s : List Char) : Option (List Part) :=
  readParts (s.length + 1) {} s

/-! ### Matching -/

/-- The bytes of a text, each as a character of its own. -/
def byteChars (s : List Char) : List Char :=
  (Digest.utf8 (String.ofList s)).map fun b => Char.ofNat b.toNat

/-- Any byte of a segment. -/
def inSegment : Pattern :=
  .one (· != '/')

/-- Any bytes. -/
def anything : Pattern :=
  .many (.one fun _ => true)

mutual

/-- The pattern of one part. -/
def Part.pattern : Part → Pattern
  | .literal c => Pattern.all ((byteChars [c]).map Pattern.char)
  | .any => inSegment
  | .run => .many inSegment
  | .leading => .alt (.maybe (.char '/')) (.seq anything (.char '/'))
  | .trailing => .seq (.char '/') anything
  | .between => .alt (.char '/') (.seq (.char '/') (.seq anything (.char '/')))
  | .oneOf negated ranges =>
    .one fun c => (ranges.any fun r => decide (r.1 ≤ c) && decide (c ≤ r.2)) != negated
  | .choice branches => branchesPattern branches

/-- The pattern of parts, one after the other. -/
def sequencePattern : List Part → Pattern
  | [] => .nothing
  | p :: rest => .seq p.pattern (sequencePattern rest)

/-- The pattern of a choice. -/
def branchesPattern : List (List Part) → Pattern
  | [] => Pattern.never
  | b :: rest => .alt (sequencePattern b) (branchesPattern rest)

end

/-- **The pattern of a glob**: it has to match a path as a whole. Two stars alone match every path. -/
def pattern : List Part → Pattern
  | [.leading] => .nothing
  | parts => .seq (sequencePattern parts) .atEnd

end Glob

end CodeAtlas
