import CodeAtlas.Source.Line

/-!
# How far a declaration reaches

A declaration starts on a line, its header may run over several lines, and its block over more. Both are
measured from the line of the declaration on, so the functions here take the lines from that line to the
end of the file and answer with offsets into them.

* `header` — the code of the header joined on one line, and the offset of its last line: lines are taken
  while more parentheses are open than closed, forty at most;
* `blockEnd` — the offset of the line on which the block that the header opens is closed again.
-/

namespace CodeAtlas.SourceLine

/-- The largest number of lines of a header. -/
def headerLimit : Nat := 40

/-- The number of open parentheses after some code. -/
def parenStep (open_ : Int) (c : Char) : Int :=
  if c = '(' then open_ + 1 else if c = ')' then open_ - 1 else open_

/-- The number of open parentheses after the code of a line. -/
def parensAfter (open_ : Int) (code : List Char) : Int :=
  code.foldl parenStep open_

/-- The code of the lines of a header, trimmed, and the offset of the last one, when `open_` parentheses
are open before the first line and at most `n` lines may follow it. -/
def headerLines : (n : Nat) → (open_ : Int) → List SourceLine → List (List Char) × Nat
  | _, _, [] => ([], 0)
  | 0, _, l :: _ => ([Text.trim l.code], 0)
  | n + 1, open_, l :: rest =>
    let now := parensAfter open_ l.code
    if now ≤ 0 ∨ rest = [] then ([Text.trim l.code], 0)
    else
      let r := headerLines n now rest
      (Text.trim l.code :: r.1, r.2 + 1)

/-- **The header of a declaration** that starts on the first of the lines: its code on one line, and the
offset of its last line. -/
def header (lines : List SourceLine) : List Char × Nat :=
  let r := headerLines (headerLimit - 1) 0 lines
  (Text.joinWith [' '] r.1, r.2)

/-- The offset of the first line that ends at or below a depth, or of the last line if none does. -/
def closingOffset (base : Nat) : List SourceLine → Nat
  | [] => 0
  | l :: rest => if l.depthAfter ≤ base ∨ rest = [] then 0 else closingOffset base rest + 1

/-- **The last line of a declaration** that starts on the first of the lines and whose header ends at the
given offset: the first line from there on that ends no deeper than the declaration starts. -/
def blockEnd (lines : List SourceLine) (headerEnd : Nat) : Nat :=
  let base := (lines.head?.map (·.depth)).getD 0
  headerEnd + closingOffset base (lines.drop headerEnd)

/-- The number of the line at an offset; the last line answers for what lies beyond it. -/
def numberAt (lines : List SourceLine) (offset : Nat) : Nat :=
  match lines[offset]? with
  | some l => l.number
  | none => (lines.getLast?.map (·.number)).getD 0

end CodeAtlas.SourceLine
