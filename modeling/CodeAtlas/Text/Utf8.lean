/-!
# Bytes and text

Files hold bytes. Read as text, every maximal sequence of bytes that cannot be completed to a character
counts as one fault: `decoded` gives a character for each sequence that is complete, and nothing for each
fault. A lenient reader puts U+FFFD in the place of a fault, a strict one gives up.
-/

namespace CodeAtlas.Utf8

/-- **What the first byte of a sequence announces**: how many bytes follow, the range of the first of
them, and the bits that the first byte itself contributes. -/
structure Lead where
  following : Nat
  least : Nat
  greatest : Nat
  bits : Nat

/-- What a byte announces as the first of a sequence, if it can be the first. The ranges leave out what
would be written too long, the surrogates, and what is above the last code point. -/
def lead? (b : Nat) : Option Lead :=
  if b < 0x80 then some ⟨0, 0x80, 0xBF, b⟩
  else if b < 0xC2 then none
  else if b < 0xE0 then some ⟨1, 0x80, 0xBF, b - 0xC0⟩
  else if b = 0xE0 then some ⟨2, 0xA0, 0xBF, 0⟩
  else if b = 0xED then some ⟨2, 0x80, 0x9F, 0xD⟩
  else if b < 0xF0 then some ⟨2, 0x80, 0xBF, b - 0xE0⟩
  else if b = 0xF0 then some ⟨3, 0x90, 0xBF, 0⟩
  else if b < 0xF4 then some ⟨3, 0x80, 0xBF, b - 0xF0⟩
  else if b = 0xF4 then some ⟨3, 0x80, 0x8F, 4⟩
  else none

/-- The rest of a sequence: its code point, or nothing where a byte does not fit, and the bytes from
there on. -/
def complete : (following least greatest bits : Nat) → List UInt8 → Option Nat × List UInt8
  | 0, _, _, bits, s => (some bits, s)
  | _ + 1, _, _, _, [] => (none, [])
  | n + 1, least, greatest, bits, b :: s =>
    if least ≤ b.toNat ∧ b.toNat ≤ greatest then
      complete n 0x80 0xBF (bits * 64 + (b.toNat - 0x80)) s
    else (none, b :: s)

/-- The bytes after a sequence are no more than there were. -/
theorem length_complete_le (n least greatest bits : Nat) (s : List UInt8) :
    (complete n least greatest bits s).2.length ≤ s.length := by
  induction n generalizing least greatest bits s with
  | zero => simp [complete]
  | succ n ih =>
    cases s with
    | nil => simp [complete]
    | cons b s =>
      simp only [complete]
      -- Each byte that continues the sequence is taken, and the first one that does not is left.
      split
      · exact Nat.le_succ_of_le (ih _ _ _ s)
      · exact Nat.le_refl _

/-- The first sequence of some bytes, and the bytes after it. -/
def next (b : UInt8) (s : List UInt8) : Option Char × List UInt8 :=
  match lead? b.toNat with
  | none => (none, s)
  | some l =>
    let r := complete l.following l.least l.greatest l.bits s
    (r.1.map Char.ofNat, r.2)

theorem length_next_le (b : UInt8) (s : List UInt8) : (next b s).2.length ≤ s.length := by
  unfold next
  split
  · exact Nat.le_refl _
  · exact length_complete_le _ _ _ _ _

/-- **The characters of some bytes**, with nothing in the place of a fault. -/
def decoded : List UInt8 → List (Option Char)
  | [] => []
  | b :: s => (next b s).1 :: decoded (next b s).2
termination_by s => s.length
decreasing_by
  have := length_next_le b s
  simp only [List.length_cons]
  omega

/-- The text of some bytes, with U+FFFD in the place of a fault. -/
def lenient (s : List UInt8) : List Char :=
  (decoded s).map (·.getD '\uFFFD')

/-- The text of some bytes, if there is no fault in them. -/
def strict? (s : List UInt8) : Option (List Char) :=
  (decoded s).mapM id

end CodeAtlas.Utf8
