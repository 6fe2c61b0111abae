import CodeAtlas.Text.CodeSet

/-!
# Kinds of characters

The predicates on single characters that the readers of source text are built from. Each decides the
ASCII half by comparison and asks a table of `CodeSet` only above it, so a statement about ASCII text
never has to look into a table.

* `isBlank` — white space in the Unicode sense (White_Space);
* `isAlphanumeric` — letters and numbers of any script;
* `isIdentifier` — what may stand in an identifier: alphanumeric, `_` or `$`;
* `isWord` — the word characters of patterns (`\w`): alphabetic, marks, digits, connectors, joiners;
* `isCapital` — an uppercase character;
* `isControl` — the C0 and C1 control characters.
-/

namespace CodeAtlas.Text

/-- White space: the code points with the Unicode property White_Space. -/
def isBlank (c : Char) : Bool :=
  let n := c.toNat
  (9 ≤ n && n ≤ 13) || n == 0x20 || n == 0x85 || n == 0xA0 || n == 0x1680
    || (0x2000 ≤ n && n ≤ 0x200A) || n == 0x2028 || n == 0x2029 || n == 0x202F || n == 0x205F
    || n == 0x3000

/-- The control characters: C0, DEL and C1. -/
def isControl (c : Char) : Bool :=
  let n := c.toNat
  n < 0x20 || (0x7F ≤ n && n ≤ 0x9F)

/-- An ASCII decimal digit. -/
def isAsciiDigit (c : Char) : Bool :=
  '0' ≤ c && c ≤ '9'

/-- An ASCII letter. -/
def isAsciiLetter (c : Char) : Bool :=
  ('a' ≤ c && c ≤ 'z') || ('A' ≤ c && c ≤ 'Z')

/-- A decimal digit of any script. -/
def isDecimal (c : Char) : Bool :=
  if c.toNat < 128 then isAsciiDigit c else CodeSet.decimalDigit.contains c.toNat

/-- An alphabetic character of any script. -/
def isAlphabetic (c : Char) : Bool :=
  if c.toNat < 128 then isAsciiLetter c else CodeSet.alphabetic.contains c.toNat

/-- A letter or a number of any script. -/
def isAlphanumeric (c : Char) : Bool :=
  if c.toNat < 128 then isAsciiLetter c || isAsciiDigit c
  else CodeSet.alphabetic.contains c.toNat || CodeSet.number.contains c.toNat

/-- The value of a hexadecimal digit. -/
def hexDigitValue? (c : Char) : Option Nat :=
  if isAsciiDigit c then some (c.toNat - 48)
  else if 'a' ≤ c ∧ c ≤ 'f' then some (c.toNat - 87)
  else if 'A' ≤ c ∧ c ≤ 'F' then some (c.toNat - 55)
  else none

/-- An uppercase character of any script. -/
def isCapital (c : Char) : Bool :=
  if c.toNat < 128 then 'A' ≤ c && c ≤ 'Z' else CodeSet.uppercase.contains c.toNat

/-- A lowercase character of any script. -/
def isSmall (c : Char) : Bool :=
  if c.toNat < 128 then 'a' ≤ c && c ≤ 'z' else CodeSet.lowercase.contains c.toNat

/-- What an identifier is made of. -/
def isIdentifier (c : Char) : Bool :=
  isAlphanumeric c || c == '_' || c == '$'

/-- The connector punctuation above ASCII. -/
def isConnector (c : Char) : Bool :=
  let n := c.toNat
  (0x203F ≤ n && n ≤ 0x2040) || n == 0x2054 || (0xFE33 ≤ n && n ≤ 0xFE34)
    || (0xFE4D ≤ n && n ≤ 0xFE4F) || n == 0xFF3F

/-- A word character: what `\w` matches and `\b` tells apart from the rest. -/
def isWord (c : Char) : Bool :=
  if c.toNat < 128 then isAsciiLetter c || isAsciiDigit c || c == '_'
  else CodeSet.alphabetic.contains c.toNat || CodeSet.mark.contains c.toNat
    || CodeSet.decimalDigit.contains c.toNat || isConnector c
    || c.toNat == 0x200C || c.toNat == 0x200D

/-- **The small form of a character, as far as ASCII is concerned.** U+212A (the Kelvin sign) is the
one character above ASCII whose small form is an ASCII letter, so two texts of which one is ASCII
agree in their small forms exactly when they agree under this map. -/
def toSmallAscii (c : Char) : Char :=
  if 'A' ≤ c ∧ c ≤ 'Z' then Char.ofNat (c.toNat + 32)
  else if c.toNat = 0x212A then 'k'
  else c

end CodeAtlas.Text
