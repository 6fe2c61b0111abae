import CodeAtlas.Text.Letter

/-!
# Sets of characters that have a name

A pattern may ask for the characters of a general category (`Lu`), of a property (`Alphabetic`) or of a
script (`Greek`). Names are compared loosely: case, blanks, hyphens, underscores and a leading `is` do not
count.
-/

namespace CodeAtlas.Text

/-- Whether a code point lies in one of some inclusive ranges. -/
def inRanges (ranges : List (Nat × Nat)) (c : Char) : Bool :=
  ranges.any fun r => r.1 ≤ c.toNat && c.toNat ≤ r.2

/-! ### General categories -/

/-- Letters of any script. -/
def isLetter (c : Char) : Bool :=
  if c.toNat < 128 then isAsciiLetter c else CodeSet.letter.contains c.toNat

/-- Uppercase letters. Numerals and circled letters are uppercase, but they are no letters. -/
def isUppercaseLetter (c : Char) : Bool :=
  isCapital c && !inRanges [(0x2160, 0x216f), (0x24b6, 0x24cf), (0x1f130, 0x1f149),
    (0x1f150, 0x1f169), (0x1f170, 0x1f189)] c

/-- Lowercase letters. Modifiers, numerals and circled letters are lowercase, but they do not count. -/
def isLowercaseLetter (c : Char) : Bool :=
  isSmall c && !inRanges [(0xaa, 0xaa), (0xba, 0xba), (0x2b0, 0x2b8), (0x2c0, 0x2c1),
    (0x2e0, 0x2e4), (0x345, 0x345), (0x37a, 0x37a), (0x10fc, 0x10fc), (0x1d2c, 0x1d6a),
    (0x1d78, 0x1d78), (0x1d9b, 0x1dbf), (0x2071, 0x2071), (0x207f, 0x207f), (0x2090, 0x209c),
    (0x2170, 0x217f), (0x24d0, 0x24e9), (0x2c7c, 0x2c7d), (0xa69c, 0xa69d), (0xa770, 0xa770),
    (0xa7f2, 0xa7f4), (0xa7f8, 0xa7f9), (0xab5c, 0xab5f), (0xab69, 0xab69), (0x10780, 0x10780),
    (0x10783, 0x10785), (0x10787, 0x107b0), (0x107b2, 0x107ba), (0x1e030, 0x1e06d)] c

/-- Titlecase letters. -/
def isTitlecaseLetter (c : Char) : Bool :=
  inRanges [(0x1c5, 0x1c5), (0x1c8, 0x1c8), (0x1cb, 0x1cb), (0x1f2, 0x1f2), (0x1f88, 0x1f8f),
    (0x1f98, 0x1f9f), (0x1fa8, 0x1faf), (0x1fbc, 0x1fbc), (0x1fcc, 0x1fcc), (0x1ffc, 0x1ffc)] c

/-- Letters that modify the one before them, and marks of iteration. -/
def isModifierLetter (c : Char) : Bool :=
  inRanges [(0x2b0, 0x2c1), (0x2c6, 0x2d1), (0x2e0, 0x2e4), (0x2ec, 0x2ec), (0x2ee, 0x2ee),
    (0x374, 0x374), (0x37a, 0x37a), (0x559, 0x559), (0x640, 0x640), (0x6e5, 0x6e6),
    (0x7f4, 0x7f5), (0x7fa, 0x7fa), (0x81a, 0x81a), (0x824, 0x824), (0x828, 0x828),
    (0x8c9, 0x8c9), (0x971, 0x971), (0xe46, 0xe46), (0xec6, 0xec6), (0x10fc, 0x10fc),
    (0x17d7, 0x17d7), (0x1843, 0x1843), (0x1aa7, 0x1aa7), (0x1c78, 0x1c7d), (0x1d2c, 0x1d6a),
    (0x1d78, 0x1d78), (0x1d9b, 0x1dbf), (0x2071, 0x2071), (0x207f, 0x207f), (0x2090, 0x209c),
    (0x2c7c, 0x2c7d), (0x2d6f, 0x2d6f), (0x2e2f, 0x2e2f), (0x3005, 0x3005), (0x3031, 0x3035),
    (0x303b, 0x303b), (0x309d, 0x309e), (0x30fc, 0x30fe), (0xa015, 0xa015), (0xa4f8, 0xa4fd),
    (0xa60c, 0xa60c), (0xa67f, 0xa67f), (0xa69c, 0xa69d), (0xa717, 0xa71f), (0xa770, 0xa770),
    (0xa788, 0xa788), (0xa7f2, 0xa7f4), (0xa7f8, 0xa7f9), (0xa9cf, 0xa9cf), (0xa9e6, 0xa9e6),
    (0xaa70, 0xaa70), (0xaadd, 0xaadd), (0xaaf3, 0xaaf4), (0xab5c, 0xab5f), (0xab69, 0xab69),
    (0xff70, 0xff70), (0xff9e, 0xff9f), (0x10780, 0x10785), (0x10787, 0x107b0),
    (0x107b2, 0x107ba), (0x16b40, 0x16b43), (0x16f93, 0x16f9f), (0x16fe0, 0x16fe1),
    (0x16fe3, 0x16fe3), (0x1aff0, 0x1aff3), (0x1aff5, 0x1affb), (0x1affd, 0x1affe),
    (0x1e030, 0x1e06d), (0x1e137, 0x1e13d), (0x1e4eb, 0x1e4eb), (0x1e94b, 0x1e94b)] c

/-- Letters that have a case. -/
def isCasedLetter (c : Char) : Bool :=
  isUppercaseLetter c || isLowercaseLetter c || isTitlecaseLetter c

/-- Numbers of any kind. -/
def isNumber (c : Char) : Bool :=
  if c.toNat < 128 then isAsciiDigit c else CodeSet.number.contains c.toNat

/-- Numbers that are written with letters. -/
def isLetterNumber (c : Char) : Bool :=
  inRanges [(0x16ee, 0x16f0), (0x2160, 0x2182), (0x2185, 0x2188), (0x3007, 0x3007),
    (0x3021, 0x3029), (0x3038, 0x303a), (0xa6e6, 0xa6ef), (0x10140, 0x10174), (0x10341, 0x10341),
    (0x1034a, 0x1034a), (0x103d1, 0x103d5), (0x12400, 0x1246e)] c

/-- Combining marks. -/
def isMark (c : Char) : Bool :=
  c.toNat ≥ 128 && CodeSet.mark.contains c.toNat

/-- The ASCII symbols; what is neither letter nor digit nor symbol there is punctuation. -/
def isAsciiSymbol (c : Char) : Bool :=
  "$+<=>^\x60|~".toList.contains c

/-- The visible ASCII characters that are neither letters nor digits. -/
def isAsciiSign (c : Char) : Bool :=
  0x21 ≤ c.toNat && c.toNat ≤ 0x7e && !isAsciiLetter c && !isAsciiDigit c

/-- Punctuation. -/
def isPunctuation (c : Char) : Bool :=
  if c.toNat < 128 then isAsciiSign c && !isAsciiSymbol c else CodeSet.punctuation.contains c.toNat

/-- Symbols. -/
def isSymbol (c : Char) : Bool :=
  if c.toNat < 128 then isAsciiSymbol c else CodeSet.symbol.contains c.toNat

/-- Spaces. -/
def isSpaceSeparator (c : Char) : Bool :=
  inRanges [(0x20, 0x20), (0xa0, 0xa0), (0x1680, 0x1680), (0x2000, 0x200a), (0x202f, 0x202f),
    (0x205f, 0x205f), (0x3000, 0x3000)] c

/-- Dashes. -/
def isDash (c : Char) : Bool :=
  inRanges [(0x2d, 0x2d), (0x58a, 0x58a), (0x5be, 0x5be), (0x1400, 0x1400), (0x1806, 0x1806),
    (0x2010, 0x2015), (0x2e17, 0x2e17), (0x2e1a, 0x2e1a), (0x2e3a, 0x2e3b), (0x2e40, 0x2e40),
    (0x2e5d, 0x2e5d), (0x301c, 0x301c), (0x3030, 0x3030), (0x30a0, 0x30a0), (0xfe31, 0xfe32),
    (0xfe58, 0xfe58), (0xfe63, 0xfe63), (0xff0d, 0xff0d), (0x10ead, 0x10ead)] c

/-- Signs of currencies. -/
def isCurrency (c : Char) : Bool :=
  inRanges [(0x24, 0x24), (0xa2, 0xa5), (0x58f, 0x58f), (0x60b, 0x60b), (0x7fe, 0x7ff),
    (0x9f2, 0x9f3), (0x9fb, 0x9fb), (0xaf1, 0xaf1), (0xbf9, 0xbf9), (0xe3f, 0xe3f),
    (0x17db, 0x17db), (0x20a0, 0x20c0), (0xa838, 0xa838), (0xfdfc, 0xfdfc), (0xfe69, 0xfe69),
    (0xff04, 0xff04), (0xffe0, 0xffe1), (0xffe5, 0xffe6), (0x11fdd, 0x11fe0), (0x1e2ff, 0x1e2ff),
    (0x1ecb0, 0x1ecb0)] c

/-- The general categories with their names. -/
def categories : List (List String × (Char → Bool)) :=
  [(["l", "letter"], isLetter),
   (["lc", "casedletter"], isCasedLetter),
   (["lu", "uppercaseletter"], isUppercaseLetter), (["ll", "lowercaseletter"], isLowercaseLetter),
   (["lt", "titlecaseletter"], isTitlecaseLetter), (["lm", "modifierletter"], isModifierLetter),
   (["lo", "otherletter"], fun c => isLetter c && !isCasedLetter c && !isModifierLetter c),
   (["m", "mark", "combiningmark"], isMark),
   (["n", "number"], isNumber), (["nd", "decimalnumber", "digit"], isDecimal),
   (["nl", "letternumber"], isLetterNumber),
   (["no", "othernumber"], fun c => isNumber c && !isDecimal c && !isLetterNumber c),
   (["p", "punctuation", "punct"], isPunctuation),
   (["pc", "connectorpunctuation"], fun c => c == '_' || isConnector c),
   (["pd", "dashpunctuation"], isDash),
   (["s", "symbol"], isSymbol), (["sc", "currencysymbol"], isCurrency),
   (["z", "separator"], fun c => isSpaceSeparator c || c.toNat == 0x2028 || c.toNat == 0x2029),
   (["zs", "spaceseparator"], isSpaceSeparator),
   (["zl", "lineseparator"], fun c => c.toNat == 0x2028),
   (["zp", "paragraphseparator"], fun c => c.toNat == 0x2029),
   (["cc", "control", "cntrl"], isControl),
   (["any"], fun _ => true), (["ascii"], fun c => c.toNat < 128)]

/-! ### Properties -/

/-- The properties with their names. -/
def properties : List (List String × (Char → Bool)) :=
  [(["alphabetic", "alpha"], isAlphabetic), (["uppercase", "upper"], isCapital), (["lowercase", "lower"], isSmall),
   (["whitespace", "wspace", "space"], isBlank)]

/-! ### Scripts -/

/-- The scripts with their names. -/
def scripts : List (List String × (Char → Bool)) :=
  [(["latin", "latn"], inRanges [(0x41, 0x5a), (0x61, 0x7a), (0xaa, 0xaa), (0xba, 0xba), (0xc0, 0xd6),
     (0xd8, 0xf6), (0xf8, 0x2b8), (0x2e0, 0x2e4), (0x1d00, 0x1d25), (0x1d2c, 0x1d5c),
     (0x1d62, 0x1d65), (0x1d6b, 0x1d77), (0x1d79, 0x1dbe), (0x1e00, 0x1eff), (0x2071, 0x2071),
     (0x207f, 0x207f), (0x2090, 0x209c), (0x212a, 0x212b), (0x2132, 0x2132), (0x214e, 0x214e),
     (0x2160, 0x2188), (0x2c60, 0x2c7f), (0xa722, 0xa787), (0xa78b, 0xa7ca), (0xa7f2, 0xa7ff),
     (0xab30, 0xab5a), (0xab5c, 0xab64), (0xab66, 0xab69), (0xfb00, 0xfb06), (0xff21, 0xff3a),
     (0xff41, 0xff5a)]),
   (["greek", "grek"], inRanges [(0x370, 0x373), (0x375, 0x377), (0x37a, 0x37d), (0x37f, 0x37f),
     (0x384, 0x384), (0x386, 0x386), (0x388, 0x38a), (0x38c, 0x38c), (0x38e, 0x3a1),
     (0x3a3, 0x3e1), (0x3f0, 0x3ff), (0x1d26, 0x1d2a), (0x1d5d, 0x1d61), (0x1d66, 0x1d6a),
     (0x1dbf, 0x1dbf), (0x1f00, 0x1f15), (0x1f18, 0x1f1d), (0x1f20, 0x1f45), (0x1f48, 0x1f4d),
     (0x1f50, 0x1f57), (0x1f59, 0x1f59), (0x1f5b, 0x1f5b), (0x1f5d, 0x1f5d), (0x1f5f, 0x1f7d),
     (0x1f80, 0x1fb4), (0x1fb6, 0x1fc4), (0x1fc6, 0x1fd3), (0x1fd6, 0x1fdb), (0x1fdd, 0x1fef),
     (0x1ff2, 0x1ff4), (0x1ff6, 0x1ffe), (0x2126, 0x2126), (0xab65, 0xab65), (0x10140, 0x1018e),
     (0x101a0, 0x101a0), (0x1d200, 0x1d245)]),
   (["cyrillic", "cyrl"], inRanges [(0x400, 0x484), (0x487, 0x52f), (0x1c80, 0x1c88), (0x1d2b, 0x1d2b),
     (0x1d78, 0x1d78), (0x2de0, 0x2dff), (0xa640, 0xa69f), (0xfe2e, 0xfe2f)]),
   (["han", "hani"], inRanges [(0x2e80, 0x2e99), (0x2e9b, 0x2ef3), (0x2f00, 0x2fd5), (0x3005, 0x3005),
     (0x3007, 0x3007), (0x3021, 0x3029), (0x3038, 0x303b), (0x3400, 0x4dbf), (0x4e00, 0x9fff),
     (0xf900, 0xfa6d), (0xfa70, 0xfad9), (0x20000, 0x2a6df), (0x2a700, 0x2ebe0),
     (0x2f800, 0x2fa1d), (0x30000, 0x323af)]),
   (["hiragana", "hira"], inRanges [(0x3041, 0x3096), (0x309d, 0x309f), (0x1b001, 0x1b11f),
     (0x1b150, 0x1b152), (0x1f200, 0x1f200)]),
   (["katakana", "kana"], inRanges [(0x30a1, 0x30fa), (0x30fd, 0x30ff), (0x31f0, 0x31ff),
     (0x32d0, 0x32fe), (0x3300, 0x3357), (0xff66, 0xff6f), (0xff71, 0xff9d)]),
   (["hangul", "hang"], inRanges [(0x1100, 0x11ff), (0x302e, 0x302f), (0x3131, 0x318e),
     (0x3200, 0x321e), (0x3260, 0x327e), (0xa960, 0xa97c), (0xac00, 0xd7a3), (0xd7b0, 0xd7c6),
     (0xd7cb, 0xd7fb), (0xffa0, 0xffbe), (0xffc2, 0xffc7), (0xffca, 0xffcf), (0xffd2, 0xffd7),
     (0xffda, 0xffdc)]),
   (["hebrew", "hebr"], inRanges [(0x591, 0x5c7), (0x5d0, 0x5ea), (0x5ef, 0x5f4), (0xfb1d, 0xfb36),
     (0xfb38, 0xfb3c), (0xfb3e, 0xfb3e), (0xfb40, 0xfb41), (0xfb43, 0xfb44), (0xfb46, 0xfb4f)])]

/-! ### Looking up by name -/

/-- A name as it is compared: small letters, no blanks, hyphens and underscores, and no `is` in front. -/
def looseName (name : List Char) : String :=
  let name := match name with
    | i :: s :: rest => if toSmallAscii i == 'i' && toSmallAscii s == 's' then rest else name
    | _ => name
  let kept := name.filter fun c => c != ' ' && c != '_' && c != '-'
  String.ofList (kept.map toSmallAscii)

/-- The set with a given name in a list of named sets. -/
def findSet? (sets : List (List String × (Char → Bool))) (name : List Char) : Option (Char → Bool) :=
  (sets.find? fun s => s.1.contains (looseName name)).map (·.2)

/-- **The characters of a named category, property or script.** -/
def namedSet? (name : List Char) : Option (Char → Bool) :=
  findSet? (categories ++ properties ++ scripts) name

/-- The characters for which a named attribute has a given value. -/
def valuedSet? (name value : List Char) : Option (Char → Bool) :=
  let n := looseName name
  if n == "gc" || n == "generalcategory" then findSet? categories value
  else if n == "sc" || n == "script" || n == "scx" || n == "scriptextensions" then
    findSet? scripts value
  else none

end CodeAtlas.Text
