import CodeAtlas.Proofs.Keyed
import CodeAtlas.Proofs.Legible

/-!
# Reading JSON texts that were written

`Json.read?` reads what `Json.compact` writes: `read?_compactChars`. Two things do not come back as they were
written, and the statement says so. Numbers of more than 64 bits come back as decimals, so the values here
are `Regular`, which is what an encoder makes of data. And the fields of an object come out in the order of
their names, so what is read is the *normal form* of what was written.

The reader works in two passes, and so does the proof.

* The text of a value is cut into the tokens of the value (`Regular.lexes`). A number is the only token whose
  end has to be looked for, and none of the characters that may follow one goes on with it.
* The tokens of a value deliver its normal form to whatever is open around them (`Regular.delivers`).

Both are inductions on the regular values, with one lemma for the items of an array and one for the fields of
an object.
-/

namespace CodeAtlas.Json

/-! ### Quoted text -/

/-- **How a character is written**: with a letter behind a backslash, by its number if it is another control
character, or as it is. -/
theorem quoteChar_cases (c : Char) :
    (∃ e, escaped? e = some c ∧ e ≠ 'u' ∧ quoteChar c = ['\\', e]) ∨
    (c.toNat < 32 ∧
      quoteChar c = ['\\', 'u', '0', '0', Digest.hexDigit (c.toNat / 16), Digest.hexDigit (c.toNat % 16)]) ∨
    (32 ≤ c.toNat ∧ c ≠ '"' ∧ c ≠ '\\' ∧ quoteChar c = [c]) := by
  have hnumber : ∀ n, c.toNat = n → c = Char.ofNat n := by
    rintro n rfl
    exact (Char.ofNat_toNat c).symm
  -- Seven characters have a letter of their own.
  by_cases hquote : c = '"'
  · exact .inl ⟨'"', by rw [hquote]; rfl, by decide, by rw [hquote]; rfl⟩
  by_cases hbackslash : c = '\\'
  · exact .inl ⟨'\\', by rw [hbackslash]; rfl, by decide, by rw [hbackslash]; rfl⟩
  by_cases hline : c = '\n'
  · exact .inl ⟨'n', by rw [hline]; rfl, by decide, by rw [hline]; rfl⟩
  by_cases hreturn : c = '\r'
  · exact .inl ⟨'r', by rw [hreturn]; rfl, by decide, by rw [hreturn]; rfl⟩
  by_cases htab : c = '\t'
  · exact .inl ⟨'t', by rw [htab]; rfl, by decide, by rw [htab]; rfl⟩
  by_cases hback : c.toNat = 8
  · exact .inl ⟨'b', by rw [hnumber 8 hback]; rfl, by decide, by rw [hnumber 8 hback]; rfl⟩
  by_cases hfeed : c.toNat = 12
  · exact .inl ⟨'f', by rw [hnumber 12 hfeed]; rfl, by decide, by rw [hnumber 12 hfeed]; rfl⟩
  have hrest : quoteChar c = if c.toNat < 32 then
      ['\\', 'u', '0', '0', Digest.hexDigit (c.toNat / 16), Digest.hexDigit (c.toNat % 16)] else [c] := by
    unfold quoteChar
    rw [if_neg hquote, if_neg hbackslash, if_neg hline, if_neg hreturn, if_neg htab, if_neg hback,
      if_neg hfeed]
  by_cases hcontrol : c.toNat < 32
  · exact .inr (.inl ⟨hcontrol, hrest.trans (if_pos hcontrol)⟩)
  · exact .inr (.inr ⟨Nat.le_of_not_lt hcontrol, hquote, hbackslash, hrest.trans (if_neg hcontrol)⟩)

/-- Two zeros and two digits are read as the number that they write. -/
theorem hex4?_small {n : Nat} (h : n < 32) :
    hex4? '0' '0' (Digest.hexDigit (n / 16)) (Digest.hexDigit (n % 16)) = some n := by
  have hread := Quoted.hex4?_hex4 (n := n) (by omega)
  have hfirst : n / 4096 % 16 = 0 := by omega
  have hsecond : n / 256 % 16 = 0 := by omega
  have hthird : n / 16 % 16 = n / 16 := by omega
  rw [hfirst, hsecond, hthird] at hread
  exact hread

/-- **A character is read back from how it is written.** -/
theorem quotedTail?_quoteChar (c : Char) (rest : List Char) :
    quotedTail? (quoteChar c ++ rest) = (quotedTail? rest).map fun r => (c :: r.1, r.2) := by
  obtain ⟨e, hescaped, hu, hquote⟩ | ⟨hsmall, hquote⟩ | ⟨hplain, hmark, hbackslash, hquote⟩ :=
    quoteChar_cases c
  -- A letter of its own is read back, and it does not start an escape by number.
  · have hread : quotedTail? ('\\' :: e :: rest) = (quotedTail? rest).map fun r => (c :: r.1, r.2) := by
      rw [quotedTail?, hescaped]
      rintro _ _ _ _ _ h
      exact absurd h hu
    rw [hquote]
    exact hread
  · rw [hquote]
    change quotedTail? ('\\' :: 'u' :: '0' :: '0' :: _ :: _ :: rest) = _
    rw [quotedTail?, hex4?_small hsmall]
    dsimp only
    -- A control character is no half of a surrogate pair.
    rw [if_neg (by omega), if_neg (by omega), Char.ofNat_toNat]
  · rw [hquote]
    change quotedTail? (c :: rest) = _
    rw [quotedTail?]
    · rw [if_neg (by simp [hbackslash]; omega)]
    · exact hmark
    · intro _ _ _ _ _ h
      exact absurd h hbackslash
    · intro _ _ h
      exact absurd h hbackslash

/-- **A quoted text is read back**, whatever follows it. -/
theorem quotedTail?_quoteChars (s t : List Char) : quotedTail? (quoteChars s ++ '"' :: t) = some (s, t) := by
  induction s with
  | nil => rfl
  | cons c s ih =>
    have hcons : quoteChars (c :: s) ++ '"' :: t = quoteChar c ++ (quoteChars s ++ '"' :: t) := by
      unfold quoteChars
      rw [List.flatMap_cons, List.append_assoc]
    rw [hcons, quotedTail?_quoteChar, ih]
    rfl

/-! ### Numbers -/

/-- A character that may go on with a number. -/
def isNumberChar (c : Char) : Bool :=
  Text.isAsciiDigit c || c == '.' || c == 'e' || c == 'E'

/-- A number is written with digits. -/
theorem isAsciiDigit_of_mem_natChars {n : Nat} {c : Char} (h : c ∈ natChars n) :
    Text.isAsciiDigit c = true := by
  have hdigit : c.isDigit = true := Nat.isDigit_of_mem_toDigits (by decide) (by decide) h
  exact hdigit

/-- The digits of a number that is not zero do not begin with a zero. -/
theorem head?_toDigits_ne {n : Nat} (hpos : 0 < n) : (Nat.toDigits 10 n).head? ≠ some '0' := by
  -- By strong induction, since the digits of a number are those of its tenth and one more.
  induction n using Nat.strongRecOn with
  | _ n ih =>
    rw [Nat.toDigits_eq_if (by decide)]
    split
    next hsmall =>
      have hall : ∀ n < 10, 0 < n → [n.digitChar].head? ≠ some '0' := by decide
      exact hall n hsmall hpos
    next hbig =>
      rw [List.head?_append_of_ne_nil _ Nat.toDigits_ne_nil]
      exact ih (n / 10) (by omega) (by omega)

/-- A number is written without leading zeros. -/
theorem head?_natChars (n : Nat) : (natChars n).head? = some '0' → (natChars n).length = 1 := by
  unfold natChars
  intro hzero
  rcases Nat.eq_zero_or_pos n with rfl | hpos
  · rfl
  · exact absurd hzero (head?_toDigits_ne hpos)

/-- Digits are added up as the library does it, with the factors in the other order. -/
theorem foldl_digits_eq (ds : List Char) (m : Nat) :
    ds.foldl (fun n c => n * 10 + (c.toNat - 48)) m = Nat.ofDigitChars 10 ds m := by
  induction ds generalizing m with
  | nil => rfl
  | cons d ds ih =>
    rw [List.foldl_cons, ih, Nat.mul_comm]
    rfl

/-- The digits of a number stand for it. -/
theorem digitsValue_natChars (n : Nat) : digitsValue (natChars n) = n :=
  (foldl_digits_eq _ 0).trans Nat.ofDigitChars_ten_toDigits

/-- The integers that are read as integers: those of 64 bits, with or without a sign. -/
def IsWord (n : Int) : Prop :=
  -((UInt64.size / 2 : Nat) : Int) ≤ n ∧ n < UInt64.size

/-- The text of an integer begins with a sign or a digit. -/
theorem exists_mark_intChars (n : Int) : ∃ c s, intChars n = c :: s ∧ (c = '-' ∨ c.isDigit = true) := by
  unfold intChars
  split
  next => exact ⟨'-', _, rfl, .inl rfl⟩
  next =>
    obtain ⟨c, s, hs, hc⟩ := exists_digit_natChars n.natAbs
    exact ⟨c, s, hs, .inr hc⟩

section Numbers

variable {rest : List Char} (hrest : StopsAt isNumberChar rest)
include hrest

/-- What cannot go on with a number starts with no digit. -/
theorem stopsAt_isAsciiDigit : StopsAt Text.isAsciiDigit rest := by
  intro c hc
  have hno := hrest c hc
  unfold isNumberChar at hno
  simp only [Bool.or_eq_false_iff] at hno
  exact hno.1.1.1

theorem head?_ne_of_isNumberChar {c : Char} (hc : isNumberChar c = true) : rest.head? ≠ some c := by
  intro hhead
  have hno := hrest c hhead
  rw [hc] at hno
  cases hno

theorem fractionPart?_of_stopsAt : fractionPart? rest = some ([], rest) := by
  have hpoint := head?_ne_of_isNumberChar hrest (c := '.') rfl
  unfold fractionPart?
  split
  next => exact absurd rfl hpoint
  next => rfl

theorem exponentPart?_of_stopsAt : exponentPart? rest = some (none, rest) := by
  have hsmall := head?_ne_of_isNumberChar hrest (c := 'e') rfl
  have hlarge := head?_ne_of_isNumberChar hrest (c := 'E') rfl
  unfold exponentPart?
  split
  next e t =>
    rw [if_neg]
    rintro (rfl | rfl)
    · exact hsmall rfl
    · exact hlarge rfl
  next => rfl

/-- The digits of a number are cut off where they end. -/
theorem takeWhile_natChars (n : Nat) : (natChars n ++ rest).takeWhile Text.isAsciiDigit = natChars n ∧
    (natChars n ++ rest).dropWhile Text.isAsciiDigit = rest := by
  have hdigits : ∀ c ∈ natChars n, Text.isAsciiDigit c = true := fun _ => isAsciiDigit_of_mem_natChars
  exact span_run hdigits (stopsAt_isAsciiDigit hrest)

/-- **A number is read back from its digits**, behind a sign or without one. -/
theorem number?_natChars (n : Nat) :
    number? (natChars n ++ rest) = some (ofIntegerText false n, rest) ∧
      number? ('-' :: (natChars n ++ rest)) = some (ofIntegerText true n, rest) := by
  obtain ⟨htake, hdrop⟩ := takeWhile_natChars hrest n
  have hvalue := digitsValue_natChars n
  -- A number is not written with a zero in front of other digits.
  have hwhole : ¬(natChars n = [] ∨ (natChars n).length > 1 ∧ (natChars n).head? = some '0') := by
    rintro (hnil | ⟨hlong, hzero⟩)
    · exact Nat.toDigits_ne_nil hnil
    · rw [head?_natChars n hzero] at hlong
      exact Nat.lt_irrefl 1 hlong
  unfold number?
  constructor
  · -- The first character is a digit and not a sign.
    obtain ⟨c, ds, hds, hc⟩ := exists_digit_natChars n
    have hsign : c ≠ '-' := by
      rintro rfl
      cases hc
    rw [hds, List.cons_append] at htake hdrop
    rw [hds] at hvalue hwhole
    rw [hds, List.cons_append]
    simp [hsign, htake, hdrop, fractionPart?_of_stopsAt hrest, exponentPart?_of_stopsAt hrest, hvalue]
    simpa using hwhole
  · simp [htake, hdrop, hwhole, fractionPart?_of_stopsAt hrest, exponentPart?_of_stopsAt hrest, hvalue]

/-- **A word is read back from its text.** -/
theorem number?_intChars {n : Int} (hn : IsWord n) :
    number? (intChars n ++ rest) = some (.int n, rest) := by
  obtain ⟨hlow, hhigh⟩ := hn
  unfold intChars
  -- A negative number is written as a sign and its absolute value.
  split
  next hneg =>
    rw [List.cons_append, (number?_natChars hrest n.natAbs).2]
    unfold ofIntegerText
    rw [if_pos rfl, if_pos (by omega), Int.ofNat_natAbs_of_nonpos (by omega), Int.neg_neg]
  next hpos =>
    rw [(number?_natChars hrest n.natAbs).1]
    unfold ofIntegerText
    rw [if_neg (by decide), if_pos (by omega), Int.natAbs_of_nonneg (by omega)]

/-- A number is no other token. -/
theorem token?_intChars {n : Int} (hn : IsWord n) :
    token? (intChars n ++ rest) = some (.leaf (.int n), rest) := by
  obtain ⟨c, s, htext, hc⟩ := exists_mark_intChars n
  have hread := number?_intChars hrest hn
  rw [htext, List.cons_append] at hread ⊢
  -- No other token begins with a sign or a digit.
  have hfirst : ∀ d t, c :: (s ++ rest) = d :: t → d = '-' ∨ d.isDigit = true := by
    intro d t h
    rw [← (List.cons.inj h).1]
    exact hc
  rw [token?, hread]
  · rfl
  · exact List.cons_ne_nil c _
  all_goals
    intro t h
    exact absurd (hfirst _ _ h) (by decide)

end Numbers

/-! ### Tokens -/

mutual

/-- The tokens of a value. -/
def tokens : Json → List Token
  | .arr items => .openArray :: itemTokens items ++ [.closeArray]
  | .obj fields => .openObject :: fieldTokens fields ++ [.closeObject]
  | v => [.leaf v]

/-- The tokens of the items of an array, with commas between them. -/
def itemTokens : List Json → List Token
  | [] => []
  | [v] => tokens v
  | v :: w :: rest => tokens v ++ .comma :: itemTokens (w :: rest)

/-- The tokens of the fields of an object, with commas between them. -/
def fieldTokens : List (String × Json) → List Token
  | [] => []
  | [(k, v)] => .leaf (.str k) :: .colon :: tokens v
  | (k, v) :: f :: rest => .leaf (.str k) :: .colon :: tokens v ++ .comma :: fieldTokens (f :: rest)

end

/-- **The values that an encoder makes**: their numbers are integers of 64 bits and no object has two fields
of one name. -/
inductive Regular : Json → Prop
  | null : Regular .null
  | bool (b : Bool) : Regular (.bool b)
  | int {n : Int} (hn : IsWord n) : Regular (.int n)
  | str (s : String) : Regular (.str s)
  | arr {items : List Json} (hitems : ∀ v ∈ items, Regular v) : Regular (.arr items)
  | obj {fields : List (String × Json)} (hnames : (fields.map (·.1)).Nodup)
      (hfields : ∀ f ∈ fields, Regular f.2) : Regular (.obj fields)

/-- **A text is cut into tokens**, wherever it stands before the end of a number. -/
structure Lexes (w : List Char) (ts : List Token) : Prop where
  length_le : ts.length ≤ w.length
  read : ∀ n rest, StopsAt isNumberChar rest →
    tokensUpTo (n + ts.length) (w ++ rest) = (tokensUpTo n rest).map (ts ++ ·)

/-- A character that is a token on its own and ends a number before it. -/
structure IsMark (c : Char) (t : Token) : Prop where
  not_number : isNumberChar c = false
  not_gap : isGap c = false
  read : ∀ s, token? (c :: s) = some (t, s)

/-- A token is taken off the front of the text. -/
theorem tokensUpTo_cons {c : Char} {s rest : List Char} {t : Token} (hgap : isGap c = false)
    (hread : token? (c :: s) = some (t, rest)) (n : Nat) :
    tokensUpTo (n + 1) (c :: s) = (tokensUpTo n rest).map (t :: ·) := by
  have hdrop : (c :: s).dropWhile isGap = c :: s := List.dropWhile_cons_of_neg (by simp [hgap])
  rw [tokensUpTo, hdrop]
  dsimp only
  rw [hread]

namespace Lexes

variable {w u : List Char} {ts us : List Token} {c : Char} {t : Token}

theorem nil : Lexes [] [] where
  length_le := Nat.le_refl 0
  read _ _ _ := Option.map_id'.symm

/-- A mark in front is one token more. -/
theorem cons (hmark : IsMark c t) (h : Lexes w ts) : Lexes (c :: w) (t :: ts) where
  length_le := Nat.succ_le_succ h.length_le
  read n rest hrest := by
    change tokensUpTo (n + ts.length + 1) (c :: (w ++ rest)) = _
    rw [tokensUpTo_cons hmark.not_gap (hmark.read _), h.read n rest hrest, Option.map_map]
    rfl

/-- A text with one token. -/
theorem single (hgap : isGap c = false)
    (hread : ∀ rest, StopsAt isNumberChar rest → token? (c :: w ++ rest) = some (t, rest)) :
    Lexes (c :: w) [t] where
  length_le := Nat.succ_le_succ (Nat.zero_le _)
  read n rest hrest := tokensUpTo_cons hgap (hread rest hrest) n

/-- **Texts around a mark are cut on their own.** -/
theorem append (h : Lexes w ts) (hmark : IsMark c t) (h' : Lexes u us) :
    Lexes (w ++ c :: u) (ts ++ t :: us) where
  length_le := by
    have hfirst := h.length_le
    have hsecond := h'.length_le
    simp only [List.length_append, List.length_cons]
    omega
  read n rest hrest := by
    have hstop : StopsAt isNumberChar (c :: (u ++ rest)) := by
      rintro _ ⟨⟩
      exact hmark.not_number
    -- The fuel is enough for what is behind the mark once the first text has used its share.
    have hsize : n + (ts ++ t :: us).length = (n + us.length + 1) + ts.length := by
      simp only [List.length_append, List.length_cons]
      omega
    rw [hsize, List.append_assoc, List.cons_append, h.read _ _ hstop,
      tokensUpTo_cons hmark.not_gap (hmark.read _), h'.read n rest hrest, Option.map_map, Option.map_map]
    congr 1
    funext l
    simp

end Lexes

/-- Brackets, braces, commas and colons are tokens on their own. -/
theorem isMark_openArray : IsMark '[' .openArray := ⟨rfl, rfl, fun _ => rfl⟩

theorem isMark_closeArray : IsMark ']' .closeArray := ⟨rfl, rfl, fun _ => rfl⟩

theorem isMark_openObject : IsMark '{' .openObject := ⟨rfl, rfl, fun _ => rfl⟩

theorem isMark_closeObject : IsMark '}' .closeObject := ⟨rfl, rfl, fun _ => rfl⟩

theorem isMark_comma : IsMark ',' .comma := ⟨rfl, rfl, fun _ => rfl⟩

theorem isMark_colon : IsMark ':' .colon := ⟨rfl, rfl, fun _ => rfl⟩

/-- A quoted text is one token. -/
theorem lexes_quoted (s : String) : Lexes (quoted s) [.leaf (.str s)] := by
  unfold quoted
  rw [List.cons_append]
  refine Lexes.single rfl fun rest _ => ?_
  rw [List.cons_append, List.append_assoc, List.singleton_append, token?, quotedTail?_quoteChars,
    Option.map_some, String.ofList_toList]

/-- A number is one token. -/
theorem lexes_intChars {n : Int} (hn : IsWord n) : Lexes (intChars n) [.leaf (.int n)] := by
  obtain ⟨c, s, htext, hc⟩ := exists_mark_intChars n
  rw [htext]
  refine Lexes.single ?_ fun rest hrest => ?_
  -- The first character is no gap: a sign or a digit.
  · rcases hc with rfl | hdigit
    · rfl
    · rw [Bool.eq_false_iff]
      intro hgap
      unfold isGap at hgap
      simp only [Bool.or_eq_true, beq_iff_eq] at hgap
      obtain ((rfl | rfl) | rfl) | rfl := hgap <;> cases hdigit
  · rw [← htext]
    exact token?_intChars hrest hn

/-- The items of an array are cut at the commas between them. -/
theorem lexes_compactItems {items : List Json} (h : ∀ v ∈ items, Lexes (compactChars v) v.tokens) :
    Lexes (compactItems items) (itemTokens items) := by
  -- By induction on the items: an item ends at the comma behind it.
  induction items with
  | nil => exact Lexes.nil
  | cons v rest ih =>
    obtain ⟨hv, hrest⟩ := List.forall_mem_cons.1 h
    cases rest with
    | nil =>
      rw [compactItems, itemTokens]
      exact hv
    | cons w rest =>
      rw [compactItems, itemTokens]
      exact hv.append isMark_comma (ih hrest)

/-- So are the fields of an object. -/
theorem lexes_compactFields {fields : List (String × Json)}
    (h : ∀ f ∈ fields, Lexes (compactChars f.2) f.2.tokens) :
    Lexes (compactFields fields) (fieldTokens fields) := by
  -- As for items, where each field is a name, a colon and a value.
  induction fields with
  | nil => exact Lexes.nil
  | cons f rest ih =>
    obtain ⟨k, v⟩ := f
    obtain ⟨hv, hrest⟩ := List.forall_mem_cons.1 h
    have hfield := (lexes_quoted k).append isMark_colon hv
    cases rest with
    | nil =>
      rw [compactFields, fieldTokens]
      exact hfield
    | cons f rest =>
      rw [compactFields, fieldTokens]
      exact hfield.append isMark_comma (ih hrest)

/-- **The text of a value is cut into the tokens of the value.** -/
theorem Regular.lexes {v : Json} (h : v.Regular) : Lexes (compactChars v) v.tokens := by
  -- By induction on the regular value.
  induction h with
  | null => exact Lexes.single rfl fun _ _ => rfl
  | bool b =>
    cases b
    · exact Lexes.single rfl fun _ _ => rfl
    · exact Lexes.single rfl fun _ _ => rfl
  | int hn => exact lexes_intChars hn
  | str s => exact lexes_quoted s
  | arr hitems ih =>
    rw [compactChars, tokens]
    exact ((lexes_compactItems ih).cons isMark_openArray).append isMark_closeArray Lexes.nil
  | obj hnames hfields ih =>
    rw [compactChars, tokens]
    exact ((lexes_compactFields ih).cons isMark_openObject).append isMark_closeObject Lexes.nil

/-- **The text of a value is cut into its tokens.** -/
theorem tokens?_compactChars {v : Json} (h : v.Regular) : tokens? (compactChars v) = some v.tokens := by
  obtain ⟨n, hn⟩ := Nat.exists_eq_add_of_le' h.lexes.length_le
  have hread := h.lexes.read n [] (by rintro _ ⟨⟩)
  rw [List.append_nil, ← hn] at hread
  have hnil : tokensUpTo n [] = some [] := by cases n <;> rfl
  rw [tokens?, hread, hnil, Option.map_some, List.append_nil]

/-! ### Values from tokens -/

mutual

/-- **The normal form of a value**: the fields of every object in the order of their names, the last of
several of one name. -/
def normal : Json → Json
  | .arr items => .arr (normalItems items)
  | .obj fields => .obj (Keyed.ofList (normalFields fields)).entries
  | v => v

/-- The normal forms of the items of an array. -/
def normalItems : List Json → List Json
  | [] => []
  | v :: rest => normal v :: normalItems rest

/-- The fields of an object with the normal forms of their values. -/
def normalFields : List (String × Json) → List (String × Json)
  | [] => []
  | (k, v) :: rest => (k, normal v) :: normalFields rest

end

theorem normalItems_eq_map (items : List Json) : normalItems items = items.map normal := by
  induction items with
  | nil => rfl
  | cons v rest ih => rw [normalItems, ih, List.map_cons]

theorem normalFields_eq_map (fields : List (String × Json)) :
    normalFields fields = fields.map fun f => (f.1, f.2.normal) := by
  induction fields with
  | nil => rfl
  | cons f rest ih => rw [normalFields, ih, List.map_cons]

theorem insertField_eq_insertEntry (k : String) (v : Json) (fields : List (String × Json)) :
    insertField k v fields = Keyed.insertEntry k v fields := by
  induction fields with
  | nil => rfl
  | cons f rest ih =>
    obtain ⟨j, w⟩ := f
    rw [insertField, Keyed.insertEntry, ih]

/-- Fields that are entered one after the other make the map of their list. -/
theorem foldl_insertField (fields : List (String × Json)) (m : Keyed Json) :
    fields.foldl (fun l f => insertField f.1 f.2 l) m.entries
      = (fields.foldl (fun m f => m.insert f.1 f.2) m).entries := by
  induction fields generalizing m with
  | nil => rfl
  | cons f rest ih =>
    rw [List.foldl_cons, List.foldl_cons, insertField_eq_insertEntry]
    exact ih (m.insert f.1 f.2)

/-- Where a value may come. -/
inductive Expect.TakesValue : Expect → Prop
  | value : TakesValue .value
  | valueOrClose : TakesValue .valueOrClose

/-- Where a key may come. -/
inductive Expect.TakesKey : Expect → Prop
  | key : TakesKey .key
  | keyOrClose : TakesKey .keyOrClose

/-- **The tokens of a value deliver its normal form** to whatever is open around them. -/
def Delivers (v : Json) : Prop :=
  ∀ stack e ts, Expect.TakesValue e →
    fold stack e (v.tokens ++ ts) = fold (deliver v.normal stack).1 (deliver v.normal stack).2 ts

/-- A value that is one token delivers itself. -/
theorem delivers_leaf {v : Json} (htokens : v.tokens = [.leaf v]) (hnormal : v.normal = v) : Delivers v := by
  intro stack e ts he
  rw [htokens, hnormal]
  cases he <;> rfl

/-- The tokens of items put their normal forms into the open array. -/
theorem fold_itemTokens {v : Json} {rest : List Json} (h : ∀ w ∈ v :: rest, Delivers w)
    (stack : List Frame) (done : List Json) {e : Expect} (he : e.TakesValue) (ts : List Token) :
    fold (.array done :: stack) e (itemTokens (v :: rest) ++ ts)
      = fold (.array ((normalItems (v :: rest)).reverse ++ done) :: stack) .commaOrClose ts := by
  -- By induction on the items that follow, for whatever has been done before.
  induction rest generalizing v done e with
  | nil =>
    rw [itemTokens, h v List.mem_cons_self _ _ _ he]
    rfl
  | cons w rest ih =>
    obtain ⟨hv, hrest⟩ := List.forall_mem_cons.1 h
    rw [itemTokens, List.append_assoc, hv _ _ _ he]
    -- The comma asks for the next item.
    change fold (.array (v.normal :: done) :: stack) .value (itemTokens (w :: rest) ++ ts) = _
    have hnormal : normalItems (v :: w :: rest) = v.normal :: normalItems (w :: rest) := by rw [normalItems]
    rw [ih hrest (v.normal :: done) .value, hnormal, List.reverse_cons, List.append_assoc,
      List.singleton_append]

/-- A key and its colon wait for the value. -/
theorem fold_key (stack : List Frame) (done : List (String × Json)) (k : String) {v : Json} (hv : Delivers v)
    {e : Expect} (he : e.TakesKey) (ts : List Token) :
    fold (.object done :: stack) e (.leaf (.str k) :: .colon :: v.tokens ++ ts)
      = fold (.object (insertField k v.normal done) :: stack) .commaOrClose ts := by
  refine Eq.trans ?_ (hv (.entry done k :: stack) .value ts .value)
  cases he <;> rfl

/-- The tokens of fields put the normal forms of their values into the open object. -/
theorem fold_fieldTokens {f : String × Json} {rest : List (String × Json)}
    (h : ∀ g ∈ f :: rest, Delivers g.2) (stack : List Frame) (done : List (String × Json)) {e : Expect}
    (he : e.TakesKey) (ts : List Token) :
    fold (.object done :: stack) e (fieldTokens (f :: rest) ++ ts)
      = fold (.object ((normalFields (f :: rest)).foldl (fun l g => insertField g.1 g.2 l) done) :: stack)
          .commaOrClose ts := by
  -- By induction on the fields that follow, which are entered by their names.
  induction rest generalizing f done e with
  | nil =>
    obtain ⟨k, v⟩ := f
    rw [fieldTokens, fold_key stack done k (h (k, v) List.mem_cons_self) he]
    rfl
  | cons g rest ih =>
    obtain ⟨k, v⟩ := f
    obtain ⟨hv, hrest⟩ := List.forall_mem_cons.1 h
    rw [fieldTokens, List.append_assoc, fold_key stack done k hv he]
    change fold (.object (insertField k v.normal done) :: stack) .key (fieldTokens (g :: rest) ++ ts) = _
    have hnormal : normalFields ((k, v) :: g :: rest) = (k, v.normal) :: normalFields (g :: rest) := by
      rw [normalFields]
    rw [ih hrest (insertField k v.normal done) .key, hnormal, List.foldl_cons]

/-- **The tokens of a regular value deliver its normal form.** -/
theorem Regular.delivers {v : Json} (h : v.Regular) : Delivers v := by
  -- By induction on the value. An array or object is opened, takes in what it holds and is closed.
  induction h with
  | null => exact delivers_leaf rfl rfl
  | bool b => exact delivers_leaf rfl rfl
  | int hn => exact delivers_leaf rfl rfl
  | str s => exact delivers_leaf rfl rfl
  | @arr items hitems ih =>
    intro stack e ts he
    have hopen : ∀ us, fold stack e (.openArray :: us) = fold (.array [] :: stack) .valueOrClose us := by
      intro us
      cases he <;> rfl
    rw [tokens, normal, List.append_assoc, List.cons_append, hopen]
    cases items with
    | nil => rfl
    | cons v rest =>
      rw [fold_itemTokens ih _ _ .valueOrClose, List.append_nil]
      change fold (deliver (.arr (normalItems (v :: rest)).reverse.reverse) stack).1
        (deliver (.arr (normalItems (v :: rest)).reverse.reverse) stack).2 ts = _
      rw [List.reverse_reverse]
  | @obj fields hnames hfields ih =>
    intro stack e ts he
    have hopen : ∀ us, fold stack e (.openObject :: us) = fold (.object [] :: stack) .keyOrClose us := by
      intro us
      cases he <;> rfl
    rw [tokens, normal, List.append_assoc, List.cons_append, hopen]
    cases fields with
    | nil => rfl
    | cons f rest =>
      rw [fold_fieldTokens ih _ _ .keyOrClose, Keyed.ofList, ← foldl_insertField]
      rfl

/-- **A text that was written is read back**, with the fields of its objects in the order of their names. -/
theorem read?_compactChars {v : Json} (h : v.Regular) : read? (compactChars v) = some v.normal := by
  have hfold := h.delivers [] .value [] .value
  rw [List.append_nil] at hfold
  rw [read?, tokens?_compactChars h]
  exact hfold

end CodeAtlas.Json
