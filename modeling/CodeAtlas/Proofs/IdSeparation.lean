import Mathlib.Data.List.Basic
import CodeAtlas.Proofs.StatementText
import CodeAtlas.Proofs.ImportLinks

/-!
# What ids keep apart

An id is the label of a kind in small letters, a colon, and the beginning of a digest. What is digested is
the label, the trimmed qualified name and the normal path, with a zero byte between them. Two questions
about this are kept apart here.

* What can be said *whatever the digest does*? The label is written in front, so nodes of different kinds
  never share an id; `digestId` is the id with the digest as a parameter. For one kind, ids are equal where
  the first eight bytes of the digests are.
* What can be said *about what is digested*? The zero byte after the label is the first one, since labels
  hold none, and the zero byte before the path is the last one, as long as paths hold none. So the name in
  the middle may hold whatever it likes, zero bytes too, and the three parts can still be told apart.

`nodeId_separates` puts the two together. A zero byte in a path does take the second part away: it can pass
for the one that ends the name.
-/

namespace CodeAtlas

/-! ### Texts as bytes -/

namespace Digest

/-- Bytes are read off an array with an accumulator that holds them the other way round. -/
theorem toList_loop (bytes : ByteArray) (i : Nat) (before : List UInt8) :
    ByteArray.toList.loop bytes i before = before.reverse ++ bytes.data.toList.drop i := by
  have hlength : bytes.data.toList.length = bytes.size := by
    rw [Array.length_toList, ByteArray.size_data]
  -- By the recursion of the loop, which goes up to the end of the array.
  induction i, before using ByteArray.toList.loop.induct bytes with
  | case1 i before hi ih =>
    have hbyte : bytes.get! i = bytes.data.toList[i] := by
      simp only [ByteArray.get!, Array.getElem_toList]
      exact getElem!_pos bytes.data i hi
    rw [ByteArray.toList.loop, if_pos hi, ih, List.reverse_cons, List.append_assoc, hbyte,
      List.singleton_append, List.getElem_cons_drop]
  | case2 i before hi =>
    rw [ByteArray.toList.loop, if_neg hi, List.drop_of_length_le (by omega), List.append_nil]

/-- **The bytes of a text are those of its characters.** -/
theorem utf8_eq (s : String) : utf8 s = s.toList.flatMap String.utf8EncodeChar := by
  have hlist : ∀ bytes : ByteArray, bytes.toList = bytes.data.toList := fun bytes =>
    toList_loop bytes 0 []
  calc utf8 s = (String.ofList s.toList).toByteArray.data.toList := by
        rw [String.ofList_toList]
        exact hlist s.toUTF8
    _ = s.toList.flatMap String.utf8EncodeChar := by
        rw [String.toByteArray_ofList, List.utf8Encode, List.data_toByteArray]

/-- Texts of the same bytes are equal. -/
theorem utf8_injective {s t : String} (h : utf8 s = utf8 t) : s = t := by
  rw [utf8_eq, utf8_eq] at h
  have hencode : s.toList.utf8Encode = t.toList.utf8Encode := by
    unfold List.utf8Encode
    rw [h]
  have hbytes : s.toByteArray = t.toByteArray := by
    rw [← String.ofList_toList (s := s), ← String.ofList_toList (s := t), String.toByteArray_ofList,
      String.toByteArray_ofList, hencode]
  exact String.toByteArray_inj.1 hbytes

/-- Only the zero character has a zero byte: the other bytes of a sequence are marked by their high bits. -/
theorem eq_zero_of_mem_utf8EncodeChar {c : Char} (h : 0 ∈ String.utf8EncodeChar c) : c = '\x00' := by
  -- Every byte of a longer character carries a mark in its upper bits.
  have hmark : ∀ n m, 0 < m → n + m < 256 → (0 : UInt8) ≠ UInt8.ofNat (n + m) := by
    intro n m hm hn hz
    have hnat : 0 = (n + m) % 256 := by simpa using congrArg UInt8.toNat hz
    omega
  unfold String.utf8EncodeChar at h
  dsimp only at h
  split at h
  · -- A character of one byte is that byte.
    rename_i hsmall
    have hbyte : (0 : UInt8) = UInt8.ofNat c.val.toNat := by simpa using h
    have hnat : 0 = c.val.toNat % 256 := by simpa using congrArg UInt8.toNat hbyte
    have hzero : c.toNat = 0 := by
      change c.val.toNat = 0
      omega
    rw [← Char.ofNat_toNat c, hzero]
  · exfalso
    split at h
    · simp (disch := omega) only [List.mem_cons, hmark, List.not_mem_nil, or_self] at h
    · split at h <;>
        simp (disch := omega) only [List.mem_cons, hmark, List.not_mem_nil, or_self] at h

/-- **A text without the zero character has no zero byte.** -/
theorem zero_notMem_utf8 {s : String} (h : '\x00' ∉ s.toList) : 0 ∉ utf8 s := by
  intro hzero
  rw [utf8_eq, List.mem_flatMap] at hzero
  obtain ⟨c, hc, hbyte⟩ := hzero
  exact h (eq_zero_of_mem_utf8EncodeChar hbyte ▸ hc)

/-- Different digits are written differently. -/
theorem hexDigit_injective {m n : Nat} (hm : m < 16) (hn : n < 16) (h : hexDigit m = hexDigit n) :
    m = n := by
  have hread := congrArg Text.hexDigitValue? h
  rw [Quoted.hexDigitValue?_hexDigit hm, Quoted.hexDigitValue?_hexDigit hn] at hread
  exact Option.some.inj hread

/-- **Bytes are read back from their digits.** -/
theorem hex_injective {bytes others : List UInt8} (h : hex bytes = hex others) : bytes = others := by
  -- Each byte takes two digits, so the two texts are read side by side.
  induction bytes generalizing others with
  | nil =>
    cases others with
    | nil => rfl
    | cons c others => cases h
  | cons b bytes ih =>
    cases others with
    | nil => cases h
    | cons c others =>
      obtain ⟨hhigh, htail⟩ := List.cons.inj h
      obtain ⟨hlow, hrest⟩ := List.cons.inj htail
      have hb := b.toNat_lt
      have hc := c.toNat_lt
      have hdiv : b.toNat / 16 = c.toNat / 16 := hexDigit_injective (by omega) (by omega) hhigh
      have hmod : b.toNat % 16 = c.toNat % 16 := hexDigit_injective (by omega) (by omega) hlow
      have hbyte : b = c := UInt8.toNat_inj.1 (by omega)
      rw [hbyte, ih hrest]

end Digest

/-! ### What is digested -/

section Separator

variable {α : Type} {a : α} {x y u v : List α}

/-- Two lists are told apart at the first mark. -/
theorem append_mark_inj (hx : a ∉ x) (hy : a ∉ y) :
    x ++ a :: u = y ++ a :: v ↔ x = y ∧ u = v := by
  refine ⟨fun h => ?_, fun ⟨hxy, huv⟩ => by rw [hxy, huv]⟩
  induction x generalizing y with
  | nil =>
    cases y with
    | nil => exact ⟨rfl, (List.cons.inj h).2⟩
    | cons c y =>
      -- The mark is over on the left, and the other list goes on with something else.
      have hne : a ≠ c := List.ne_of_not_mem_cons hy
      exact absurd (List.cons.inj h).1 hne
  | cons b x ih =>
    cases y with
    | nil =>
      have hne : a ≠ b := List.ne_of_not_mem_cons hx
      exact absurd (List.cons.inj h).1.symm hne
    | cons c y =>
      obtain ⟨hbc, htail⟩ := List.cons.inj h
      obtain ⟨hxy, huv⟩ := ih (List.not_mem_of_not_mem_cons hx) (List.not_mem_of_not_mem_cons hy) htail
      exact ⟨by rw [hbc, hxy], huv⟩

/-- Two lists are told apart at the last mark. -/
theorem append_lastMark_inj (hu : a ∉ u) (hv : a ∉ v) :
    x ++ a :: u = y ++ a :: v ↔ x = y ∧ u = v := by
  have hreverse : ∀ s t : List α, (s ++ a :: t).reverse = t.reverse ++ a :: s.reverse := by
    intro s t
    rw [List.reverse_append, List.reverse_cons, List.append_assoc, List.singleton_append]
  rw [← List.reverse_inj, hreverse, hreverse,
    append_mark_inj (mt List.mem_reverse.1 hu) (mt List.mem_reverse.1 hv), List.reverse_inj,
    List.reverse_inj, and_comm]

end Separator

/-- **Labels hold no zero character.** -/
theorem NodeKind.zero_notMem_label (k : NodeKind) : '\x00' ∉ k.label.toList := by
  intro hzero
  have hname : isNameChar '\x00' = true := NodeKind.isNameChar_of_mem_label k _ hzero
  exact absurd hname (by decide)

/-- **The normal form of a path brings in no zero character.** -/
theorem Path.zero_notMem_normalize {path : String} (h : '\x00' ∉ path.toList) :
    '\x00' ∉ (Path.normalize path).toList := by
  intro hzero
  unfold Path.normalize Text.strippedAll Text.exchange at hzero
  simp only [String.toList_ofList] at hzero
  -- What is stripped of repeated beginnings is an end of what was there.
  have hmap := (Text.stripUpTo_suffix _ _ _).mem hzero
  obtain ⟨c, hc, hcz⟩ := List.mem_map.1 hmap
  split at hcz
  · cases hcz
  · exact h (hcz ▸ hc)

/-- What is digested are three texts with a zero byte between them. -/
theorem idBytes_eq (k : NodeKind) (qualified path : String) :
    idBytes k qualified path = Digest.utf8 k.label
      ++ 0 :: (Digest.utf8 (Text.trimmed qualified) ++ 0 :: Digest.utf8 (Path.normalize path)) := by
  unfold idBytes
  simp only [List.append_assoc, List.cons_append, List.nil_append]

/-- **What is digested tells kind, name and path**, as long as paths hold no zero character. -/
theorem idBytes_inj {k₁ k₂ : NodeKind} {q₁ q₂ p₁ p₂ : String} (h₁ : '\x00' ∉ p₁.toList)
    (h₂ : '\x00' ∉ p₂.toList) :
    idBytes k₁ q₁ p₁ = idBytes k₂ q₂ p₂ ↔
      k₁ = k₂ ∧ Text.trimmed q₁ = Text.trimmed q₂ ∧ Path.normalize p₁ = Path.normalize p₂ := by
  -- The zero byte behind the label is the first one, and the one before the path is the last one.
  have hlabel : ∀ k : NodeKind, 0 ∉ Digest.utf8 k.label := fun k =>
    Digest.zero_notMem_utf8 k.zero_notMem_label
  have hpath₁ := Digest.zero_notMem_utf8 (Path.zero_notMem_normalize h₁)
  have hpath₂ := Digest.zero_notMem_utf8 (Path.zero_notMem_normalize h₂)
  have hutf8 : ∀ s t, Digest.utf8 s = Digest.utf8 t ↔ s = t := fun s t =>
    ⟨Digest.utf8_injective, congrArg Digest.utf8⟩
  have hkind : k₁.label = k₂.label ↔ k₁ = k₂ :=
    ⟨fun h => smallLabel_label_injective (congrArg smallLabel h), congrArg NodeKind.label⟩
  rw [idBytes_eq, idBytes_eq, append_mark_inj (hlabel k₁) (hlabel k₂), append_lastMark_inj hpath₁ hpath₂,
    hutf8, hutf8, hutf8, hkind]

/-! ### What is written -/

/-- **An id of which the digest is left open**: `nodeId` is the one with the 256-bit secure hash. -/
def digestId (digest : List UInt8 → List UInt8) (kind : NodeKind) (qualified path : String) : String :=
  String.ofList (smallLabel kind.label ++ ':' ::
    Digest.hex ((digest (idBytes kind qualified path)).take 8))

/-- **Ids are equal where the kinds are and the digests begin alike.** -/
theorem digestId_inj {digest : List UInt8 → List UInt8} {k₁ k₂ : NodeKind} {q₁ q₂ p₁ p₂ : String} :
    digestId digest k₁ q₁ p₁ = digestId digest k₂ q₂ p₂ ↔
      k₁ = k₂ ∧ (digest (idBytes k₁ q₁ p₁)).take 8 = (digest (idBytes k₂ q₂ p₂)).take 8 := by
  have hlabel : smallLabel k₁.label = smallLabel k₂.label ↔ k₁ = k₂ :=
    ⟨smallLabel_label_injective, fun h => by rw [h]⟩
  have hhex : ∀ s t, Digest.hex s = Digest.hex t ↔ s = t := fun s t =>
    ⟨Digest.hex_injective, congrArg Digest.hex⟩
  unfold digestId
  rw [String.ofList_inj, append_mark_inj (notMem_smallLabel k₁) (notMem_smallLabel k₂), hlabel, hhex]

/-- A path may be normalised before. -/
theorem digestId_normalize (digest : List UInt8 → List UInt8) (k : NodeKind) (qualified path : String) :
    digestId digest k qualified (Path.normalize path) = digestId digest k qualified path := by
  unfold digestId idBytes
  rw [Path.normalize_normalize]

/-- **What ids keep apart.** Whatever the digest does, nodes of different kinds have different ids, and
those of one kind share an id only if their digests begin alike. What is digested is the same for the same
kind, trimmed name and normal path only, as long as paths hold no zero character; names may hold some. And
a path may be brought into its normal form before. -/
theorem nodeId_separates :
    nodeId = digestId Digest.sha256 ∧
    (∀ (digest : List UInt8 → List UInt8) (k₁ k₂ : NodeKind) (q₁ q₂ p₁ p₂ : String),
      digestId digest k₁ q₁ p₁ = digestId digest k₂ q₂ p₂ ↔
        k₁ = k₂ ∧ (digest (idBytes k₁ q₁ p₁)).take 8 = (digest (idBytes k₂ q₂ p₂)).take 8) ∧
    (∀ (k₁ k₂ : NodeKind) (q₁ q₂ p₁ p₂ : String), '\x00' ∉ p₁.toList → '\x00' ∉ p₂.toList →
      (idBytes k₁ q₁ p₁ = idBytes k₂ q₂ p₂ ↔
        k₁ = k₂ ∧ Text.trimmed q₁ = Text.trimmed q₂ ∧ Path.normalize p₁ = Path.normalize p₂)) ∧
    ∀ (digest : List UInt8 → List UInt8) (k : NodeKind) (qualified path : String),
      digestId digest k qualified (Path.normalize path) = digestId digest k qualified path := by
  refine ⟨rfl, ?kinds, ?digested, digestId_normalize⟩
  case kinds => exact fun digest k₁ k₂ q₁ q₂ p₁ p₂ => digestId_inj
  case digested => exact fun k₁ k₂ q₁ q₂ p₁ p₂ h₁ h₂ => idBytes_inj h₁ h₂

/-- Names with zero characters: blanks around them and the spelling of the path make no difference, but the
zero character and what follows it does. -/
theorem nodeId_separates_zeroInName :
    idBytes ⟨.java, .plainClass⟩ " a\x00b " ".\\c" = idBytes ⟨.java, .plainClass⟩ "a\x00b" "c" ∧
    idBytes ⟨.java, .plainClass⟩ "a\x00b" "c" ≠ idBytes ⟨.java, .plainClass⟩ "a" "c" := by
  obtain ⟨-, -, hdigested, -⟩ := nodeId_separates
  constructor
  · exact (hdigested _ _ _ _ _ _ (by decide) (by decide)).2 (by decide +kernel)
  · rw [Ne, hdigested _ _ _ _ _ _ (by decide) (by decide)]
    decide +kernel

/-- A zero character in a path passes for the one that ends the name. -/
example : idBytes ⟨.java, .plainClass⟩ "a" "b\x00c" = idBytes ⟨.java, .plainClass⟩ "a\x00b" "c" := by
  decide +kernel

end CodeAtlas
