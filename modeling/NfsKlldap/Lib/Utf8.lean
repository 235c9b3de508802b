import Mathlib

/-! # Texts as UTF-8

* **`encode_injective`** — different texts have different bytes;
* **`length_encodeChar_byte`** — a byte that is taken for a character is encoded in two bytes unless it
  is ASCII. -/

namespace NfsKlldap

namespace Utf8

/-- The UTF-8 bytes of a text. -/
def encode (s : List Char) : List UInt8 := s.flatMap String.utf8EncodeChar

/-- A concatenation is encoded piece by piece. -/
@[simp] theorem encode_append (s t : List Char) : encode (s ++ t) = encode s ++ encode t :=
  List.flatMap_append

/-- Different texts are encoded differently. -/
theorem encode_injective : Function.Injective encode := by
  intro s t h
  refine String.ofList_injective (String.toByteArray_inj.mp ?_)
  rw [String.toByteArray_ofList, String.toByteArray_ofList]
  exact congrArg List.toByteArray h

/-! ## Single characters -/

/-- An ASCII character is encoded as its own byte. -/
theorem encodeChar_ascii {c : Char} (h : c.toNat < 128) :
    String.utf8EncodeChar c = [UInt8.ofNat c.toNat] := by
  rw [Char.toNat] at h ⊢
  simp only [String.utf8EncodeChar]
  rw [if_pos (by omega)]

/-- The bytes of a character beyond ASCII are beyond ASCII, and below the two that no text holds. -/
theorem le_of_mem_encodeChar {c : Char} (h : 128 ≤ c.toNat) {b : UInt8}
    (hb : b ∈ String.utf8EncodeChar c) : 128 ≤ b.toNat ∧ b.toNat < 254 := by
  rw [Char.toNat] at h
  simp only [String.utf8EncodeChar] at hb
  rw [if_neg (by omega)] at hb
  split at hb
  · simp only [List.mem_cons, List.not_mem_nil, or_false] at hb
    rcases hb with rfl | rfl
    all_goals rw [UInt8.toNat_ofNat']; omega
  · split at hb
    · simp only [List.mem_cons, List.not_mem_nil, or_false] at hb
      rcases hb with rfl | rfl | rfl
      all_goals rw [UInt8.toNat_ofNat']; omega
    · simp only [List.mem_cons, List.not_mem_nil, or_false] at hb
      rcases hb with rfl | rfl | rfl | rfl
      all_goals rw [UInt8.toNat_ofNat']; omega

/-- `0xFF` is in no text. -/
theorem not_mem_encode (s : List Char) : (0xFF : UInt8) ∉ encode s := by
  intro hmem
  obtain ⟨c, -, hc⟩ := List.mem_flatMap.mp hmem
  by_cases h : c.toNat < 128
  · rw [encodeChar_ascii h, List.mem_singleton] at hc
    have hnat := congrArg UInt8.toNat hc
    rw [UInt8.toNat_ofNat'] at hnat
    have h255 : (0xFF : UInt8).toNat = 255 := rfl
    omega
  · exact absurd (le_of_mem_encodeChar (by omega) hc).2 (by decide)

/-- A text is ASCII when its bytes are. -/
theorem ascii_iff {s : List Char} :
    (∀ b ∈ encode s, b.toNat < 128) ↔ ∀ c ∈ s, c.toNat < 128 := by
  constructor
  · intro h c hc
    by_contra hge
    have hne : String.utf8EncodeChar c ≠ [] := by
      rw [← List.length_pos_iff, String.length_utf8EncodeChar]
      exact c.utf8Size_pos
    obtain ⟨b, hb⟩ := List.exists_mem_of_ne_nil _ hne
    have hlt := h b (List.mem_flatMap.mpr ⟨c, hc, hb⟩)
    have hle := (le_of_mem_encodeChar (by omega) hb).1
    omega
  · intro h b hb
    obtain ⟨c, hc, hmem⟩ := List.mem_flatMap.mp hb
    have hc := h c hc
    rw [encodeChar_ascii hc, List.mem_singleton] at hmem
    rw [hmem, UInt8.toNat_ofNat']
    omega

/-! ## Bytes taken for characters -/

/-- A byte taken as a character has its own number. -/
theorem toNat_ofNat_byte (b : UInt8) : (Char.ofNat b.toNat).toNat = b.toNat := by
  have hb := b.toNat_lt
  have hvalid : b.toNat.isValidChar := Or.inl (by omega)
  rw [Char.ofNat, dif_pos hvalid]
  rfl

/-- An ASCII byte is the encoding of the character with its number. -/
theorem encodeChar_byte {b : UInt8} (h : b.toNat < 128) :
    String.utf8EncodeChar (Char.ofNat b.toNat) = [b] := by
  rw [encodeChar_ascii (by rwa [toNat_ofNat_byte]), toNat_ofNat_byte, UInt8.ofNat_toNat]

/-- A byte taken as a character is encoded in one byte below 128, and in two from there on. -/
theorem length_encodeChar_byte (b : UInt8) :
    (String.utf8EncodeChar (Char.ofNat b.toNat)).length = if b.toNat < 128 then 1 else 2 := by
  split
  · next h => rw [encodeChar_byte h, List.length_singleton]
  · next h =>
    have hb := b.toNat_lt
    have hnat := toNat_ofNat_byte b
    rw [Char.toNat] at hnat
    simp only [String.utf8EncodeChar]
    rw [if_neg (by omega), if_pos (by omega)]
    rfl

end Utf8

end NfsKlldap
