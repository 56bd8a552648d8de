import EmbeddedBase.Data.Text

/-!
# Texts as bytes

The UTF-8 encoding of a text, and Python's decoding of bytes that ignores what is no encoding.
-/

namespace EmbeddedBase.Data

/-- `str.encode('utf-8')`. -/
def encode (text : Text) : List UInt8 :=
  text.flatMap String.utf8EncodeChar

/-- `bytes.decode('utf-8', errors='ignore')`.  Where no character starts, a byte is skipped. -/
def decode : List UInt8 → Text
  | [] => []
  | byte :: bytes =>
      match (byte :: bytes).toByteArray.utf8DecodeChar? 0 with
      | some char => char :: decode (bytes.drop (char.utf8Size - 1))
      | none => decode bytes
termination_by bytes => bytes.length

@[simp]
theorem encode_append (front back : Text) : encode (front ++ back) = encode front ++ encode back :=
  List.flatMap_append

@[simp]
theorem encode_nil : encode [] = [] :=
  rfl

theorem encode_cons (char : Char) (text : Text) :
    encode (char :: text) = String.utf8EncodeChar char ++ encode text :=
  List.flatMap_cons

/-- An encoded text is decoded. -/
@[simp]
theorem decode_encode (text : Text) : decode (encode text) = text := by
  induction text with
  | nil => rw [encode_nil, decode]
  | cons char text ih =>
      have size : (String.utf8EncodeChar char).length = char.utf8Size :=
        String.length_utf8EncodeChar char
      have first : (encode (char :: text)).toByteArray.utf8DecodeChar? 0 = some char := by
        rw [encode_cons, List.toByteArray_append]
        exact ByteArray.utf8DecodeChar?_utf8EncodeChar_append
      rw [encode_cons] at first ⊢
      rcases List.exists_cons_of_length_pos (size ▸ char.utf8Size_pos) with ⟨byte, bytes, shape⟩
      rw [shape, List.length_cons] at size
      rw [shape, List.cons_append] at first ⊢
      rw [decode, first]
      dsimp only
      rw [List.drop_left' (by omega), ih]

/-- A character of ASCII is one byte. -/
theorem utf8EncodeChar_ascii {char : Char} (ascii : char.toNat < 128) :
    String.utf8EncodeChar char = [char.toUInt8] := by
  have small : char.val.toNat ≤ 0x7f := Nat.le_of_lt_succ ascii
  rw [String.utf8EncodeChar, if_pos small]
  rfl

/-- The bytes of the other characters are none of ASCII. -/
theorem le_of_mem_utf8EncodeChar {char : Char} (other : 128 ≤ char.toNat) {byte : UInt8}
    (member : byte ∈ String.utf8EncodeChar char) : 128 ≤ byte.toNat := by
  have large : ¬char.val.toNat ≤ 0x7f := Nat.not_le.mpr other
  have bound : char.val.toNat < 0x110000 := by
    rcases char.valid with low | high
    · exact low.trans (by decide)
    · exact high.2
  have value {n : Nat} (small : n < 256) (high : 128 ≤ n) (same : byte = UInt8.ofNat n) :
      128 ≤ byte.toNat := by
    rwa [same, UInt8.toNat_ofNat_of_lt' small]
  rw [String.utf8EncodeChar, if_neg large] at member
  split at member
  · simp only [List.mem_cons, List.not_mem_nil, or_false] at member
    rcases member with same | same
    · exact value (by omega) (by omega) same
    · exact value (by omega) (by omega) same
  · split at member
    · simp only [List.mem_cons, List.not_mem_nil, or_false] at member
      rcases member with same | same | same
      · exact value (by omega) (by omega) same
      · exact value (by omega) (by omega) same
      · exact value (by omega) (by omega) same
    · simp only [List.mem_cons, List.not_mem_nil, or_false] at member
      rcases member with same | same | same | same
      · exact value (by omega) (by omega) same
      · exact value (by omega) (by omega) same
      · exact value (by omega) (by omega) same
      · exact value (by omega) (by omega) same

theorem toNat_toUInt8 {char : Char} (ascii : char.toNat < 128) :
    char.toUInt8.toNat = char.toNat := by
  have small : char.toNat < 256 := by omega
  exact Nat.mod_eq_of_lt small

/-- A character of ASCII is in the encodings of the texts that have it. -/
theorem toUInt8_mem_utf8EncodeChar_iff {char other : Char} (ascii : char.toNat < 128) :
    char.toUInt8 ∈ String.utf8EncodeChar other ↔ char = other := by
  have value := toNat_toUInt8 ascii
  constructor
  · intro member
    by_cases small : other.toNat < 128
    · rw [utf8EncodeChar_ascii small, List.mem_singleton] at member
      have same : char.toNat = other.toNat := by
        rw [← value, member, toNat_toUInt8 small]
      exact Char.toNat_inj.mp same
    · have high := le_of_mem_utf8EncodeChar (Nat.not_lt.mp small) member
      omega
  · rintro rfl
    rw [utf8EncodeChar_ascii ascii]
    exact List.mem_singleton_self _

theorem toUInt8_mem_encode_iff {char : Char} (ascii : char.toNat < 128) {text : Text} :
    char.toUInt8 ∈ encode text ↔ char ∈ text := by
  rw [encode, List.mem_flatMap]
  constructor
  · rintro ⟨other, member, byte⟩
    rwa [(toUInt8_mem_utf8EncodeChar_iff ascii).mp byte]
  · intro member
    exact ⟨char, member, (toUInt8_mem_utf8EncodeChar_iff ascii).mpr rfl⟩

end EmbeddedBase.Data
