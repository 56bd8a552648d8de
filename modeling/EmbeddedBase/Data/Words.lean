import EmbeddedBase.Data.BitField
import EmbeddedBase.Data.ByteRange

/-!
# Bytes in words

Memory seen as 32-bit little-endian words and as bytes.
-/

namespace EmbeddedBase.Data

/-- The bytes of a word, lowest first. -/
def wordBytes (word : BitVec 32) : List (BitVec 8) :=
  [word.extractLsb' 0 8, word.extractLsb' 8 8, word.extractLsb' 16 8, word.extractLsb' 24 8]

/-- The bytes of consecutive words. -/
def unpackWords (words : List (BitVec 32)) : List (BitVec 8) :=
  words.flatMap wordBytes

/-- The words made of the listed bytes; one to three bytes left over are dropped. -/
def packWords : List (BitVec 8) → List (BitVec 32)
  | b0 :: b1 :: b2 :: b3 :: bytes => (b3 ++ b2 ++ b1 ++ b0) :: packWords bytes
  | _ => []

@[simp]
theorem length_unpackWords (words : List (BitVec 32)) :
    (unpackWords words).length = 4 * words.length := by
  induction words with
  | nil => rfl
  | cons word words ih =>
      change (wordBytes word ++ unpackWords words).length = _
      rw [List.length_append, ih, List.length_cons]
      change 4 + _ = _
      omega

/-- Two bytes put together as C does it. -/
theorem toNat_shift_or (high low : BitVec 8) :
    (high.setWidth 16 <<< 8 ||| low.setWidth 16).toNat = high.toNat * 256 + low.toNat := by
  have appended : high.setWidth 16 <<< 8 ||| low.setWidth 16 = high ++ low := by
    apply BitVec.eq_of_getLsbD_eq
    intro i small
    rw [BitVec.getLsbD_or, BitVec.getLsbD_shiftLeft, BitVec.getLsbD_append,
      BitVec.getLsbD_setWidth, BitVec.getLsbD_setWidth]
    by_cases lower : i < 8
    · simp [lower, small]
    · have upper : i - 8 < 16 := by omega
      have beyond : low.getLsbD i = false := BitVec.getLsbD_of_ge _ _ (by omega)
      simp [lower, small, upper, beyond]
  rw [appended, toNat_append_eq_add, show 2 ^ 8 = 256 from rfl]

theorem wordBytes_append (b0 b1 b2 b3 : BitVec 8) :
    wordBytes (b3 ++ b2 ++ b1 ++ b0) = [b0, b1, b2, b3] := by
  have value : (b3 ++ b2 ++ b1 ++ b0).toNat =
      ((b3.toNat * 2 ^ 8 + b2.toNat) * 2 ^ 8 + b1.toNat) * 2 ^ 8 + b0.toNat := by
    simp only [toNat_append_eq_add]
  have byte (start : Nat) (b : BitVec 8)
      (digit : (b3 ++ b2 ++ b1 ++ b0).toNat / 2 ^ start % 2 ^ 8 = b.toNat) :
      (b3 ++ b2 ++ b1 ++ b0).extractLsb' start 8 = b := by
    apply BitVec.eq_of_toNat_eq
    rw [BitVec.extractLsb'_toNat, Nat.shiftRight_eq_div_pow, digit]
  have small0 := b0.isLt
  have small1 := b1.isLt
  have small2 := b2.isLt
  have small3 := b3.isLt
  rw [wordBytes, byte 0 b0 (by omega), byte 8 b1 (by omega), byte 16 b2 (by omega),
    byte 24 b3 (by omega)]

/-- Whole words of bytes survive packing. -/
theorem unpackWords_packWords {bytes : List (BitVec 8)} {count : Nat}
    (whole : bytes.length = 4 * count) : unpackWords (packWords bytes) = bytes := by
  induction count generalizing bytes with
  | zero =>
      cases List.length_eq_zero_iff.mp whole
      rfl
  | succ count ih =>
      match bytes, whole with
      | b0 :: b1 :: b2 :: b3 :: bytes, whole =>
          simp only [List.length_cons] at whole
          change wordBytes (b3 ++ b2 ++ b1 ++ b0) ++ unpackWords (packWords bytes) = _
          rw [wordBytes_append, ih (by omega)]
          rfl

/-- Words survive being taken apart into bytes. -/
theorem packWords_unpackWords (words : List (BitVec 32)) :
    packWords (unpackWords words) = words := by
  induction words with
  | nil => rfl
  | cons word words ih =>
      have bytes : word.extractLsb' 24 8 ++ word.extractLsb' 16 8 ++ word.extractLsb' 8 8 ++
          word.extractLsb' 0 8 = word := by
        apply BitVec.eq_of_toNat_eq
        have small := word.isLt
        simp only [toNat_append_eq_add, BitVec.extractLsb'_toNat, Nat.shiftRight_eq_div_pow]
        omega
      change (_ ++ _ ++ _ ++ _) :: packWords (unpackWords words) = _
      rw [bytes, ih]

/-- `memcpy` of `bytes` to the start of an array of words. -/
def copyIntoWords (words : List (BitVec 32)) (bytes : List (BitVec 8)) : List (BitVec 32) :=
  packWords (splice (unpackWords words) 0 bytes)

theorem unpackWords_copyIntoWords {words : List (BitVec 32)} {bytes : List (BitVec 8)}
    (fits : bytes.length ≤ 4 * words.length) :
    unpackWords (copyIntoWords words bytes) =
      bytes ++ (unpackWords words).drop bytes.length := by
  have spliced : splice (unpackWords words) 0 bytes =
      bytes ++ (unpackWords words).drop bytes.length := by
    simp [splice]
  rw [copyIntoWords, spliced]
  apply unpackWords_packWords
  rw [List.length_append, List.length_drop, length_unpackWords, Nat.add_sub_cancel' fits]

theorem length_copyIntoWords {words : List (BitVec 32)} {bytes : List (BitVec 8)}
    (fits : bytes.length ≤ 4 * words.length) :
    (copyIntoWords words bytes).length = words.length := by
  have lengths := length_unpackWords (copyIntoWords words bytes)
  rw [unpackWords_copyIntoWords fits, List.length_append, List.length_drop,
    length_unpackWords] at lengths
  omega

/-- The copied bytes can be read back. -/
theorem take_unpackWords_copyIntoWords {words : List (BitVec 32)} {bytes : List (BitVec 8)}
    (fits : bytes.length ≤ 4 * words.length) :
    (unpackWords (copyIntoWords words bytes)).take bytes.length = bytes := by
  rw [unpackWords_copyIntoWords fits, List.take_left]

end EmbeddedBase.Data
