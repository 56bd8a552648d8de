import Mathlib.Data.Nat.Bitwise
import Mathlib.Data.List.Basic

/-!
# Fields of bits, most significant bit first

A buffer of bytes is also a row of bits: bit `pos` is bit `7 - pos % 8` of byte
`pos / 8`, so the most significant bit of a byte comes first.  A field of width
`n` is read from such a row by shifting its bits in one after the other.  The
file relates reading a field to the binary digits of the number it holds, and
describes the effect of switching single bits of a byte buffer on.
-/

namespace EmbeddedBase.Data

/-! ## Reading a field -/

/-- The number whose `width` binary digits start at `start`, first digit most
significant. -/
def readField (bit : Nat → Bool) (start : Nat) : Nat → Nat
  | 0 => 0
  | width + 1 => 2 * readField bit start width + (bit (start + width)).toNat

theorem readField_lt (bit : Nat → Bool) (start width : Nat) :
    readField bit start width < 2 ^ width := by
  induction width with
  | zero => simp [readField]
  | succ width ih =>
      have digit : (bit (start + width)).toNat < 2 := Bool.toNat_lt _
      rw [readField, Nat.pow_succ]
      omega

/-- Digit `i` of the field, counted from the least significant end, is the bit
`width - 1 - i` places after its start. -/
theorem testBit_readField (bit : Nat → Bool) (start : Nat) {width i : Nat}
    (inside : i < width) :
    (readField bit start width).testBit i = bit (start + (width - 1 - i)) := by
  induction width generalizing i with
  | zero => omega
  | succ width ih =>
      cases i with
      | zero =>
          cases value : bit (start + width) <;>
            simp [readField, Nat.testBit_zero, value]
      | succ i =>
          have half : readField bit start (width + 1) / 2 = readField bit start width := by
            have digit : (bit (start + width)).toNat < 2 := Bool.toNat_lt _
            rw [readField]
            omega
          have place : width + 1 - 1 - (i + 1) = width - 1 - i := by omega
          rw [Nat.testBit_succ, half, ih (by omega), place]

/-- A field whose bits are the digits of `value` reads back as `value`. -/
theorem readField_eq_of_digits {bit : Nat → Bool} {start width value : Nat}
    (small : value < 2 ^ width)
    (digits : ∀ i, i < width → bit (start + i) = value.testBit (width - 1 - i)) :
    readField bit start width = value := by
  apply Nat.eq_of_testBit_eq
  intro i
  by_cases inside : i < width
  · rw [testBit_readField bit start inside, digits _ (by omega)]
    congr 1
    omega
  · have field_small : readField bit start width < 2 ^ i :=
      (readField_lt bit start width).trans_le (Nat.pow_le_pow_right (by omega) (by omega))
    have value_small : value < 2 ^ i :=
      small.trans_le (Nat.pow_le_pow_right (by omega) (by omega))
    rw [Nat.testBit_lt_two_pow field_small, Nat.testBit_lt_two_pow value_small]

/-- Reading depends only on the bits of the field. -/
theorem readField_congr {bit other : Nat → Bool} {start width : Nat}
    (agree : ∀ i, i < width → bit (start + i) = other (start + i)) :
    readField bit start width = readField other start width := by
  induction width with
  | zero => rfl
  | succ width ih =>
      rw [readField, readField, ih fun i inside => agree i (by omega),
        agree width (by omega)]

/-! ## Words made of fields -/

/-- A concatenation of two words as a number. -/
theorem toNat_append_eq_add {m n : Nat} (high : BitVec m) (low : BitVec n) :
    (high ++ low).toNat = high.toNat * 2 ^ n + low.toNat := by
  rw [BitVec.toNat_append, ← Nat.shiftLeft_add_eq_or_of_lt low.isLt, Nat.shiftLeft_eq]

/-! ## Byte buffers -/

/-- Bit `pos` of a byte buffer; positions past the end read as zero. -/
def bitAt (data : List (BitVec 8)) (pos : Nat) : Bool :=
  (data.getD (pos / 8) 0).getLsbD (7 - pos % 8)

/-- Switch bit `pos` on and leave every other bit alone. -/
def orBit (data : List (BitVec 8)) (pos : Nat) : List (BitVec 8) :=
  data.modify (pos / 8) fun byte => byte ||| 1#8 <<< (7 - pos % 8)

@[simp]
theorem length_orBit (data : List (BitVec 8)) (pos : Nat) :
    (orBit data pos).length = data.length :=
  List.length_modify _ _ _

/-- A shifted one has a single bit set. -/
theorem getLsbD_one_shiftLeft {width i : Nat} (inside : i < width) (j : Nat) :
    (BitVec.ofNat width 1 <<< i).getLsbD j = decide (i = j) := by
  rw [BitVec.getLsbD_shiftLeft, BitVec.getLsbD_one]
  by_cases equal : i = j
  · subst equal
    simp [inside]
    omega
  · by_cases below : j < i
    · simp [below, equal]
    · have positive : j - i ≠ 0 := by omega
      simp [equal, positive]

/-- Masking with a shifted one tests a single bit. -/
theorem and_one_shiftLeft_ne_zero_iff {width : Nat} (bits : BitVec width) {i : Nat}
    (inside : i < width) :
    bits &&& (BitVec.ofNat width 1 <<< i) ≠ BitVec.ofNat width 0 ↔ bits.getLsbD i = true := by
  constructor
  · intro nonzero
    by_contra unset
    apply nonzero
    apply BitVec.eq_of_getLsbD_eq
    intro j _
    rw [BitVec.getLsbD_and, getLsbD_one_shiftLeft inside]
    by_cases equal : i = j
    · subst equal
      simp [Bool.eq_false_iff.mpr unset]
    · simp [equal]
  · intro set zero
    have bit := congrArg (fun word => word.getLsbD i) zero
    simp [BitVec.getLsbD_and, getLsbD_one_shiftLeft inside, set] at bit

/-- Exactly the addressed bit of a buffer that contains it is switched on. -/
theorem bitAt_orBit {data : List (BitVec 8)} {pos : Nat} (inside : pos / 8 < data.length)
    (other : Nat) : bitAt (orBit data pos) other = (bitAt data other || decide (pos = other)) := by
  unfold bitAt orBit
  by_cases sameByte : pos / 8 = other / 8
  · rw [← sameByte, List.getD_eq_getElem _ _ (by simpa using inside), List.getElem_modify_eq,
      BitVec.getLsbD_or, getLsbD_one_shiftLeft (by omega),
      List.getD_eq_getElem _ _ inside]
    congr 1
    apply decide_eq_decide.mpr
    omega
  · have different : pos ≠ other := fun equal => sameByte (by rw [equal])
    simp [List.getD, sameByte, different]

/-- Clear the first `count` bytes of a buffer. -/
def zeroPrefix (data : List (BitVec 8)) (count : Nat) : List (BitVec 8) :=
  data.mapIdx fun i byte => if i < count then 0#8 else byte

@[simp]
theorem length_zeroPrefix (data : List (BitVec 8)) (count : Nat) :
    (zeroPrefix data count).length = data.length :=
  List.length_mapIdx

theorem bitAt_zeroPrefix (data : List (BitVec 8)) {count pos : Nat}
    (inside : pos < 8 * count) : bitAt (zeroPrefix data count) pos = false := by
  have byteInside : pos / 8 < count := by omega
  unfold bitAt zeroPrefix
  rw [List.getD_eq_getElem?_getD, List.getElem?_mapIdx]
  cases data[pos / 8]? with
  | none => simp
  | some byte => simp [byteInside]

end EmbeddedBase.Data
