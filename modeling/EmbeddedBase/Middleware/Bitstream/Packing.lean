import EmbeddedBase.Middleware.Bitstream.Core
import Mathlib.Algebra.Order.Ring.Int
import Mathlib.Tactic.NormNum
import Mathlib.Tactic.Positivity

/-!
# What one packing call does

A well-formed stream has a buffer that holds its bytes, a capacity that fits in
a `size_t`, and only zeros behind its last field.  From such a stream a call
whose sum `total_bits + num_bits` does not wrap either refuses, or appends the
digits of the clamped value and leaves all earlier bits alone.
-/

namespace EmbeddedBase.Middleware.Bitstream

open EmbeddedBase.Data
open EmbeddedBase.Transition

/-! ## Clamping -/

namespace Call

/-- The argument as the number the C type gives it. -/
def arg : Call → Int
  | add value _ => value.toNat
  | addSigned value _ => value.toInt

/-- Least value of the field. -/
def lo : Call → Int
  | add _ _ => 0
  | addSigned _ numBits => -2 ^ (numBits - 1)

/-- Greatest value of the field. -/
def hi : Call → Int
  | add _ numBits => 2 ^ numBits - 1
  | addSigned _ numBits => 2 ^ (numBits - 1) - 1

/-- The argument lies outside the range of the field. -/
def Clamps (call : Call) : Prop :=
  call.arg < call.lo ∨ call.hi < call.arg

instance (call : Call) : Decidable call.Clamps :=
  inferInstanceAs (Decidable (_ ∨ _))

/-- The argument clamped to the range of the field. -/
def clamped (call : Call) : Int :=
  max call.lo (min call.hi call.arg)

/-- The number a field of `numBits` digits stands for: as it is for an unsigned
field, in two's complement for a signed one. -/
def decode : Call → Nat → Int
  | add _ _, field => field
  | addSigned _ numBits, field => (BitVec.ofNat numBits field).toInt

end Call

/-! ## The packing loop -/

variable {w : Nat}

@[simp]
theorem length_packLoop (bits : BitVec 32) (numBits totalBits : Nat)
    (data : List (BitVec 8)) (k : Nat) :
    (packLoop w bits numBits totalBits data k).length = data.length := by
  induction k with
  | zero => rfl
  | succ k ih =>
      simp only [packLoop]
      split
      · rw [length_orBit, ih]
      · exact ih

/-- After `k` iterations the digits of the value stand at `total_bits` and
after, ORed over the buffer, and nothing else has changed. -/
theorem bitAt_packLoop {bits : BitVec 32} {numBits totalBits k : Nat}
    {data : List (BitVec 8)} (width : numBits ≤ 32) (done : k ≤ numBits)
    (inside : totalBits + numBits ≤ 8 * data.length)
    (noWrap : totalBits + numBits ≤ 2 ^ w) (pos : Nat) :
    bitAt (packLoop w bits numBits totalBits data k) pos =
      (bitAt data pos ||
        decide (totalBits ≤ pos ∧ pos < totalBits + k) &&
          bits.getLsbD (numBits - 1 - (pos - totalBits))) := by
  induction k with
  | zero =>
      have outside : ¬(totalBits ≤ pos ∧ pos < totalBits + 0) := by omega
      simp only [packLoop, decide_eq_false outside, Bool.false_and, Bool.or_false]
  | succ k ih =>
      have before := ih (by omega)
      have index : (totalBits + k) % 2 ^ w = totalBits + k := Nat.mod_eq_of_lt (by omega)
      have digit : numBits - 1 - k < 32 := by omega
      have slot : (totalBits + k) / 8 < (packLoop w bits numBits totalBits data k).length := by
        rw [length_packLoop]
        omega
      by_cases here : pos = totalBits + k
      · -- Iteration `k` is the one that decides this position.
        have newly : ¬(totalBits ≤ pos ∧ pos < totalBits + k) := by omega
        have now : totalBits ≤ pos ∧ pos < totalBits + (k + 1) := by omega
        have offset : pos - totalBits = k := by omega
        rw [decide_eq_false newly, Bool.false_and, Bool.or_false] at before
        rw [decide_eq_true now, Bool.true_and, offset]
        simp only [packLoop, index]
        by_cases set : bits.getLsbD (numBits - 1 - k) = true
        · rw [if_pos ((and_one_shiftLeft_ne_zero_iff bits digit).mpr set), bitAt_orBit slot,
            before, set, here]
          simp
        · rw [if_neg fun other => set ((and_one_shiftLeft_ne_zero_iff bits digit).mp other),
            before, Bool.eq_false_iff.mpr set, Bool.or_false]
      · have window : (totalBits ≤ pos ∧ pos < totalBits + (k + 1)) ↔
            (totalBits ≤ pos ∧ pos < totalBits + k) := by omega
        rw [decide_eq_decide.mpr window, ← before]
        simp only [packLoop, index]
        split
        · rw [bitAt_orBit slot, decide_eq_false (Ne.symm here), Bool.or_false]
        · rfl

/-! ## The digits a call packs -/

namespace Call

/-- The clamped argument as the digits of a field, in two's complement when it
is negative. -/
def digits (call : Call) : Nat :=
  (call.clamped % 2 ^ call.numBits).toNat

theorem cast_digits (call : Call) : (call.digits : Int) = call.clamped % 2 ^ call.numBits :=
  Int.toNat_of_nonneg (Int.emod_nonneg _ (by positivity))

theorem digits_lt (call : Call) : call.digits < 2 ^ call.numBits := by
  have bound := Int.emod_lt_of_pos call.clamped (b := 2 ^ call.numBits) (by positivity)
  rw [← cast_digits] at bound
  exact_mod_cast bound

/-- Decoding the digits gives back the clamped argument. -/
theorem decode_digits {call : Call} (admissible : call.Admissible) :
    call.decode call.digits = call.clamped := by
  cases call with
  | add value numBits =>
      have power : (1 : Int) ≤ 2 ^ numBits := one_le_pow₀ (by norm_num)
      have nonneg : 0 ≤ (add value numBits).clamped := le_max_left _ _
      have below : (add value numBits).clamped < 2 ^ numBits := by
        simp only [clamped, lo, hi]
        omega
      simp only [decode, cast_digits]
      exact Int.emod_eq_of_lt nonneg below
  | addSigned value numBits =>
      have split : (2 : Int) ^ numBits = 2 * 2 ^ (numBits - 1) := by
        rw [← pow_succ', Nat.sub_add_cancel admissible.1]
      have power : (1 : Int) ≤ 2 ^ (numBits - 1) := one_le_pow₀ (by norm_num)
      have range : -2 ^ (numBits - 1) ≤ (addSigned value numBits).clamped ∧
          (addSigned value numBits).clamped < 2 ^ (numBits - 1) := by
        simp only [clamped, lo, hi]
        omega
      change (BitVec.ofNat numBits (addSigned value numBits).digits).toInt = _
      rw [BitVec.toInt_ofNat', cast_digits,
        show (2 : Int) ^ (addSigned value numBits).numBits = (2 ^ numBits : Nat) by
          push_cast; rfl,
        Int.emod_bmod]
      apply Int.bmod_eq_of_le
      · push_cast
        omega
      · push_cast
        omega

end Call

theorem clamps_add_iff (value : BitVec 32) (numBits : Nat) :
    (Call.add value numBits).Clamps ↔ 2 ^ numBits ≤ value.toNat := by
  have cast : ((2 ^ numBits : Nat) : Int) = 2 ^ numBits := by push_cast; rfl
  simp only [Call.Clamps, Call.arg, Call.lo, Call.hi, ← cast]
  omega

/-- The word `bitstream_add` packs holds the digits of the clamped argument. -/
theorem toNat_add_word (value : BitVec 32) (numBits : Nat) :
    (if decide (2 ^ numBits ≤ value.toNat) then BitVec.ofNat 32 (2 ^ numBits - 1)
      else value).toNat = (Call.add value numBits).digits := by
  have cast : ((2 ^ numBits : Nat) : Int) = 2 ^ numBits := by push_cast; rfl
  have power : 1 ≤ 2 ^ numBits := Nat.one_le_two_pow
  have small := value.isLt
  have inRange : (Call.add value numBits).clamped =
      ((min (2 ^ numBits - 1) value.toNat : Nat) : Int) := by
    simp only [Call.clamped, Call.lo, Call.hi, Call.arg, ← cast]
    omega
  have digits : (Call.add value numBits).digits = min (2 ^ numBits - 1) value.toNat := by
    have below : min (2 ^ numBits - 1) value.toNat < 2 ^ numBits := by omega
    apply Int.ofNat_inj.mp
    rw [Call.cast_digits, inRange]
    exact_mod_cast Nat.mod_eq_of_lt below
  rw [digits]
  by_cases large : 2 ^ numBits ≤ value.toNat
  · rw [if_pos (by simpa using large), BitVec.toNat_ofNat, Nat.mod_eq_of_lt (by omega)]
    omega
  · rw [if_neg (by simpa using large)]
    omega

/-! ### Signed words -/

/-- `max_value` and `min_value` at a shift that leaves room for the sign. -/
theorem toInt_maxValue {k : Nat} (room : k ≤ 30) :
    (((1#64 <<< k) - 1#64).setWidth 32).toInt = 2 ^ k - 1 := by
  have power : 2 ^ k ≤ 2 ^ 30 := Nat.pow_le_pow_right (by omega) room
  have positive : 1 ≤ 2 ^ k := Nat.one_le_two_pow
  have shifted : (1#64 <<< k).toNat = 2 ^ k := by
    rw [BitVec.toNat_shiftLeft, BitVec.toNat_ofNat, Nat.shiftLeft_eq]
    omega
  have word : (((1#64 <<< k) - 1#64).setWidth 32).toNat = 2 ^ k - 1 := by
    rw [BitVec.toNat_setWidth, BitVec.toNat_sub, shifted, BitVec.toNat_ofNat]
    omega
  rw [BitVec.toInt_eq_toNat_of_lt (by omega), word]
  push_cast [positive]
  rfl

theorem toInt_minValue {k : Nat} (room : k ≤ 30) :
    ((-(1#64 <<< k)).setWidth 32).toInt = -2 ^ k := by
  have power : 2 ^ k ≤ 2 ^ 30 := Nat.pow_le_pow_right (by omega) room
  have positive : 1 ≤ 2 ^ k := Nat.one_le_two_pow
  have shifted : (1#64 <<< k).toNat = 2 ^ k := by
    rw [BitVec.toNat_shiftLeft, BitVec.toNat_ofNat, Nat.shiftLeft_eq]
    omega
  have word : ((-(1#64 <<< k)).setWidth 32).toNat = 2 ^ 32 - 2 ^ k := by
    rw [BitVec.toNat_setWidth, BitVec.toNat_neg, shifted]
    omega
  rw [BitVec.toInt_eq_toNat_cond, word, if_neg (by omega)]
  have cast : ((2 ^ k : Nat) : Int) = 2 ^ k := by push_cast; rfl
  rw [← cast]
  omega

/-- A word and the number it stands for agree on their lowest digits. -/
theorem toNat_mod_eq_toInt_emod (word : BitVec 32) {numBits : Nat} (width : numBits ≤ 32) :
    ((word.toNat % 2 ^ numBits : Nat) : Int) = word.toInt % 2 ^ numBits := by
  have divides : (2 : Int) ^ numBits ∣ 2 ^ 32 := pow_dvd_pow 2 width
  have congruent : (2 : Int) ^ numBits ∣ (word.toNat : Int) - word.toInt := by
    rw [BitVec.toInt_eq_toNat_cond]
    split
    · simp
    · simpa using divides
  push_cast
  exact Int.emod_eq_emod_iff_emod_sub_eq_zero.mpr (Int.emod_eq_zero_of_dvd congruent)

/-- Masking keeps the lowest digits. -/
theorem toNat_and_mask (word : BitVec 32) {numBits : Nat} (width : numBits ≤ 31) :
    (word &&& ((1#32 <<< numBits) - 1#32)).toNat = word.toNat % 2 ^ numBits := by
  have power : 2 ^ numBits ≤ 2 ^ 31 := Nat.pow_le_pow_right (by omega) width
  have positive : 1 ≤ 2 ^ numBits := Nat.one_le_two_pow
  have mask : ((1#32 <<< numBits) - 1#32).toNat = 2 ^ numBits - 1 := by
    rw [BitVec.toNat_sub, BitVec.toNat_shiftLeft, BitVec.toNat_ofNat, Nat.shiftLeft_eq]
    omega
  rw [BitVec.toNat_and, mask, Nat.and_two_pow_sub_one_eq_mod]

section

variable (value : BitVec 32) {numBits shift : Nat}

/-- The overflow test of `bitstream_add_signed` is the range test. -/
theorem signed_overflow_eq (width : numBits ≤ 31) (amount : shift = numBits - 1) :
    ((((1#64 <<< shift) - 1#64).setWidth 32).slt value ||
        value.slt ((-(1#64 <<< shift)).setWidth 32)) =
      decide (Call.addSigned value numBits).Clamps := by
  subst amount
  rw [BitVec.slt_eq_decide, BitVec.slt_eq_decide, toInt_maxValue (by omega),
    toInt_minValue (by omega), Bool.eq_iff_iff, decide_eq_true_iff]
  simp only [Bool.or_eq_true, decide_eq_true_eq]
  exact or_comm

/-- The capped value of `bitstream_add_signed` is the clamped argument. -/
theorem toInt_signed_word (width : numBits ≤ 31) (amount : shift = numBits - 1) :
    (if (((1#64 <<< shift) - 1#64).setWidth 32).slt value ||
          value.slt ((-(1#64 <<< shift)).setWidth 32) then
        (if (((1#64 <<< shift) - 1#64).setWidth 32).slt value then
          ((1#64 <<< shift) - 1#64).setWidth 32
        else (-(1#64 <<< shift)).setWidth 32)
      else value).toInt = (Call.addSigned value numBits).clamped := by
  have power : (1 : Int) ≤ 2 ^ (numBits - 1) := one_le_pow₀ (by norm_num)
  have range := signed_overflow_eq value width amount
  subst amount
  rw [range]
  by_cases clamps : (Call.addSigned value numBits).Clamps
  · rw [if_pos (by simpa using clamps)]
    simp only [Call.Clamps, Call.arg, Call.lo, Call.hi] at clamps
    simp only [Call.clamped, Call.arg, Call.lo, Call.hi]
    by_cases high : 2 ^ (numBits - 1) - 1 < value.toInt
    · rw [if_pos (by rwa [BitVec.slt_iff_toInt_lt, toInt_maxValue (by omega)]),
        toInt_maxValue (by omega)]
      omega
    · rw [if_neg (by rwa [BitVec.slt_iff_toInt_lt, toInt_maxValue (by omega)]),
        toInt_minValue (by omega)]
      omega
  · rw [if_neg (by simpa using clamps)]
    simp only [Call.Clamps, Call.arg, Call.lo, Call.hi] at clamps
    simp only [Call.clamped, Call.arg, Call.lo, Call.hi]
    omega

end

/-! ## One call -/

/-- The word a call hands to the packing loop. -/
def Call.word (call : Call) : BitVec 32 :=
  BitVec.ofNat 32 call.digits

theorem Call.toNat_word {call : Call} (admissible : call.Admissible) :
    call.word.toNat = call.digits := by
  have width : 2 ^ call.numBits ≤ 2 ^ 32 :=
    Nat.pow_le_pow_right (by omega) admissible.numBits_le
  exact Nat.mod_eq_of_lt (call.digits_lt.trans_le width)

/-- The word `bitstream_add` packs. -/
theorem add_word {value : BitVec 32} {numBits : Nat}
    (admissible : (Call.add value numBits).Admissible) :
    (if decide (2 ^ numBits ≤ value.toNat) then BitVec.ofNat 32 (2 ^ numBits - 1) else value) =
      (Call.add value numBits).word :=
  BitVec.eq_of_toNat_eq ((toNat_add_word value numBits).trans (Call.toNat_word admissible).symm)

/-- The shift amount of the bounds in `bitstream_add_signed`. -/
theorem signed_shift {numBits : Nat} (positive : 1 ≤ numBits) (small : numBits < 2 ^ w) :
    (numBits + 2 ^ w - 1) % 2 ^ w = numBits - 1 := by
  rw [show numBits + 2 ^ w - 1 = numBits - 1 + 2 ^ w by omega, Nat.add_mod_right,
    Nat.mod_eq_of_lt (by omega)]

/-- The word `bitstream_add_signed` packs. -/
theorem addSigned_word {value : BitVec 32} {numBits shift : Nat}
    (admissible : (Call.addSigned value numBits).Admissible) (amount : shift = numBits - 1) :
    (if (((1#64 <<< shift) - 1#64).setWidth 32).slt value ||
          value.slt ((-(1#64 <<< shift)).setWidth 32) then
        (if (((1#64 <<< shift) - 1#64).setWidth 32).slt value then
          ((1#64 <<< shift) - 1#64).setWidth 32
        else (-(1#64 <<< shift)).setWidth 32)
      else value) &&& ((1#32 <<< numBits) - 1#32) = (Call.addSigned value numBits).word := by
  apply BitVec.eq_of_toNat_eq
  apply Int.ofNat_inj.mp
  rw [toNat_and_mask _ admissible.2,
    toNat_mod_eq_toInt_emod _ (admissible.2.trans (by omega)),
    toInt_signed_word value admissible.2 amount, Call.toNat_word admissible, Call.cast_digits]
  rfl

/-- A call whose sum does not wrap refuses when its field does not fit, and
otherwise packs the digits of the clamped argument. -/
theorem packer_eq {bitstream : BitstreamT} {call : Call} (admissible : call.Admissible)
    (capacity : 8 * bitstream.bytes < 2 ^ w)
    (noWrap : bitstream.totalBits + call.numBits < 2 ^ w) :
    packer w bitstream call =
      if 8 * bitstream.bytes < bitstream.totalBits + call.numBits then (-1, bitstream)
      else appendBits w bitstream call.word call.numBits (decide call.Clamps) := by
  have space : noSpace w bitstream call.numBits =
      decide (8 * bitstream.bytes < bitstream.totalBits + call.numBits) := by
    rw [noSpace, Nat.mul_comm, Nat.mod_eq_of_lt capacity, Nat.mod_eq_of_lt noWrap]
  cases call with
  | add value numBits =>
      change bitstreamAdd w bitstream value numBits = _
      change noSpace w bitstream numBits = _ at space
      simp only [bitstreamAdd, space, add_word admissible, Call.numBits, clamps_add_iff]
      by_cases refused : 8 * bitstream.bytes < bitstream.totalBits + numBits <;>
        simp [refused]
  | addSigned value numBits =>
      change bitstream.totalBits + numBits < 2 ^ w at noWrap
      have amount := signed_shift admissible.1 (show numBits < 2 ^ w by omega)
      change bitstreamAddSigned w bitstream value numBits = _
      change noSpace w bitstream numBits = _ at space
      unfold bitstreamAddSigned
      dsimp only
      rw [addSigned_word admissible amount, signed_overflow_eq value admissible.2 amount, space]
      simp only [Call.numBits]
      by_cases refused : 8 * bitstream.bytes < bitstream.totalBits + numBits <;>
        simp [refused]

end EmbeddedBase.Middleware.Bitstream
