import EmbeddedBase.Data.BitField
import Mathlib.Algebra.Ring.Nat

/-!
# Fields of a register

Bits `start` to `start + width - 1` of a register, counted from the least significant
end: reading and replacing them by masks and shifts is reading and replacing them bit by
bit.
-/

namespace EmbeddedBase.Data

variable {w : Nat}

/-- The mask `((1 << width) - 1) << start`. -/
def fieldMask (w start width : Nat) : BitVec w :=
  ((BitVec.ofNat w 1 <<< width) - BitVec.ofNat w 1) <<< start

theorem toNat_ones {width : Nat} (fits : width ≤ w) :
    ((BitVec.ofNat w 1 <<< width) - BitVec.ofNat w 1).toNat = 2 ^ width - 1 := by
  have one : 1 ≤ 2 ^ width := Nat.one_le_two_pow
  have bound : 2 ^ width ≤ 2 ^ w := Nat.pow_le_pow_right (by decide) fits
  cases w with
  | zero =>
      have zero : width = 0 := Nat.le_zero.mp fits
      rw [zero, BitVec.eq_nil (_ - _)]
      rfl
  | succ w =>
      have single : 1 < 2 ^ (w + 1) := Nat.one_lt_two_pow (Nat.succ_ne_zero w)
      rw [BitVec.toNat_sub, BitVec.toNat_shiftLeft, BitVec.toNat_ofNat, Nat.mod_eq_of_lt single,
        Nat.one_shiftLeft]
      rcases Nat.lt_or_eq_of_le bound with below | full
      · have split : 2 ^ (w + 1) - 1 + 2 ^ width = 2 ^ width - 1 + 2 ^ (w + 1) := by omega
        rw [Nat.mod_eq_of_lt below, split, Nat.add_mod_right, Nat.mod_eq_of_lt (by omega)]
      · rw [full, Nat.mod_self, Nat.add_zero, Nat.mod_eq_of_lt (by omega)]

/-- Ones from bit zero. -/
theorem getLsbD_ones {width : Nat} (fits : width ≤ w) (i : Nat) :
    ((BitVec.ofNat w 1 <<< width) - BitVec.ofNat w 1).getLsbD i = decide (i < width) := by
  rw [← BitVec.testBit_toNat, toNat_ones fits, Nat.testBit_two_pow_sub_one]

theorem getLsbD_fieldMask {start width : Nat} (fits : start + width ≤ w) (i : Nat) :
    (fieldMask w start width).getLsbD i = decide (start ≤ i ∧ i < start + width) := by
  rw [fieldMask, BitVec.getLsbD_shiftLeft, getLsbD_ones (by omega)]
  by_cases low : i < start
  · simp [low, Nat.not_le.mpr low]
  · by_cases high : i < start + width
    · have inside : i - start < width := by omega
      simp [low, inside, high, Nat.not_lt.mp low, Nat.lt_of_lt_of_le high fits]
    · have outside : ¬i - start < width := by omega
      simp [outside, high]

/-- A mask computed in a wider register. -/
theorem setWidth_fieldMask {wide start width : Nat} (fits : start + width ≤ w) (wider : w ≤ wide) :
    (fieldMask wide start width).setWidth w = fieldMask w start width := by
  apply BitVec.eq_of_getLsbD_eq
  intro i inside
  rw [BitVec.getLsbD_setWidth, getLsbD_fieldMask fits,
    getLsbD_fieldMask (Nat.le_trans fits wider)]
  simp [inside]

/-- `result` is `register` with a field replaced by the low bits of `value`. -/
def ReplacesField (register : BitVec w) (start width : Nat) (value result : BitVec w) : Prop :=
  ∀ i < w, result.getLsbD i =
    if start ≤ i ∧ i < start + width then value.getLsbD (i - start) else register.getLsbD i

/-- Masking and shifting reads the field. -/
theorem and_fieldMask_shiftRight (register : BitVec w) {start width : Nat}
    (fits : start + width ≤ w) :
    (register &&& fieldMask w start width) >>> start =
      (register.extractLsb' start width).setWidth w := by
  apply BitVec.eq_of_getLsbD_eq
  intro i inside
  rw [BitVec.getLsbD_ushiftRight, BitVec.getLsbD_and, getLsbD_fieldMask fits,
    BitVec.getLsbD_setWidth, BitVec.getLsbD_extractLsb']
  by_cases within : i < width
  · simp [within, inside]
  · simp [within]

/-- Masking the old field out and the new one in replaces the field. -/
theorem replacesField_of_masks (register value : BitVec w) {start width : Nat}
    (fits : start + width ≤ w) :
    ReplacesField register start width value
      ((register &&& ~~~fieldMask w start width) |||
        ((value <<< start) &&& fieldMask w start width)) := by
  intro i inside
  rw [BitVec.getLsbD_or, BitVec.getLsbD_and, BitVec.getLsbD_and, BitVec.getLsbD_not,
    getLsbD_fieldMask fits, BitVec.getLsbD_shiftLeft]
  by_cases within : start ≤ i ∧ i < start + width
  · simp [within, inside, Nat.not_lt.mpr within.1]
  · simp [within, inside]

/-- A value that fits into the field is read back from it. -/
theorem ReplacesField.read_back {register value result : BitVec w} {start width : Nat}
    (replaces : ReplacesField register start width value result) (fits : start + width ≤ w)
    (small : value.toNat < 2 ^ width) :
    (result.extractLsb' start width).setWidth w = value := by
  apply BitVec.eq_of_getLsbD_eq
  intro i inside
  rw [BitVec.getLsbD_setWidth, BitVec.getLsbD_extractLsb', decide_eq_true inside, Bool.true_and]
  by_cases within : i < width
  · rw [decide_eq_true within, Bool.true_and, replaces (start + i) (by omega),
      if_pos (by omega), Nat.add_sub_cancel_left]
  · have high : value.getLsbD i = false := by
      rw [← BitVec.testBit_toNat]
      apply Nat.testBit_lt_two_pow
      exact Nat.lt_of_lt_of_le small (Nat.pow_le_pow_right (by decide) (Nat.not_lt.mp within))
    rw [decide_eq_false within, Bool.false_and, high]

/-! ## Single bits -/

/-- Bit `i` of a register replaced by a value of one bit, computed in a word and truncated. -/
def replaceBit (word : Nat) (register : BitVec w) (i : Nat) (value : BitVec w) : BitVec w :=
  ((register.setWidth word &&& ~~~(BitVec.ofNat word 1 <<< i)) |||
    (value.setWidth word <<< i)).setWidth w

/-- A value of one bit shifted to place `i`, in a wider word. -/
theorem getLsbD_single_shiftLeft {word i j : Nat} {value : BitVec w} (single : value.toNat ≤ 1)
    (inWord : j < word) :
    (value.setWidth word <<< i).getLsbD j = (decide (j = i) && value.getLsbD 0) := by
  rw [BitVec.getLsbD_shiftLeft, BitVec.getLsbD_setWidth]
  by_cases here : j = i
  · subst here
    simp [inWord]
    omega
  · by_cases before : j < i
    · simp [before, here]
    · have high : value.getLsbD (j - i) = false := by
        rw [← BitVec.testBit_toNat]
        apply Nat.testBit_lt_two_pow
        exact Nat.lt_of_le_of_lt single (Nat.one_lt_two_pow (by omega))
      simp [before, here, high]

/-- Exactly the addressed bit is replaced. -/
theorem getLsbD_replaceBit {word i j : Nat} (wide : w ≤ word) (register : BitVec w)
    {value : BitVec w} (single : value.toNat ≤ 1) (inside : i < w) (below : j < w) :
    (replaceBit word register i value).getLsbD j =
      if j = i then value.getLsbD 0 else register.getLsbD j := by
  have inWord : j < word := Nat.lt_of_lt_of_le below wide
  rw [replaceBit, BitVec.getLsbD_setWidth, BitVec.getLsbD_or, BitVec.getLsbD_and,
    BitVec.getLsbD_not, getLsbD_one_shiftLeft (Nat.lt_of_lt_of_le inside wide),
    getLsbD_single_shiftLeft single inWord, BitVec.getLsbD_setWidth]
  by_cases here : j = i
  · simp [here.symm, below, inWord]
  · simp [here, Ne.symm here, below, inWord]

/-- A masked bit is positive exactly when it is set. -/
theorem toInt_and_one_shiftLeft_pos {word i : Nat} (wide : w < word) (register : BitVec w)
    (inside : i < w) :
    0 < (register.setWidth word &&& BitVec.ofNat word 1 <<< i).toInt ↔ register.getLsbD i := by
  have inWord : i < word := Nat.lt_trans inside wide
  have notTop : i + 1 ≠ word := by omega
  have positive : (0 : Int) < 2 ^ i := Int.pow_pos (by decide)
  rw [← BitVec.twoPow_eq, BitVec.and_twoPow, BitVec.getLsbD_setWidth]
  cases register.getLsbD i with
  | false => simp
  | true =>
      rw [decide_eq_true inWord, Bool.and_self, if_pos rfl, BitVec.toInt_twoPow,
        if_neg (Nat.not_le.mpr inWord), if_neg notTop]
      exact iff_of_true positive rfl

end EmbeddedBase.Data
