import Mathlib.Algebra.Order.Floor.Ring
import Mathlib.Data.Rat.Floor

/-!
# Conversions of numbers to machine integers

C discards the fraction of a number that is converted to an integer type, and leaves the
result undefined where the integer does not fit.  There the result is a parameter.
-/

namespace EmbeddedBase.Data

/-! ## Truncation -/

/-- The integer part of a number, toward zero. -/
def truncate (number : ℚ) : ℤ :=
  if 0 ≤ number then ⌊number⌋ else ⌈number⌉

theorem truncate_of_nonneg {number : ℚ} (nonneg : 0 ≤ number) : truncate number = ⌊number⌋ :=
  if_pos nonneg

theorem truncate_of_neg {number : ℚ} (neg : number < 0) : truncate number = ⌈number⌉ :=
  if_neg (not_le.mpr neg)

/-- Truncation moves a number by less than one. -/
theorem abs_truncate_sub_lt (number : ℚ) : |(truncate number : ℚ) - number| < 1 := by
  rcases lt_or_ge number 0 with neg | nonneg
  · rw [truncate_of_neg neg, abs_lt]
    have above := Int.le_ceil number
    have below := Int.ceil_lt_add_one number
    constructor <;> linarith
  · rw [truncate_of_nonneg nonneg, abs_lt]
    have below := Int.floor_le number
    have above := Int.lt_floor_add_one number
    constructor <;> linarith

/-- Truncation stays between the integers that enclose a number. -/
theorem truncate_mem {number : ℚ} {low high : ℤ} (low_le : (low : ℚ) ≤ number)
    (le_high : number ≤ high) : low ≤ truncate number ∧ truncate number ≤ high := by
  rcases lt_or_ge number 0 with neg | nonneg
  · rw [truncate_of_neg neg]
    have below : low ≤ ⌈number⌉ := by exact_mod_cast low_le.trans (Int.le_ceil number)
    exact ⟨below, Int.ceil_le.mpr le_high⟩
  · rw [truncate_of_nonneg nonneg]
    have above : ⌊number⌋ ≤ high := by exact_mod_cast (Int.floor_le number).trans le_high
    exact ⟨Int.le_floor.mpr low_le, above⟩

/-- The numbers below one truncate to zero. -/
theorem truncate_eq_zero_iff {number : ℚ} : truncate number = 0 ↔ |number| < 1 := by
  constructor
  · intro zero
    have close := abs_truncate_sub_lt number
    rwa [zero, Int.cast_zero, zero_sub, abs_neg] at close
  · intro small
    rcases abs_lt.mp small with ⟨above, below⟩
    rcases lt_or_ge number 0 with neg | nonneg
    · rw [truncate_of_neg neg, Int.ceil_eq_zero_iff]
      exact ⟨above, neg.le⟩
    · rw [truncate_of_nonneg nonneg, Int.floor_eq_zero_iff]
      exact ⟨nonneg, below⟩

/-! ## Conversions -/

variable {width : Nat}

/-- Conversion to an unsigned type; `undefined` gives the results C leaves open. -/
def toUnsigned (undefined : ℚ → BitVec width) (number : ℚ) : BitVec width :=
  if 0 ≤ truncate number ∧ truncate number < 2 ^ width then BitVec.ofInt width (truncate number)
  else undefined number

/-- Conversion to a signed type; `undefined` gives the results C leaves open. -/
def toSigned (undefined : ℚ → BitVec width) (number : ℚ) : BitVec width :=
  if -2 ^ (width - 1) ≤ truncate number ∧ truncate number < 2 ^ (width - 1) then
    BitVec.ofInt width (truncate number)
  else undefined number

/-- A number that fits keeps its integer part. -/
theorem toNat_toUnsigned {undefined : ℚ → BitVec width} {number : ℚ}
    (fits : 0 ≤ truncate number ∧ truncate number < 2 ^ width) :
    ((toUnsigned undefined number).toNat : ℤ) = truncate number := by
  rw [toUnsigned, if_pos fits, BitVec.toNat_ofInt, Int.toNat_of_nonneg (Int.emod_nonneg _ _)]
  · exact Int.emod_eq_of_lt fits.1 (by exact_mod_cast fits.2)
  · exact_mod_cast (Nat.two_pow_pos width).ne'

theorem toSigned_of_fits {undefined : ℚ → BitVec width} {number : ℚ}
    (fits : -2 ^ (width - 1) ≤ truncate number ∧ truncate number < 2 ^ (width - 1)) :
    toSigned undefined number = BitVec.ofInt width (truncate number) :=
  if_pos fits

end EmbeddedBase.Data
