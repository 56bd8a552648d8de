import Mathlib.Algebra.Order.Ring.Int

/-!
# Signed numbers in two words

A signed high word and an unsigned low word.  What an operation on the words computes is
known modulo `2^64`; a number in the range is determined by that.
-/

namespace EmbeddedBase.Data

/-- A signed high word and an unsigned low word. -/
structure DoubleWord where
  high : BitVec 32
  low : BitVec 32
  deriving DecidableEq

/-! ## Single words -/

theorem toNat_add_wrap (first second : BitVec 32) :
    ∃ turns : Int, ((first + second).toNat : Int) =
      first.toNat + second.toNat + turns * 4294967296 := by
  refine ⟨-((first.toNat + second.toNat) / 4294967296 : Nat), ?_⟩
  rw [BitVec.toNat_add]
  omega

theorem toNat_sub_wrap (first second : BitVec 32) :
    ∃ turns : Int, ((first - second).toNat : Int) =
      first.toNat - second.toNat + turns * 4294967296 := by
  have bound := second.isLt
  refine ⟨1 - ((4294967296 - second.toNat + first.toNat) / 4294967296 : Nat), ?_⟩
  rw [BitVec.toNat_sub]
  omega

theorem toNat_neg_wrap (word : BitVec 32) :
    ∃ turns : Int, ((-word).toNat : Int) = -word.toNat + turns * 4294967296 := by
  have bound := word.isLt
  refine ⟨1 - ((4294967296 - word.toNat) / 4294967296 : Nat), ?_⟩
  rw [BitVec.toNat_neg]
  omega

/-- The signed words are the unsigned ones up to whole turns. -/
theorem toInt_wrap (word : BitVec 32) :
    ∃ turns : Int, word.toInt = word.toNat + turns * 4294967296 := by
  rw [BitVec.toInt_eq_toNat_cond]
  split
  · exact ⟨0, by omega⟩
  · exact ⟨-1, by omega⟩

theorem toInt_bounds (word : BitVec 32) :
    -2147483648 ≤ word.toInt ∧ word.toInt < 2147483648 :=
  ⟨BitVec.le_toInt word, BitVec.toInt_lt⟩

/-- A signed sum without overflow. -/
theorem toInt_add_eq {first second : BitVec 32}
    (lower : -2147483648 ≤ first.toInt + second.toInt)
    (upper : first.toInt + second.toInt < 2147483648) :
    (first + second).toInt = first.toInt + second.toInt := by
  apply BitVec.toInt_add_of_not_saddOverflow
  simp only [BitVec.saddOverflow, Bool.or_eq_true, decide_eq_true_eq, Nat.add_one_sub_one]
  omega

theorem toInt_sub_eq {first second : BitVec 32}
    (lower : -2147483648 ≤ first.toInt - second.toInt)
    (upper : first.toInt - second.toInt < 2147483648) :
    (first - second).toInt = first.toInt - second.toInt := by
  apply BitVec.toInt_sub_of_not_ssubOverflow
  simp only [BitVec.ssubOverflow, Bool.or_eq_true, decide_eq_true_eq, Nat.add_one_sub_one]
  omega

theorem toInt_neg_eq {word : BitVec 32} (lower : -2147483648 < word.toInt) :
    (-word).toInt = -word.toInt := by
  apply BitVec.toInt_neg_of_ne_intMin
  rintro rfl
  exact absurd lower (by decide)

theorem and_one_ne_zero_iff (word : BitVec 32) : word &&& 1 ≠ 0 ↔ word.toNat % 2 = 1 := by
  have bit : (word &&& 1).toNat = word.toNat % 2 := by
    rw [BitVec.toNat_and]
    exact Nat.and_one_is_mod _
  have zero : word &&& 1 = 0 ↔ (word &&& 1).toNat = 0 := BitVec.toNat_inj.symm
  rw [ne_eq, zero, bit]
  omega

theorem toNat_or_top {word : BitVec 32} (small : word.toNat < 2147483648) :
    (word ||| 0x80000000).toNat = word.toNat + 2147483648 := by
  have disjoint := Nat.two_pow_add_eq_or_of_lt (i := 31) small 1
  rw [BitVec.toNat_or, Nat.or_comm]
  exact disjoint.symm.trans (Nat.add_comm _ _)

theorem toInt_mod_two (word : BitVec 32) : word.toInt % 2 = word.toNat % 2 := by
  rcases toInt_wrap word with ⟨turns, same⟩
  omega

/-! ## Two words -/

namespace DoubleWord

/-- The number in two words. -/
def value (word : DoubleWord) : Int :=
  word.high.toInt * 4294967296 + word.low.toNat

/-- The same words read without a sign. -/
def count (word : DoubleWord) : Nat :=
  word.high.toNat * 4294967296 + word.low.toNat

/-- The words of a number, modulo `2^64`. -/
def ofInt (number : Int) : DoubleWord :=
  ⟨BitVec.ofInt 32 (number / 4294967296), BitVec.ofInt 32 number⟩

/-- The range of two words. -/
def InRange (number : Int) : Prop :=
  -9223372036854775808 ≤ number ∧ number < 9223372036854775808

instance (number : Int) : Decidable (InRange number) :=
  inferInstanceAs (Decidable (_ ∧ _))

variable {word other : DoubleWord} {number : Int}

theorem value_inRange (word : DoubleWord) : InRange word.value := by
  have bounds := toInt_bounds word.high
  have low := word.low.isLt
  unfold InRange value
  omega

theorem value_wrap (word : DoubleWord) :
    ∃ turns : Int, word.value = word.count + turns * 18446744073709551616 := by
  rcases toInt_wrap word.high with ⟨turns, same⟩
  refine ⟨turns, ?_⟩
  unfold value count
  omega

/-- Words that are congruent to a number in the range hold it. -/
theorem value_eq_of_count (inside : InRange number)
    (wrap : ∃ turns : Int, (word.count : Int) = number + turns * 18446744073709551616) :
    word.value = number := by
  rcases word.value_inRange with ⟨lower, upper⟩
  rcases inside with ⟨numberLower, numberUpper⟩
  rcases wrap with ⟨turns, wrap⟩
  rcases value_wrap word with ⟨others, same⟩
  omega

theorem count_ofInt (number : Int) :
    ∃ turns : Int, ((ofInt number).count : Int) = number + turns * 18446744073709551616 := by
  have high : ((BitVec.ofInt 32 (number / 4294967296)).toNat : Int) =
      number / 4294967296 % 4294967296 := by
    rw [BitVec.toNat_ofInt]
    apply Int.toNat_of_nonneg
    exact Int.emod_nonneg _ (by decide)
  have low : ((BitVec.ofInt 32 number).toNat : Int) = number % 4294967296 := by
    rw [BitVec.toNat_ofInt]
    apply Int.toNat_of_nonneg
    exact Int.emod_nonneg _ (by decide)
  refine ⟨-(number / 4294967296 / 4294967296), ?_⟩
  unfold ofInt count
  dsimp only
  omega

@[simp]
theorem value_ofInt (inside : InRange number) : (ofInt number).value = number :=
  value_eq_of_count inside (count_ofInt number)

theorem count_inj (same : word.count = other.count) : word = other := by
  rcases word with ⟨high, low⟩
  rcases other with ⟨otherHigh, otherLow⟩
  have bound := low.isLt
  have otherBound := otherLow.isLt
  unfold count at same
  dsimp only at same
  have sameHigh : high = otherHigh := BitVec.eq_of_toNat_eq (by omega)
  have sameLow : low = otherLow := BitVec.eq_of_toNat_eq (by omega)
  rw [sameHigh, sameLow]

/-- Words are determined by their number. -/
theorem value_inj (same : word.value = other.value) : word = other := by
  apply count_inj
  have high := word.high.isLt
  have low := word.low.isLt
  have otherHigh := other.high.isLt
  have otherLow := other.low.isLt
  rcases value_wrap word with ⟨turns, wrap⟩
  rcases value_wrap other with ⟨otherTurns, otherWrap⟩
  unfold DoubleWord.count at *
  omega

@[simp]
theorem ofInt_value (word : DoubleWord) : ofInt word.value = word :=
  value_inj (value_ofInt word.value_inRange)

/-- Words that are congruent to a number are its words. -/
theorem eq_ofInt_of_count
    (wrap : ∃ turns : Int, (word.count : Int) = number + turns * 18446744073709551616) :
    word = ofInt number := by
  apply count_inj
  have high := word.high.isLt
  have low := word.low.isLt
  have otherHigh := (ofInt number).high.isLt
  have otherLow := (ofInt number).low.isLt
  rcases wrap with ⟨turns, wrap⟩
  rcases count_ofInt number with ⟨others, otherWrap⟩
  unfold count at *
  omega

/-! ## Signs -/

theorem value_neg_iff : word.value < 0 ↔ word.high.toInt < 0 := by
  have low := word.low.isLt
  unfold value
  omega

theorem value_pos_iff :
    0 < word.value ↔ 0 ≤ word.high.toInt ∧ (word.high ≠ 0 ∨ word.low ≠ 0) := by
  have low := word.low.isLt
  have high : word.high = 0 ↔ word.high.toInt = 0 := BitVec.toInt_inj.symm
  have lowZero : word.low = 0 ↔ word.low.toNat = 0 := BitVec.toNat_inj.symm
  unfold value
  rw [ne_eq, ne_eq, high, lowZero]
  omega

/-! ## Halves -/

/-- Both words shifted by one, the low bit of the high word into the low word. -/
def halve (word : DoubleWord) : DoubleWord :=
  let low := word.low >>> 1
  ⟨word.high.sshiftRight 1, if word.high &&& 1 ≠ 0 then low ||| 0x80000000 else low⟩

theorem value_halve (word : DoubleWord) : word.halve.value = word.value / 2 := by
  have low : (word.low >>> 1).toNat = word.low.toNat / 2 := by
    rw [BitVec.toNat_ushiftRight, Nat.shiftRight_one]
  have bound := word.low.isLt
  have parity := toInt_mod_two word.high
  have high : (word.high.sshiftRight 1).toInt = word.high.toInt / 2 := by
    rw [BitVec.toInt_sshiftRight, Int.shiftRight_eq_div_pow]
    rfl
  unfold halve value
  simp only [and_one_ne_zero_iff]
  rw [high]
  split
  · rw [toNat_or_top (by omega), low]
    omega
  · rw [low]
    omega

end DoubleWord

end EmbeddedBase.Data
