import EmbeddedBase.Data.DoubleWord
import EmbeddedBase.NetX.Rtc
import Mathlib.Tactic.Linarith

/-!
# Arithmetic of PTP times

The utility functions of `nxd_ptp_client.c` on times with two words of seconds.  Sums,
differences and halves are those of the numbers of nanoseconds, in the one form in which
the seconds and the nanoseconds have the same sign.
-/

namespace EmbeddedBase.NetX

open EmbeddedBase.Data

/-! ## Seconds -/

/-- `_nx_ptp_client_utility_add64`. -/
def nxPtpClientUtilityAdd64 (a : DoubleWord) (bHi bLo : BitVec 32) : DoubleWord :=
  let rHi := a.high + bHi
  let rLo := a.low + bLo
  if rLo < a.low ∨ rLo < bLo then
    ⟨rHi + 1, rLo⟩
  else
    ⟨rHi, rLo⟩

/-- `_nx_ptp_client_utility_sub64`. -/
def nxPtpClientUtilitySub64 (a : DoubleWord) (bHi bLo : BitVec 32) : DoubleWord :=
  let rHi := a.high - bHi
  let rLo := a.low - bLo
  if a.low < bLo then
    ⟨rHi - 1, rLo⟩
  else
    ⟨rHi, rLo⟩

/-- `_nx_ptp_client_utility_inc64`. -/
def nxPtpClientUtilityInc64 (a : DoubleWord) : DoubleWord :=
  let rLo := a.low + 1
  if rLo = 0 then
    ⟨a.high + 1, rLo⟩
  else
    ⟨a.high, rLo⟩

/-- `_nx_ptp_client_utility_dec64`. -/
def nxPtpClientUtilityDec64 (a : DoubleWord) : DoubleWord :=
  let rLo := a.low
  if rLo = 0 then
    ⟨a.high - 1, rLo - 1⟩
  else
    ⟨a.high, rLo - 1⟩

/-- `_nx_ptp_client_utility_neg64`. -/
def nxPtpClientUtilityNeg64 (a : DoubleWord) : DoubleWord :=
  let rHi := -a.high
  if a.low ≠ 0 then
    ⟨rHi - 1, -a.low⟩
  else
    ⟨rHi, -a.low⟩

/-! ## Seconds as numbers -/

section

variable (a b : DoubleWord)

theorem toNat_one_word : ((1 : BitVec 32).toNat : Int) = 1 :=
  rfl

theorem count_add64 :
    ∃ turns : Int, ((nxPtpClientUtilityAdd64 a b.high b.low).count : Int) =
      a.count + b.count + turns * 18446744073709551616 := by
  have low := a.low.isLt
  have otherLow := b.low.isLt
  have bound := (a.low + b.low).isLt
  rcases toNat_add_wrap a.high b.high with ⟨high, sameHigh⟩
  rcases toNat_add_wrap (a.high + b.high) 1 with ⟨carry, sameCarry⟩
  rcases toNat_add_wrap a.low b.low with ⟨turn, sameLow⟩
  rw [toNat_one_word] at sameCarry
  unfold nxPtpClientUtilityAdd64 DoubleWord.count
  simp only [BitVec.lt_def]
  split
  · refine ⟨high + carry, ?_⟩
    dsimp only
    omega
  · refine ⟨high, ?_⟩
    dsimp only
    omega

theorem count_sub64 :
    ∃ turns : Int, ((nxPtpClientUtilitySub64 a b.high b.low).count : Int) =
      a.count - b.count + turns * 18446744073709551616 := by
  have low := a.low.isLt
  have otherLow := b.low.isLt
  have bound := (a.low - b.low).isLt
  rcases toNat_sub_wrap a.high b.high with ⟨high, sameHigh⟩
  rcases toNat_sub_wrap (a.high - b.high) 1 with ⟨borrow, sameBorrow⟩
  rcases toNat_sub_wrap a.low b.low with ⟨turn, sameLow⟩
  rw [toNat_one_word] at sameBorrow
  unfold nxPtpClientUtilitySub64 DoubleWord.count
  simp only [BitVec.lt_def]
  split
  · refine ⟨high + borrow, ?_⟩
    dsimp only
    omega
  · refine ⟨high, ?_⟩
    dsimp only
    omega

theorem count_inc64 :
    ∃ turns : Int, ((nxPtpClientUtilityInc64 a).count : Int) =
      a.count + 1 + turns * 18446744073709551616 := by
  have low := a.low.isLt
  have bound := (a.low + 1).isLt
  rcases toNat_add_wrap a.high 1 with ⟨carry, sameCarry⟩
  rcases toNat_add_wrap a.low 1 with ⟨turn, sameLow⟩
  rw [toNat_one_word] at sameCarry sameLow
  unfold nxPtpClientUtilityInc64 DoubleWord.count
  dsimp only
  split
  · rename_i wrapped
    have none : (a.low + 1).toNat = 0 := congrArg BitVec.toNat wrapped
    refine ⟨carry, ?_⟩
    dsimp only
    omega
  · rename_i within
    have some : (a.low + 1).toNat ≠ 0 := fun zero => within (BitVec.eq_of_toNat_eq zero)
    refine ⟨0, ?_⟩
    dsimp only
    omega

theorem count_dec64 :
    ∃ turns : Int, ((nxPtpClientUtilityDec64 a).count : Int) =
      a.count - 1 + turns * 18446744073709551616 := by
  have low := a.low.isLt
  have bound := (a.low - 1).isLt
  rcases toNat_sub_wrap a.high 1 with ⟨borrow, sameBorrow⟩
  rcases toNat_sub_wrap a.low 1 with ⟨turn, sameLow⟩
  rw [toNat_one_word] at sameBorrow sameLow
  unfold nxPtpClientUtilityDec64 DoubleWord.count
  dsimp only
  split
  · rename_i wrapped
    have none : a.low.toNat = 0 := congrArg BitVec.toNat wrapped
    refine ⟨borrow, ?_⟩
    dsimp only
    omega
  · rename_i within
    have some : a.low.toNat ≠ 0 := fun zero => within (BitVec.eq_of_toNat_eq zero)
    refine ⟨0, ?_⟩
    dsimp only
    omega

theorem count_neg64 :
    ∃ turns : Int, ((nxPtpClientUtilityNeg64 a).count : Int) =
      -a.count + turns * 18446744073709551616 := by
  have low := a.low.isLt
  have bound := (-a.low).isLt
  rcases toNat_neg_wrap a.high with ⟨high, sameHigh⟩
  rcases toNat_sub_wrap (-a.high) 1 with ⟨borrow, sameBorrow⟩
  rcases toNat_neg_wrap a.low with ⟨turn, sameLow⟩
  rw [toNat_one_word] at sameBorrow
  unfold nxPtpClientUtilityNeg64 DoubleWord.count
  dsimp only
  split
  · rename_i within
    have some : a.low.toNat ≠ 0 := fun zero => within (BitVec.eq_of_toNat_eq zero)
    refine ⟨high + borrow, ?_⟩
    dsimp only
    omega
  · rename_i wrapped
    have none : a.low.toNat = 0 := congrArg BitVec.toNat (not_not.mp wrapped)
    refine ⟨high, ?_⟩
    dsimp only
    omega

theorem add64_ofInt (number other : Int) :
    nxPtpClientUtilityAdd64 (.ofInt number) (DoubleWord.ofInt other).high
      (DoubleWord.ofInt other).low = .ofInt (number + other) := by
  rcases count_add64 (.ofInt number) (.ofInt other) with ⟨turns, sum⟩
  rcases DoubleWord.count_ofInt number with ⟨first, same⟩
  rcases DoubleWord.count_ofInt other with ⟨second, sameSecond⟩
  exact DoubleWord.eq_ofInt_of_count ⟨turns + first + second, by omega⟩

theorem inc64_ofInt (number : Int) :
    nxPtpClientUtilityInc64 (.ofInt number) = .ofInt (number + 1) := by
  rcases count_inc64 (.ofInt number) with ⟨turns, sum⟩
  rcases DoubleWord.count_ofInt number with ⟨first, same⟩
  exact DoubleWord.eq_ofInt_of_count ⟨turns + first, by omega⟩

theorem dec64_ofInt (number : Int) :
    nxPtpClientUtilityDec64 (.ofInt number) = .ofInt (number - 1) := by
  rcases count_dec64 (.ofInt number) with ⟨turns, difference⟩
  rcases DoubleWord.count_ofInt number with ⟨first, same⟩
  exact DoubleWord.eq_ofInt_of_count ⟨turns + first, by omega⟩

variable {a b}

theorem value_add64 (inside : DoubleWord.InRange (a.value + b.value)) :
    (nxPtpClientUtilityAdd64 a b.high b.low).value = a.value + b.value := by
  rcases count_add64 a b with ⟨turns, sum⟩
  rcases DoubleWord.value_wrap a with ⟨first, same⟩
  rcases DoubleWord.value_wrap b with ⟨second, sameSecond⟩
  exact DoubleWord.value_eq_of_count inside ⟨turns - first - second, by omega⟩

theorem value_sub64 (inside : DoubleWord.InRange (a.value - b.value)) :
    (nxPtpClientUtilitySub64 a b.high b.low).value = a.value - b.value := by
  rcases count_sub64 a b with ⟨turns, difference⟩
  rcases DoubleWord.value_wrap a with ⟨first, same⟩
  rcases DoubleWord.value_wrap b with ⟨second, sameSecond⟩
  exact DoubleWord.value_eq_of_count inside ⟨turns - first + second, by omega⟩

theorem value_inc64 (inside : DoubleWord.InRange (a.value + 1)) :
    (nxPtpClientUtilityInc64 a).value = a.value + 1 := by
  rcases count_inc64 a with ⟨turns, sum⟩
  rcases DoubleWord.value_wrap a with ⟨first, same⟩
  exact DoubleWord.value_eq_of_count inside ⟨turns - first, by omega⟩

theorem value_dec64 (inside : DoubleWord.InRange (a.value - 1)) :
    (nxPtpClientUtilityDec64 a).value = a.value - 1 := by
  rcases count_dec64 a with ⟨turns, difference⟩
  rcases DoubleWord.value_wrap a with ⟨first, same⟩
  exact DoubleWord.value_eq_of_count inside ⟨turns - first, by omega⟩

theorem value_neg64 (inside : DoubleWord.InRange (-a.value)) :
    (nxPtpClientUtilityNeg64 a).value = -a.value := by
  rcases count_neg64 a with ⟨turns, negated⟩
  rcases DoubleWord.value_wrap a with ⟨first, same⟩
  exact DoubleWord.value_eq_of_count inside ⟨turns + first, by omega⟩

end

/-! ## Times as numbers -/

namespace PtpTime

/-- The two words of seconds. -/
def words (time : PtpTime) : DoubleWord :=
  ⟨time.secondHigh, time.secondLow⟩

/-- Two words of seconds, and nanoseconds. -/
def ofWords (seconds : DoubleWord) (ns : BitVec 32) : PtpTime :=
  ⟨seconds.high, seconds.low, ns⟩

/-- The number of nanoseconds. -/
def total (time : PtpTime) : Int :=
  time.words.value * 1000000000 + time.nanosecond.toInt

/-- The nanoseconds stay below a second, in either direction. -/
def Carried (time : PtpTime) : Prop :=
  -1000000000 < time.nanosecond.toInt ∧ time.nanosecond.toInt < 1000000000

/-- Moreover they have the sign of the seconds. -/
def Aligned (time : PtpTime) : Prop :=
  time.Carried ∧ (0 < time.words.value → 0 ≤ time.nanosecond.toInt) ∧
    (time.words.value < 0 → time.nanosecond.toInt ≤ 0)

/-- The aligned time with a number of nanoseconds. -/
def ofTotal (total : Int) : PtpTime :=
  ofWords (DoubleWord.ofInt (total.tdiv 1000000000)) (BitVec.ofInt 32 (total.tmod 1000000000))

/-- A number of nanoseconds of at most `2^61` seconds, in either direction. -/
def Moderate (total : Int) : Prop :=
  -2305843009213693952000000000 ≤ total ∧ total ≤ 2305843009213693952000000000

/-- A number of nanoseconds of less than `2^63` seconds, in either direction. -/
def InSpan (total : Int) : Prop :=
  -9223372036854775808000000000 < total ∧ total < 9223372036854775808000000000

instance (time : PtpTime) : Decidable time.Carried :=
  inferInstanceAs (Decidable (_ ∧ _))

instance (time : PtpTime) : Decidable time.Aligned :=
  inferInstanceAs (Decidable (_ ∧ _))

instance (total : Int) : Decidable (Moderate total) :=
  inferInstanceAs (Decidable (_ ∧ _))

theorem aligned_ofWords {seconds : DoubleWord} {ns : BitVec 32} :
    (ofWords seconds ns).Aligned ↔ (-1000000000 < ns.toInt ∧ ns.toInt < 1000000000) ∧
      (0 < seconds.value → 0 ≤ ns.toInt) ∧ (seconds.value < 0 → ns.toInt ≤ 0) :=
  Iff.rfl

theorem total_ofWords (seconds : DoubleWord) (ns : BitVec 32) :
    (ofWords seconds ns).total = seconds.value * 1000000000 + ns.toInt :=
  rfl

/-- Truncated division by a second. -/
theorem second_split (total : Int) :
    total = total.tdiv 1000000000 * 1000000000 + total.tmod 1000000000 ∧
      -1000000000 < total.tmod 1000000000 ∧ total.tmod 1000000000 < 1000000000 ∧
      (0 ≤ total → 0 ≤ total.tmod 1000000000) ∧ (total ≤ 0 → total.tmod 1000000000 ≤ 0) := by
  have split := Int.mul_tdiv_add_tmod total 1000000000
  have upper := Int.tmod_lt_of_pos total (show (0 : Int) < 1000000000 by decide)
  have lower := Int.lt_tmod_of_pos total (show (0 : Int) < 1000000000 by decide)
  have nonneg : 0 ≤ total → 0 ≤ total.tmod 1000000000 := Int.tmod_nonneg 1000000000
  have nonpos : 0 ≤ -total → 0 ≤ (-total).tmod 1000000000 := Int.tmod_nonneg 1000000000
  rw [Int.neg_tmod] at nonpos
  omega

theorem toInt_ofInt_small {number : Int} (lower : -2147483648 ≤ number)
    (upper : number < 2147483648) : (BitVec.ofInt 32 number).toInt = number := by
  rw [BitVec.toInt_ofInt]
  exact Int.bmod_eq_of_le lower upper

/-- The number of nanoseconds determines an aligned time. -/
theorem eq_ofTotal {time : PtpTime} (aligned : time.Aligned) : time = ofTotal time.total := by
  rcases aligned with ⟨⟨lower, upper⟩, positive, negative⟩
  have split := second_split time.total
  have parts : time.total.tdiv 1000000000 = time.words.value ∧
      time.total.tmod 1000000000 = time.nanosecond.toInt := by
    unfold total at *
    omega
  unfold ofTotal
  rw [parts.1, parts.2, DoubleWord.ofInt_value, BitVec.ofInt_toInt]
  rfl

theorem ofTotal_parts {number : Int} (inside : InSpan number) :
    (ofTotal number).words.value = number.tdiv 1000000000 ∧
      (ofTotal number).nanosecond.toInt = number.tmod 1000000000 := by
  have split := second_split number
  unfold InSpan at inside
  constructor
  · apply DoubleWord.value_ofInt
    unfold DoubleWord.InRange
    omega
  · apply toInt_ofInt_small <;> omega

@[simp]
theorem total_ofTotal {number : Int} (inside : InSpan number) :
    (ofTotal number).total = number := by
  have split := second_split number
  rcases ofTotal_parts inside with ⟨seconds, nanoseconds⟩
  rw [total, seconds, nanoseconds]
  exact split.1.symm

theorem aligned_ofTotal {number : Int} (inside : InSpan number) :
    (ofTotal number).Aligned := by
  have split := second_split number
  rcases ofTotal_parts inside with ⟨seconds, nanoseconds⟩
  unfold Aligned Carried
  rw [seconds, nanoseconds]
  omega

end PtpTime

/-! ## Sums and differences -/

/-- `NX_PTP_NANOSECONDS_PER_SEC`. -/
def nanosecondsPerSec : BitVec 32 := 1000000000

/-- Keep the nanoseconds below a second: the third step of the sum and the difference. -/
def keepInRange (seconds : DoubleWord) (ns : BitVec 32) : DoubleWord × BitVec 32 :=
  if ns.toInt ≤ -1000000000 then
    (nxPtpClientUtilityDec64 seconds, ns + nanosecondsPerSec)
  else if 1000000000 ≤ ns.toInt then
    (nxPtpClientUtilityInc64 seconds, ns - nanosecondsPerSec)
  else
    (seconds, ns)

/-- Give the nanoseconds the sign of the seconds: the last step of both. -/
def ensureSameSign (seconds : DoubleWord) (ns : BitVec 32) : DoubleWord × BitVec 32 :=
  if 0 ≤ seconds.high.toInt ∧ (seconds.high ≠ 0 ∨ seconds.low ≠ 0) then
    if ns.toInt < 0 then
      (nxPtpClientUtilityDec64 seconds, ns + nanosecondsPerSec)
    else
      (seconds, ns)
  else if seconds.high.toInt < 0 then
    if 0 < ns.toInt then
      (nxPtpClientUtilityInc64 seconds, ns - nanosecondsPerSec)
    else
      (seconds, ns)
  else
    (seconds, ns)

/-- Both steps, and the result time. -/
def resultTime (seconds : DoubleWord) (ns : BitVec 32) : PtpTime :=
  let (seconds, ns) := keepInRange seconds ns
  let (seconds, ns) := ensureSameSign seconds ns
  .ofWords seconds ns

/-- `_nx_ptp_client_utility_time_diff`. -/
def nxPtpClientUtilityTimeDiff (time1 time2 : PtpTime) : PtpTime :=
  resultTime (nxPtpClientUtilitySub64 time1.words time2.secondHigh time2.secondLow)
    (time1.nanosecond - time2.nanosecond)

/-- `_nx_ptp_client_utility_time_sum`. -/
def nxPtpClientUtilityTimeSum (time1 time2 : PtpTime) : PtpTime :=
  resultTime (nxPtpClientUtilityAdd64 time1.words time2.secondHigh time2.secondLow)
    (time1.nanosecond + time2.nanosecond)

/-- `_nx_ptp_client_utility_time_div_by_2`. -/
def nxPtpClientUtilityTimeDivBy2 (time : PtpTime) : PtpTime :=
  let neg : Bool := time.secondHigh.toInt < 0 ∨ time.nanosecond.toInt < 0
  let seconds := if neg then nxPtpClientUtilityNeg64 time.words else time.words
  let ns := if neg then -time.nanosecond else time.nanosecond
  let ns := ns.sshiftRight 1
  let ns := if seconds.low &&& 1 ≠ 0 then ns + 500000000 else ns
  let secLo := seconds.low >>> 1
  let secLo := if seconds.high &&& 1 ≠ 0 then secLo ||| 0x80000000 else secLo
  let halved : DoubleWord := ⟨seconds.high.sshiftRight 1, secLo⟩
  let seconds := if neg then nxPtpClientUtilityNeg64 halved else halved
  .ofWords seconds (if neg then -ns else ns)

section

variable {seconds : DoubleWord} {ns : BitVec 32}

theorem toInt_add_second (ns : BitVec 32) (negative : ns.toInt < 0) :
    (ns + nanosecondsPerSec).toInt = ns.toInt + 1000000000 := by
  have second : nanosecondsPerSec.toInt = 1000000000 := by decide
  have bounds := toInt_bounds ns
  rw [← second]
  apply toInt_add_eq <;> rw [second] <;> omega

theorem toInt_sub_second (ns : BitVec 32) (positive : 0 < ns.toInt) :
    (ns - nanosecondsPerSec).toInt = ns.toInt - 1000000000 := by
  have second : nanosecondsPerSec.toInt = 1000000000 := by decide
  have bounds := toInt_bounds ns
  rw [← second]
  apply toInt_sub_eq <;> rw [second] <;> omega

/-- The first step keeps the total. -/
theorem keepInRange_spec (lower : -9223372036854775808 < seconds.value)
    (upper : seconds.value < 9223372036854775807)
    (below : -2000000000 < ns.toInt) (above : ns.toInt < 2000000000) :
    let result := keepInRange seconds ns
    result.1.value * 1000000000 + result.2.toInt = seconds.value * 1000000000 + ns.toInt ∧
      -1000000000 < result.2.toInt ∧ result.2.toInt < 1000000000 := by
  unfold keepInRange
  by_cases borrow : ns.toInt ≤ -1000000000
  · have taken : (nxPtpClientUtilityDec64 seconds).value = seconds.value - 1 :=
      value_dec64 (by unfold DoubleWord.InRange; omega)
    rw [if_pos borrow]
    dsimp only
    rw [toInt_add_second ns (by omega), taken]
    omega
  · rw [if_neg borrow]
    by_cases carry : 1000000000 ≤ ns.toInt
    · have added : (nxPtpClientUtilityInc64 seconds).value = seconds.value + 1 :=
        value_inc64 (by unfold DoubleWord.InRange; omega)
      rw [if_pos carry]
      dsimp only
      rw [toInt_sub_second ns (by omega), added]
      omega
    · rw [if_neg carry]
      dsimp only
      omega

/-- The second step aligns, and keeps the total. -/
theorem ensureSameSign_spec (seconds : DoubleWord) (lower : -1000000000 < ns.toInt)
    (upper : ns.toInt < 1000000000) :
    let result := ensureSameSign seconds ns
    (PtpTime.ofWords result.1 result.2).Aligned ∧
      (PtpTime.ofWords result.1 result.2).total =
        seconds.value * 1000000000 + ns.toInt := by
  have range := seconds.value_inRange
  unfold DoubleWord.InRange at range
  unfold ensureSameSign
  simp only [← DoubleWord.value_pos_iff, ← DoubleWord.value_neg_iff, PtpTime.aligned_ofWords,
    PtpTime.total_ofWords]
  by_cases positive : 0 < seconds.value
  · rw [if_pos positive]
    by_cases borrow : ns.toInt < 0
    · have taken : (nxPtpClientUtilityDec64 seconds).value = seconds.value - 1 :=
        value_dec64 (by unfold DoubleWord.InRange; omega)
      rw [if_pos borrow]
      dsimp only
      rw [toInt_add_second ns borrow, taken]
      omega
    · rw [if_neg borrow]
      dsimp only
      omega
  · rw [if_neg positive]
    by_cases negative : seconds.value < 0
    · rw [if_pos negative]
      by_cases carry : 0 < ns.toInt
      · have added : (nxPtpClientUtilityInc64 seconds).value = seconds.value + 1 :=
          value_inc64 (by unfold DoubleWord.InRange; omega)
        rw [if_pos carry]
        dsimp only
        rw [toInt_sub_second ns carry, added]
        omega
      · rw [if_neg carry]
        dsimp only
        omega
    · rw [if_neg negative]
      dsimp only
      omega

/-- Both steps give the aligned time with the total. -/
theorem resultTime_eq {number nanoseconds : Int} (value : seconds.value = number)
    (signed : ns.toInt = nanoseconds) (lower : -9223372036854775808 < number)
    (upper : number < 9223372036854775807)
    (below : -2000000000 < nanoseconds) (above : nanoseconds < 2000000000) :
    resultTime seconds ns = .ofTotal (number * 1000000000 + nanoseconds) := by
  subst value signed
  rcases keepInRange_spec lower upper below above with ⟨kept, inside⟩
  rcases ensureSameSign_spec (keepInRange seconds ns).1 inside.1 inside.2
    with ⟨aligned, total⟩
  rw [← kept, ← total]
  exact PtpTime.eq_ofTotal aligned

end

theorem PtpTime.words_bounds {time : PtpTime} (carried : time.Carried)
    (moderate : Moderate time.total) :
    -2305843009213693952 ≤ time.words.value ∧ time.words.value ≤ 2305843009213693952 := by
  unfold Carried at carried
  unfold Moderate total at moderate
  omega

section

variable {time1 time2 : PtpTime}

theorem timeDiff_eq (carried1 : time1.Carried) (carried2 : time2.Carried)
    (moderate1 : PtpTime.Moderate time1.total) (moderate2 : PtpTime.Moderate time2.total) :
    nxPtpClientUtilityTimeDiff time1 time2 = .ofTotal (time1.total - time2.total) := by
  have bounds1 := PtpTime.words_bounds carried1 moderate1
  have bounds2 := PtpTime.words_bounds carried2 moderate2
  unfold PtpTime.Carried at carried1 carried2
  have totals : time1.total - time2.total =
      (time1.words.value - time2.words.value) * 1000000000 +
        (time1.nanosecond.toInt - time2.nanosecond.toInt) := by
    unfold PtpTime.total
    omega
  have seconds := value_sub64 (a := time1.words) (b := time2.words)
    (by unfold DoubleWord.InRange; omega)
  have nanoseconds : (time1.nanosecond - time2.nanosecond).toInt =
      time1.nanosecond.toInt - time2.nanosecond.toInt := by
    apply toInt_sub_eq <;> omega
  rw [totals]
  exact resultTime_eq seconds nanoseconds (by omega) (by omega) (by omega) (by omega)

/-- A sum whose seconds stay below `2^63 - 1`. -/
theorem timeSum_eq_of_words (carried1 : time1.Carried) (carried2 : time2.Carried)
    (lower : -9223372036854775807 ≤ time1.words.value + time2.words.value)
    (upper : time1.words.value + time2.words.value < 9223372036854775807) :
    nxPtpClientUtilityTimeSum time1 time2 = .ofTotal (time1.total + time2.total) := by
  unfold PtpTime.Carried at carried1 carried2
  have totals : time1.total + time2.total =
      (time1.words.value + time2.words.value) * 1000000000 +
        (time1.nanosecond.toInt + time2.nanosecond.toInt) := by
    unfold PtpTime.total
    omega
  have seconds := value_add64 (a := time1.words) (b := time2.words)
    (by unfold DoubleWord.InRange; omega)
  have nanoseconds : (time1.nanosecond + time2.nanosecond).toInt =
      time1.nanosecond.toInt + time2.nanosecond.toInt := by
    apply toInt_add_eq <;> omega
  rw [totals]
  exact resultTime_eq seconds nanoseconds (by omega) (by omega) (by omega) (by omega)

theorem timeSum_eq (carried1 : time1.Carried) (carried2 : time2.Carried)
    (moderate1 : PtpTime.Moderate time1.total) (moderate2 : PtpTime.Moderate time2.total) :
    nxPtpClientUtilityTimeSum time1 time2 = .ofTotal (time1.total + time2.total) := by
  have bounds1 := PtpTime.words_bounds carried1 moderate1
  have bounds2 := PtpTime.words_bounds carried2 moderate2
  exact timeSum_eq_of_words carried1 carried2 (by omega) (by omega)

/-- Sums and differences of times below `2^61` seconds have the sum and the difference of
the numbers of nanoseconds, aligned; adding the subtracted time again gives the aligned
form of the first one. -/
theorem ptp_time_sum_diff (carried1 : time1.Carried) (carried2 : time2.Carried)
    (moderate1 : PtpTime.Moderate time1.total) (moderate2 : PtpTime.Moderate time2.total) :
    let sum := nxPtpClientUtilityTimeSum time1 time2
    let difference := nxPtpClientUtilityTimeDiff time1 time2
    (sum.Aligned ∧ sum.total = time1.total + time2.total) ∧
      (difference.Aligned ∧ difference.total = time1.total - time2.total) ∧
      nxPtpClientUtilityTimeSum difference time2 = .ofTotal time1.total := by
  have inside : PtpTime.InSpan (time1.total + time2.total) := by
    unfold PtpTime.InSpan
    unfold PtpTime.Moderate at moderate1 moderate2
    omega
  have difference : PtpTime.InSpan (time1.total - time2.total) := by
    unfold PtpTime.InSpan
    unfold PtpTime.Moderate at moderate1 moderate2
    omega
  have aligned := PtpTime.aligned_ofTotal difference
  have total := PtpTime.total_ofTotal difference
  dsimp only
  rw [timeSum_eq carried1 carried2 moderate1 moderate2,
    timeDiff_eq carried1 carried2 moderate1 moderate2]
  refine ⟨⟨PtpTime.aligned_ofTotal inside, PtpTime.total_ofTotal inside⟩, ⟨aligned, total⟩, ?_⟩
  have bounds2 := PtpTime.words_bounds carried2 moderate2
  have bounds : -4611686018427387904 ≤ (PtpTime.ofTotal (time1.total - time2.total)).words.value ∧
      (PtpTime.ofTotal (time1.total - time2.total)).words.value ≤ 4611686018427387904 := by
    have carried := aligned.1
    have number : (PtpTime.ofTotal (time1.total - time2.total)).words.value * 1000000000 +
        (PtpTime.ofTotal (time1.total - time2.total)).nanosecond.toInt =
          time1.total - time2.total := total
    unfold PtpTime.Carried at carried
    unfold PtpTime.Moderate at moderate1 moderate2
    omega
  rw [timeSum_eq_of_words aligned.1 carried2 (by omega) (by omega), total, Int.sub_add_cancel]

/-- One nanosecond before the second `2^32`, taken from the second `2^32`. -/
theorem ptp_time_sum_diff_borrow :
    nxPtpClientUtilityTimeDiff ⟨1, 0, 0⟩ ⟨0, 0xFFFFFFFF, 999999999⟩ = ⟨0, 0, 1⟩ ∧
      nxPtpClientUtilityTimeSum (nxPtpClientUtilityTimeDiff ⟨1, 0, 0⟩ ⟨0, 0xFFFFFFFF, 999999999⟩)
        ⟨0, 0xFFFFFFFF, 999999999⟩ = .ofTotal (PtpTime.total ⟨1, 0, 0⟩) :=
  ⟨by decide, (ptp_time_sum_diff (by decide) (by decide) (by decide) (by decide)).2.2⟩

end

/-! ## Halves -/

/-- The division of a time that is not negative. -/
def halfTime (seconds : DoubleWord) (ns : BitVec 32) : DoubleWord × BitVec 32 :=
  let ns := ns.sshiftRight 1
  (seconds.halve, if seconds.low &&& 1 ≠ 0 then ns + 500000000 else ns)

theorem halfTime_spec (seconds : DoubleWord) {ns : BitVec 32} (low : 0 ≤ ns.toInt)
    (high : ns.toInt < 1000000000) :
    let result := halfTime seconds ns
    result.1.value = seconds.value / 2 ∧ 0 ≤ result.2.toInt ∧ result.2.toInt < 1000000000 ∧
      result.1.value * 1000000000 + result.2.toInt =
        (seconds.value * 1000000000 + ns.toInt) / 2 := by
  have half : (ns.sshiftRight 1).toInt = ns.toInt / 2 := by
    rw [BitVec.toInt_sshiftRight, Int.shiftRight_eq_div_pow]
    rfl
  have rest : (500000000 : BitVec 32).toInt = 500000000 := by decide
  have sum : (ns.sshiftRight 1 + 500000000).toInt = ns.toInt / 2 + 500000000 := by
    rw [← half, ← rest]
    apply toInt_add_eq <;> rw [half, rest] <;> omega
  have parity : seconds.value % 2 = seconds.low.toNat % 2 := by
    unfold DoubleWord.value
    omega
  unfold halfTime
  simp only [and_one_ne_zero_iff]
  rw [DoubleWord.value_halve]
  by_cases odd : seconds.low.toNat % 2 = 1
  · rw [if_pos odd, sum]
    omega
  · rw [if_neg odd, half]
    omega

/-- The half of the absolute value, with the sign restored. -/
theorem timeDivBy2_split (time : PtpTime) :
    nxPtpClientUtilityTimeDivBy2 time =
      if time.secondHigh.toInt < 0 ∨ time.nanosecond.toInt < 0 then
        let result := halfTime (nxPtpClientUtilityNeg64 time.words) (-time.nanosecond)
        .ofWords (nxPtpClientUtilityNeg64 result.1) (-result.2)
      else
        let result := halfTime time.words time.nanosecond
        .ofWords result.1 result.2 := by
  by_cases negative : time.secondHigh.toInt < 0 ∨ time.nanosecond.toInt < 0
  · simp only [nxPtpClientUtilityTimeDivBy2, negative, decide_true, if_true]
    rfl
  · simp only [nxPtpClientUtilityTimeDivBy2, negative, decide_false, Bool.false_eq_true, if_false]
    rfl

/-- The half of a time that is not negative, and the same with the sign changed. -/
theorem ofWords_halfTime {seconds : DoubleWord} {ns : BitVec 32} (nonneg : 0 ≤ seconds.value)
    (low : 0 ≤ ns.toInt) (high : ns.toInt < 1000000000) :
    let result := halfTime seconds ns
    let half := (seconds.value * 1000000000 + ns.toInt) / 2
    PtpTime.ofWords result.1 result.2 = .ofTotal half ∧
      PtpTime.ofWords (nxPtpClientUtilityNeg64 result.1) (-result.2) = .ofTotal (-half) := by
  rcases halfTime_spec seconds low high with ⟨half, low, high, sum⟩
  have range := seconds.value_inRange
  unfold DoubleWord.InRange at range
  have negated : (nxPtpClientUtilityNeg64 (halfTime seconds ns).1).value =
      -(halfTime seconds ns).1.value :=
    value_neg64 (by unfold DoubleWord.InRange; omega)
  have negatedNs : (-(halfTime seconds ns).2).toInt = -(halfTime seconds ns).2.toInt :=
    toInt_neg_eq (by omega)
  have negatedSum : -((seconds.value * 1000000000 + ns.toInt) / 2) =
      (nxPtpClientUtilityNeg64 (halfTime seconds ns).1).value * 1000000000 +
        (-(halfTime seconds ns).2).toInt := by
    omega
  dsimp only
  constructor
  · rw [← sum, ← PtpTime.total_ofWords]
    apply PtpTime.eq_ofTotal
    rw [PtpTime.aligned_ofWords]
    omega
  · rw [negatedSum, ← PtpTime.total_ofWords]
    apply PtpTime.eq_ofTotal
    rw [PtpTime.aligned_ofWords]
    omega

theorem timeDivBy2_eq {time : PtpTime} (aligned : time.Aligned)
    (moderate : PtpTime.Moderate time.total) :
    nxPtpClientUtilityTimeDivBy2 time = .ofTotal (time.total.tdiv 2) := by
  rcases aligned with ⟨carried, positive, negative⟩
  have bounds := PtpTime.words_bounds carried moderate
  have sign : time.words.value < 0 ↔ time.secondHigh.toInt < 0 := DoubleWord.value_neg_iff
  have total : time.total = time.words.value * 1000000000 + time.nanosecond.toInt := rfl
  unfold PtpTime.Carried at carried
  rw [timeDivBy2_split]
  by_cases below : time.secondHigh.toInt < 0 ∨ time.nanosecond.toInt < 0
  · have seconds : (nxPtpClientUtilityNeg64 time.words).value = -time.words.value :=
      value_neg64 (by unfold DoubleWord.InRange; omega)
    have nanoseconds : (-time.nanosecond).toInt = -time.nanosecond.toInt :=
      toInt_neg_eq (by omega)
    have negated : -time.total = (nxPtpClientUtilityNeg64 time.words).value * 1000000000 +
        (-time.nanosecond).toInt := by
      omega
    have quotient : time.total.tdiv 2 = -(-time.total / 2) := by
      rw [← Int.tdiv_eq_ediv_of_nonneg (by omega), Int.neg_tdiv, Int.neg_neg]
    rw [if_pos below, quotient, negated]
    exact (ofWords_halfTime (by omega) (by omega) (by omega)).2
  · have quotient : time.total.tdiv 2 = time.total / 2 :=
      Int.tdiv_eq_ediv_of_nonneg (by omega)
    rw [if_neg below, quotient, total]
    exact (ofWords_halfTime (by omega) (by omega) (by omega)).1

end EmbeddedBase.NetX
