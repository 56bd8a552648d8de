import EmbeddedBase.Data.RegisterField
import EmbeddedBase.Data.Words
import Mathlib.Algebra.Order.Field.Basic
import Mathlib.Algebra.Order.Field.Rat
import Mathlib.Data.Rat.Lemmas
import Mathlib.Tactic.Linarith
import Mathlib.Tactic.NormNum
import Mathlib.Tactic.Ring

/-!
# The Honeywell SSC pressure sensor

The model of `honeywellSSC.c`, with `float` as the rationals.  The pressure is computed in
integers, with the lowest pressure in the place of the lowest output, before it becomes a
`float`.
-/

namespace EmbeddedBase.General.HoneywellSsc

open EmbeddedBase.Data

/-! ## The driver -/

/-- `SSC_STATUS_NORMAL`. -/
def sscStatusNormal : BitVec 8 := 0x00

/-- `SSC_STATUS_MASK`. -/
def sscStatusMask : BitVec 16 := 0xC000

/-- `SSC_PRESSURE_MASK`. -/
def sscPressureMask : BitVec 16 := 0x3FFF

/-- `SSC_TEMP_MASK`. -/
def sscTempMask : BitVec 16 := 0xFFE0

/-- `SSC_OUTPUT_MIN`. -/
def sscOutputMin : ℤ := 0

/-- `SSC_OUTPUT_MAX`. -/
def sscOutputMax : ℤ := 16384

/-- `SSC_TEMP_COUNTS_MAX`. -/
def sscTempCountsMax : ℚ := 2047

/-- `SSC_TEMP_OFFSET`. -/
def sscTempOffset : ℚ := -50

/-- `SSC_TEMP_SCALE`. -/
def sscTempScale : ℚ := 200

/-- `ReadPtr`: the status, and the bytes stored in the buffer of the given size. -/
abbrev ReadPtr :=
  BitVec 16 → (dataSize : Nat) → Int × Vector (BitVec 8) dataSize

/-- `honeywellSSC_t`. -/
structure HoneywellSscT where
  devAddr : BitVec 16
  read : ReadPtr
  minPressure : BitVec 8
  maxPressure : BitVec 8

/-- `honeywellSSC_init`. -/
def honeywellSscInit (read : ReadPtr) (devAddr : BitVec 16) (minPressure maxPressure : BitVec 8) :
    HoneywellSscT :=
  { devAddr := devAddr
    read := read
    minPressure := minPressure
    maxPressure := maxPressure }

/-- `honeywellSSC_read_data`.  After a failure nothing reads the buffer. -/
def honeywellSscReadData (ssc : HoneywellSscT) (dataSize : Nat) :
    Int × Vector (BitVec 8) dataSize :=
  if dataSize ≠ 2 ∧ dataSize ≠ 4 then (-1, Vector.replicate dataSize 0)
  else ssc.read ssc.devAddr dataSize

/-- `honeywellSSC_read_status`. -/
def honeywellSscReadStatus (data : BitVec 16) : BitVec 8 :=
  ((data &&& sscStatusMask) >>> 14).setWidth 8

/-- `((uint16_t)first << 8) | second`. -/
def wordOf (first second : BitVec 8) : BitVec 16 :=
  first.setWidth 16 <<< 8 ||| second.setWidth 16

/-- The pressure, in the `int` arithmetic of C. -/
def pressureReading (ssc : HoneywellSscT) (pressureData : BitVec 16) : ℤ :=
  (((pressureData.toNat : ℤ) - ssc.minPressure.toNat) *
      ((ssc.maxPressure.toNat : ℤ) - ssc.minPressure.toNat)).tdiv (sscOutputMax - sscOutputMin) +
    ssc.minPressure.toNat

/-- The temperature. -/
def temperatureReading (tempData : BitVec 16) : ℚ :=
  (tempData.toNat : ℚ) / sscTempCountsMax * sscTempScale + sscTempOffset

/-- `honeywellSSC_read_pressure`: the returned value, and what is stored in `*result`. -/
def honeywellSscReadPressure (ssc : HoneywellSscT) : Int × Option ℚ :=
  let answer := honeywellSscReadData ssc 2
  if answer.1 ≠ 0 then (answer.1, none)
  else
    let statusAndPressureData := wordOf answer.2[0] answer.2[1]
    if honeywellSscReadStatus statusAndPressureData ≠ sscStatusNormal then (-1, none)
    else
      let pressureData := statusAndPressureData &&& sscPressureMask
      (0, some (pressureReading ssc pressureData : ℚ))

/-- `honeywellSSC_read_pressure_and_temp`: the returned value, and what is stored in
`*pressure_result` and `*temp_result`. -/
def honeywellSscReadPressureAndTemp (ssc : HoneywellSscT) : Int × Option (ℚ × ℚ) :=
  let answer := honeywellSscReadData ssc 4
  if answer.1 ≠ 0 then (answer.1, none)
  else
    let statusAndPressureData := wordOf answer.2[0] answer.2[1]
    let pressureData := statusAndPressureData &&& sscPressureMask
    let tempData := (wordOf answer.2[2] answer.2[3] &&& sscTempMask) >>> 5
    if honeywellSscReadStatus statusAndPressureData ≠ sscStatusNormal then (-1, none)
    else (0, some ((pressureReading ssc pressureData : ℚ), temperatureReading tempData))

/-! ## The sensor -/

/-- The four bytes of a measurement. -/
abbrev Measurement :=
  Vector (BitVec 8) 4

/-- The sensor sends the bytes of a measurement in order. -/
def sensorRead (bytes : Measurement) : ReadPtr :=
  fun _ _ => (0, Vector.ofFn fun i => bytes[i.val]?.getD 0)

/-- The driver on the sensor. -/
def onSensor (bytes : Measurement) (devAddr : BitVec 16) (minPressure maxPressure : BitVec 8) :
    HoneywellSscT :=
  honeywellSscInit (sensorRead bytes) devAddr minPressure maxPressure

/-- The status bits of a measurement. -/
def status (bytes : Measurement) : BitVec 2 :=
  bytes[0].extractLsb' 6 2

/-- The raw output of a measurement: the 14 bits below the status. -/
def output (bytes : Measurement) : Nat :=
  bytes[0].toNat % 64 * 256 + bytes[1].toNat

/-- The transfer function. -/
def transfer (minPressure maxPressure : BitVec 8) (x : Nat) : ℚ :=
  ((x : ℚ) - sscOutputMin) * ((maxPressure.toNat : ℚ) - minPressure.toNat) /
    ((sscOutputMax : ℚ) - sscOutputMin) + minPressure.toNat

/-- One count of pressure. -/
def count (minPressure maxPressure : BitVec 8) : ℚ :=
  ((maxPressure.toNat : ℚ) - minPressure.toNat) / 16384

/-- A valid measurement is reported by both functions as the transfer function says. -/
structure FollowsTransfer (devAddr : BitVec 16) (minPressure maxPressure : BitVec 8)
    (bytes : Measurement) : Prop where
  reported : ∃ pressure temp,
    honeywellSscReadPressure (onSensor bytes devAddr minPressure maxPressure) =
        (0, some pressure) ∧
      honeywellSscReadPressureAndTemp (onSensor bytes devAddr minPressure maxPressure) =
        (0, some (pressure, temp)) ∧
      |pressure - transfer minPressure maxPressure (output bytes)| ≤
        count minPressure maxPressure ∧
      (minPressure.toNat : ℚ) ≤ pressure ∧ pressure ≤ maxPressure.toNat
  monotone : ∀ more : Measurement, status more = 0 → output bytes ≤ output more →
    ∀ pressure pressure',
      (honeywellSscReadPressure (onSensor bytes devAddr minPressure maxPressure)).2 =
        some pressure →
      (honeywellSscReadPressure (onSensor more devAddr minPressure maxPressure)).2 =
        some pressure' →
      pressure ≤ pressure'

/-- Another status leaves the results alone. -/
def LeftUnwritten (devAddr : BitVec 16) (minPressure maxPressure : BitVec 8)
    (bytes : Measurement) : Prop :=
  (honeywellSscReadPressure (onSensor bytes devAddr minPressure maxPressure)).2 = none ∧
    (honeywellSscReadPressureAndTemp (onSensor bytes devAddr minPressure maxPressure)).2 = none

/-! ## The integer quotient -/

/-- The whole counts of pressure above the lowest, as the driver divides. -/
def quotient (low high x : Nat) : ℤ :=
  (((x : ℤ) - low) * ((high : ℤ) - low)).tdiv 16384

/-- An output below the lowest pressure gives a product above minus one count. -/
theorem quotient_of_lt {low high x : Nat} (ordered : low < high) (byte : high < 256)
    (below : x < low) : quotient low high x = 0 := by
  rcases Nat.exists_eq_add_of_lt below with ⟨gap, rfl⟩
  rcases Nat.exists_eq_add_of_lt ordered with ⟨range, rfl⟩
  have product :
      ((x : ℤ) - (x + gap + 1 : ℕ)) * ((x + gap + 1 + range + 1 : ℕ) - (x + gap + 1 : ℕ)) =
        -(((gap + 1) * (range + 1) : ℕ) : ℤ) := by push_cast; ring
  have small : (gap + 1) * (range + 1) < 16384 := by nlinarith [sq_nonneg ((gap : ℤ) - range)]
  rw [quotient, product, Int.neg_tdiv, Int.tdiv_eq_ediv_of_nonneg (Int.natCast_nonneg _),
    Int.ediv_eq_zero_of_lt (Int.natCast_nonneg _) (by exact_mod_cast small), neg_zero]

theorem quotient_of_le {low high x : Nat} (ordered : low < high) (above : low ≤ x) :
    quotient low high x = ((x - low) * (high - low) / 16384 : ℕ) := by
  have product : ((x : ℤ) - low) * ((high : ℤ) - low) = ((x - low) * (high - low) : ℕ) := by
    rw [Nat.cast_mul, Nat.cast_sub above, Nat.cast_sub ordered.le]
  rw [quotient, product, Int.tdiv_eq_ediv_of_nonneg (Int.natCast_nonneg _)]
  norm_cast

/-- The pressure stays in its range. -/
theorem quotient_mem {low high x : Nat} (ordered : low < high) (byte : high < 256)
    (counts : x < 16384) : 0 ≤ quotient low high x ∧ quotient low high x ≤ (high : ℤ) - low := by
  rcases Nat.lt_or_ge x low with below | above
  · rw [quotient_of_lt ordered byte below]
    omega
  · rw [quotient_of_le ordered above]
    have bounded : (x - low) * (high - low) / 16384 ≤ high - low := by
      apply Nat.div_le_of_le_mul
      exact Nat.mul_le_mul_right _ (by omega)
    omega

/-- The pressure never decreases. -/
theorem quotient_mono {low high x y : Nat} (ordered : low < high) (byte : high < 256)
    (le : x ≤ y) (counts : y < 16384) : quotient low high x ≤ quotient low high y := by
  rcases Nat.lt_or_ge x low with below | above
  · rw [quotient_of_lt ordered byte below]
    exact (quotient_mem ordered byte counts).1
  · rw [quotient_of_le ordered above, quotient_of_le ordered (above.trans le)]
    have product : (x - low) * (high - low) ≤ (y - low) * (high - low) :=
      Nat.mul_le_mul_right _ (by omega)
    exact_mod_cast Nat.div_le_div_right product

/-- When the quotient is within one count: at the lowest two outputs; from zero if the
remainder is at most one count; from one if there is none. -/
def Accurate (low high x : Nat) : Prop :=
  x ≤ 1 ∨ (low = 0 ∧ x * high % 16384 ≤ high) ∨
    (low = 1 ∧ (x - 1) * (high - 1) % 16384 = 0)

theorem remainder_le_iff (low rest range : Nat) :
    low * (range + 1) + rest * (range + 1) % 16384 ≤ range + 1 ↔
      Accurate low (low + (range + 1)) (low + rest) := by
  rw [Accurate]
  match low with
  | 0 =>
      simp only [zero_mul, zero_add, true_and]
      constructor
      · intro small
        exact .inr (.inl small)
      · rintro (first | small | ⟨one, _⟩)
        · have product : rest * (range + 1) ≤ 1 * (range + 1) := Nat.mul_le_mul_right _ first
          exact (Nat.mod_le _ _).trans (product.trans_eq (one_mul _))
        · exact small
        · cases one
  | 1 =>
      have shifted : 1 + rest - 1 = rest ∧ 1 + (range + 1) - 1 = range + 1 := by omega
      rw [shifted.1, shifted.2]
      constructor
      · intro small
        exact .inr (.inr ⟨rfl, by omega⟩)
      · rintro (first | ⟨zero, _⟩ | ⟨_, none⟩)
        · have zero : rest = 0 := by omega
          simp [zero]
        · cases zero
        · omega
  | low + 2 =>
      have large : (low + 2) * (range + 1) = low * (range + 1) + 2 * (range + 1) := by ring
      constructor
      · intro small
        omega
      · rintro (first | ⟨zero, _⟩ | ⟨one, _⟩) <;> omega

theorem quotient_accurate_iff {low high x : Nat} (ordered : low < high) (byte : high < 256) :
    |16384 * quotient low high x - x * ((high : ℤ) - low)| ≤ (high : ℤ) - low ↔
      Accurate low high x := by
  rcases Nat.lt_or_ge x low with below | above
  · rw [quotient_of_lt ordered byte below, mul_zero, zero_sub, abs_neg, Accurate,
      abs_of_nonneg (mul_nonneg (by omega) (by omega))]
    have range : (0 : ℤ) < (high : ℤ) - low := by omega
    have one : (x : ℤ) * ((high : ℤ) - low) ≤ (high : ℤ) - low ↔ x ≤ 1 := by
      rw [mul_le_iff_le_one_left range]
      omega
    rw [one]
    omega
  · rcases Nat.exists_eq_add_of_le above with ⟨rest, rfl⟩
    rcases Nat.exists_eq_add_of_lt ordered with ⟨range, rfl⟩
    rw [quotient_of_le ordered above, Nat.add_sub_cancel_left, Nat.add_assoc,
      Nat.add_sub_cancel_left]
    have division := Nat.div_add_mod (rest * (range + 1)) 16384
    have error : 16384 * ((rest * (range + 1) / 16384 : ℕ) : ℤ) -
        ((low + rest : ℕ) : ℤ) * (((low + (range + 1) : ℕ) : ℤ) - low) =
          -((low * (range + 1) + rest * (range + 1) % 16384 : ℕ) : ℤ) := by
      have cast : ((16384 * (rest * (range + 1) / 16384) + rest * (range + 1) % 16384 : ℕ) : ℤ) =
          ((rest * (range + 1) : ℕ) : ℤ) := congrArg Nat.cast division
      push_cast at cast ⊢
      linarith
    have count : ((low + (range + 1) : ℕ) : ℤ) - low = (range + 1 : ℕ) := by push_cast; ring
    rw [error, count, abs_neg, abs_of_nonneg (Int.natCast_nonneg _), Nat.cast_le]
    exact remainder_le_iff low rest range

/-! ## Calls -/

theorem toNat_wordOf (first second : BitVec 8) :
    (wordOf first second).toNat = first.toNat * 256 + second.toNat :=
  toNat_shift_or first second

/-- The status that the driver takes out of the first word. -/
theorem readStatus_eq_normal_iff (bytes : Measurement) :
    honeywellSscReadStatus (wordOf bytes[0] bytes[1]) = sscStatusNormal ↔ status bytes = 0 := by
  have second := bytes[1].isLt
  have first := bytes[0].isLt
  have field : (wordOf bytes[0] bytes[1] &&& sscStatusMask) >>> 14 = _ :=
    and_fieldMask_shiftRight (wordOf bytes[0] bytes[1]) (by decide : 14 + 2 ≤ 16)
  have number : (honeywellSscReadStatus (wordOf bytes[0] bytes[1])).toNat =
      (status bytes).toNat := by
    rw [honeywellSscReadStatus, field, status, BitVec.toNat_setWidth, BitVec.toNat_setWidth,
      BitVec.extractLsb'_toNat, BitVec.extractLsb'_toNat, toNat_wordOf,
      Nat.shiftRight_eq_div_pow, Nat.shiftRight_eq_div_pow]
    omega
  rw [← BitVec.toNat_inj, ← BitVec.toNat_inj, number]
  rfl

/-- The output that the driver takes out of the first word. -/
theorem toNat_pressureData (bytes : Measurement) :
    (wordOf bytes[0] bytes[1] &&& sscPressureMask).toNat = output bytes := by
  have second := bytes[1].isLt
  have field : (wordOf bytes[0] bytes[1] &&& sscPressureMask) >>> 0 = _ :=
    and_fieldMask_shiftRight (wordOf bytes[0] bytes[1]) (by decide : 0 + 14 ≤ 16)
  rw [BitVec.ushiftRight_zero] at field
  rw [field, output, BitVec.toNat_setWidth, BitVec.extractLsb'_toNat, toNat_wordOf,
    Nat.shiftRight_eq_div_pow]
  omega

theorem output_lt (bytes : Measurement) : output bytes < 16384 := by
  have second := bytes[1].isLt
  rw [output]
  omega

/-- The pressure computed from an output. -/
def computed (minPressure maxPressure : BitVec 8) (x : Nat) : ℤ :=
  quotient minPressure.toNat maxPressure.toNat x + minPressure.toNat

section

variable (devAddr : BitVec 16) (minPressure maxPressure : BitVec 8) {bytes : Measurement}

theorem pressureReading_onSensor (bytes : Measurement) :
    pressureReading (onSensor bytes devAddr minPressure maxPressure)
        (wordOf bytes[0] bytes[1] &&& sscPressureMask) =
      computed minPressure maxPressure (output bytes) := by
  rw [pressureReading, toNat_pressureData]
  rfl

/-- A measurement with the normal status. -/
theorem readPressure_of_normal (normal : status bytes = 0) :
    honeywellSscReadPressure (onSensor bytes devAddr minPressure maxPressure) =
        (0, some (computed minPressure maxPressure (output bytes) : ℚ)) ∧
      ∃ temp, honeywellSscReadPressureAndTemp (onSensor bytes devAddr minPressure maxPressure) =
        (0, some ((computed minPressure maxPressure (output bytes) : ℚ), temp)) := by
  have checked := not_not_intro ((readStatus_eq_normal_iff bytes).mpr normal)
  constructor
  · rw [← pressureReading_onSensor devAddr]
    exact if_neg checked
  · rw [← pressureReading_onSensor devAddr]
    exact ⟨_, if_neg checked⟩

/-- A measurement with another status. -/
theorem leftUnwritten_of_not_normal (other : status bytes ≠ 0) :
    LeftUnwritten devAddr minPressure maxPressure bytes := by
  have refused := mt (readStatus_eq_normal_iff bytes).mp other
  have pressure : honeywellSscReadPressure (onSensor bytes devAddr minPressure maxPressure) =
      (-1, none) := if_pos refused
  have both : honeywellSscReadPressureAndTemp (onSensor bytes devAddr minPressure maxPressure) =
      (-1, none) := if_pos refused
  exact ⟨congrArg Prod.snd pressure, congrArg Prod.snd both⟩

end

/-! ## The transfer function -/

/-- The error of a pressure, in counts. -/
theorem computed_near_iff (minPressure maxPressure : BitVec 8) (x : Nat) :
    |(computed minPressure maxPressure x : ℚ) - transfer minPressure maxPressure x| ≤
        count minPressure maxPressure ↔
      |16384 * quotient minPressure.toNat maxPressure.toNat x -
          x * ((maxPressure.toNat : ℤ) - minPressure.toNat)| ≤
        (maxPressure.toNat : ℤ) - minPressure.toNat := by
  have error : (computed minPressure maxPressure x : ℚ) - transfer minPressure maxPressure x =
      ((16384 * quotient minPressure.toNat maxPressure.toNat x -
        x * ((maxPressure.toNat : ℤ) - minPressure.toNat) : ℤ) : ℚ) / 16384 := by
    rw [computed, transfer, sscOutputMin, sscOutputMax]
    push_cast
    ring
  have range : count minPressure maxPressure =
      (((maxPressure.toNat : ℤ) - minPressure.toNat : ℤ) : ℚ) / 16384 := by
    rw [count]
    push_cast
    ring
  rw [error, range, abs_div, abs_of_pos (by norm_num : (0 : ℚ) < 16384),
    div_le_div_iff_of_pos_right (by norm_num), ← Int.cast_abs, Int.cast_le]

/-- When a valid measurement follows the transfer function. -/
theorem followsTransfer_of_normal_iff (devAddr : BitVec 16) {minPressure maxPressure : BitVec 8}
    (ordered : minPressure.toNat < maxPressure.toNat) {bytes : Measurement}
    (normal : status bytes = 0) :
    FollowsTransfer devAddr minPressure maxPressure bytes ↔
      Accurate minPressure.toNat maxPressure.toNat (output bytes) := by
  have byte : maxPressure.toNat < 256 := maxPressure.isLt
  rw [← quotient_accurate_iff ordered byte, ← computed_near_iff]
  rcases readPressure_of_normal devAddr minPressure maxPressure normal with ⟨single, temp, both⟩
  constructor
  · rintro ⟨⟨pressure, temp, reported, _, near, _⟩, _⟩
    have same : (computed minPressure maxPressure (output bytes) : ℚ) = pressure :=
      Option.some.inj (congrArg Prod.snd (single.symm.trans reported))
    rw [same]
    exact near
  · intro near
    have range := quotient_mem ordered byte (output_lt bytes)
    refine ⟨⟨_, temp, single, both, near, ?_, ?_⟩, ?_⟩
    · have above : (minPressure.toNat : ℤ) ≤ computed minPressure maxPressure (output bytes) := by
        rw [computed]
        omega
      exact_mod_cast above
    · have below : computed minPressure maxPressure (output bytes) ≤ maxPressure.toNat := by
        rw [computed]
        omega
      exact_mod_cast below
    · intro more moreNormal le pressure pressure' reported reported'
      have counted := (readPressure_of_normal devAddr minPressure maxPressure moreNormal).1
      rw [single] at reported
      rw [counted] at reported'
      cases reported
      cases reported'
      have grows := quotient_mono ordered byte le (output_lt more)
      rw [computed, computed, Int.cast_le]
      omega

/-- When the sensor is read as its transfer function says; another status leaves the results
alone. -/
theorem follows_transfer_iff (devAddr : BitVec 16) {minPressure maxPressure : BitVec 8}
    (ordered : minPressure.toNat < maxPressure.toNat) (bytes : Measurement) :
    (status bytes = 0 →
      (FollowsTransfer devAddr minPressure maxPressure bytes ↔
        Accurate minPressure.toNat maxPressure.toNat (output bytes))) ∧
      (status bytes ≠ 0 → LeftUnwritten devAddr minPressure maxPressure bytes) :=
  ⟨followsTransfer_of_normal_iff devAddr ordered, leftUnwritten_of_not_normal devAddr _ _⟩

/-- A sensor from 0 to 64 psi at 256 counts, one psi. -/
theorem follows_transfer_one_psi :
    FollowsTransfer 0x28 0 64 #v[0x01, 0x00, 0, 0] :=
  ((follows_transfer_iff 0x28 (by decide) #v[0x01, 0x00, 0, 0]).1 (by decide)).mpr
    (.inr (.inl (by decide)))

/-- A sensor from 0 to 60 psi: half a psi is read as none. -/
theorem half_psi_lost :
    status #v[0x00, 0x89, 0, 0] = 0 ∧ output #v[0x00, 0x89, 0, 0] = 137 ∧
      (honeywellSscReadPressure (onSensor #v[0x00, 0x89, 0, 0] 0x28 0 60)) = (0, some 0) ∧
      ¬FollowsTransfer 0x28 0 60 #v[0x00, 0x89, 0, 0] := by
  have normal : status #v[0x00, 0x89, 0, 0] = 0 := by decide
  refine ⟨normal, by decide, ?_, ?_⟩
  · rw [(readPressure_of_normal 0x28 0 60 normal).1]
    have none : computed 0 60 (output #v[0x00, 0x89, 0, 0]) = 0 := by decide
    rw [none]
    rfl
  · rw [followsTransfer_of_normal_iff 0x28 (by decide) normal]
    rintro (first | ⟨_, small⟩ | ⟨one, _⟩)
    · exact absurd first (by decide)
    · exact absurd small (by decide)
    · exact absurd one (by decide)

end EmbeddedBase.General.HoneywellSsc
