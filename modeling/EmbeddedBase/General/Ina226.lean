import EmbeddedBase.Data.Conversion
import Mathlib.Logic.Function.Basic

/-!
# Calibration of the INA226

The model of `ina226_calibrate` and `ina226_read_current` in `INA226.c`, with `float` as the
rationals and a value of its own for the result of a division by zero.
-/

namespace EmbeddedBase.General.Ina226

open EmbeddedBase.Data

universe u

/-! ## The driver -/

/-- `INA226_CURRENT`. -/
def ina226Current : BitVec 16 := 0x04

/-- `INA226_CALIBRATION`. -/
def ina226Calibration : BitVec 16 := 0x05

/-- A `float`; `none` is the result of a division by zero. -/
abbrev Value :=
  Option ℚ

/-- A division of the driver. -/
def divide (dividend divisor : ℚ) : Value :=
  if divisor = 0 then none else some (dividend / divisor)

/-- `(uint16_t)floorf(value)`; `undefined` gives the conversions that C leaves open. -/
def floorToUint16 (undefined : Value → BitVec 16) : Value → BitVec 16
  | none => undefined none
  | some value => toUnsigned (fun number => undefined (some number)) ⌊value⌋

/-- `ina226_t`, over the state `σ` of the bus. -/
structure Ina226T (σ : Type u) where
  devAddr : BitVec 16
  write : BitVec 16 → BitVec 16 → BitVec 16 → σ → Int × σ
  read : BitVec 16 → BitVec 16 → σ → (Int × BitVec 16) × σ
  currentLsb : Value

/-- `ina226_init`. -/
def ina226Init {σ : Type u} (write : BitVec 16 → BitVec 16 → BitVec 16 → σ → Int × σ)
    (read : BitVec 16 → BitVec 16 → σ → (Int × BitVec 16) × σ) (devAddr : BitVec 16) :
    Ina226T σ :=
  { devAddr := devAddr
    write := write
    read := read
    currentLsb := some 0 }

section

variable {σ : Type u} (ina : Ina226T σ)

/-- `ina226_read_reg`. -/
def ina226ReadReg (reg : BitVec 16) (bus : σ) : (Int × BitVec 16) × σ :=
  ina.read ina.devAddr reg bus

/-- `ina226_write_reg`. -/
def ina226WriteReg (reg data : BitVec 16) (bus : σ) : Int × σ :=
  ina.write ina.devAddr reg data bus

/-- `ina226_calibrate`. -/
def ina226Calibrate (undefined : Value → BitVec 16) (rShunt maxCurrent : ℚ) (bus : σ) :
    (Int × Ina226T σ) × σ :=
  let currentLsb := maxCurrent / 32768
  let cal := divide 0.00512 (currentLsb * rShunt)
  let calReg := floorToUint16 undefined cal
  let ina := { ina with currentLsb := divide 0.00512 ((calReg.toNat : ℚ) * rShunt) }
  let written := ina226WriteReg ina ina226Calibration calReg bus
  ((written.1, ina), written.2)

/-- `ina226_read_current`: the returned value, and what is stored in `*data`. -/
def ina226ReadCurrent (bus : σ) : (Int × Option Value) × σ :=
  let answer := ina226ReadReg ina ina226Current bus
  if answer.1.1 ≠ 0 then ((answer.1.1, none), answer.2)
  else
    ((answer.1.1, some (ina.currentLsb.map fun currentLsb => (answer.1.2.toInt : ℚ) * currentLsb)),
      answer.2)

end

/-! ## The chip -/

/-- The registers, and how the next transactions end. -/
structure Chip where
  registers : BitVec 16 → BitVec 16
  writeStatus : Int
  readStatus : Int

/-- A register is written. -/
def Chip.store (chip : Chip) (reg data : BitVec 16) : Chip :=
  { chip with registers := Function.update chip.registers reg data }

@[simp]
theorem Chip.store_self (chip : Chip) (reg data : BitVec 16) :
    (chip.store reg data).registers reg = data := by
  simp [Chip.store]

/-- A register write that fails leaves the chip alone. -/
def chipWrite (_ reg data : BitVec 16) (chip : Chip) : Int × Chip :=
  if chip.writeStatus ≠ 0 then (chip.writeStatus, chip) else (0, chip.store reg data)

/-- A register read. -/
def chipRead (_ reg : BitVec 16) (chip : Chip) : (Int × BitVec 16) × Chip :=
  ((chip.readStatus, chip.registers reg), chip)

/-- The driver on the chip. -/
def onChip (devAddr : BitVec 16) : Ina226T Chip :=
  ina226Init chipWrite chipRead devAddr

/-- The amperes of one step of the current register, by the calibration register. -/
def chipScale (chip : Chip) (rShunt : ℚ) : ℚ :=
  0.00512 / ((chip.registers ina226Calibration).toNat * rShunt)

/-- Driver and chip agree on the scale. -/
structure Calibrated (rShunt maxCurrent : ℚ) (ina : Ina226T Chip) (chip : Chip) : Prop where
  word : ((chip.registers ina226Calibration).toNat : ℤ) =
    ⌊0.00512 / (maxCurrent / 32768 * rShunt)⌋
  at_least_one : 1 ≤ (chip.registers ina226Calibration).toNat
  scale : ∃ currentLsb, ina.currentLsb = some currentLsb ∧
    currentLsb * (chip.registers ina226Calibration).toNat * rShunt = 0.00512 ∧
    maxCurrent / 32768 ≤ currentLsb
  readings : ∀ later : Chip,
    later.registers ina226Calibration = chip.registers ina226Calibration → later.readStatus = 0 →
    (ina226ReadCurrent ina later).1 =
      (0, some (some ((later.registers ina226Current).toInt * chipScale later rShunt)))

/-- Calibration that succeeds leaves driver and chip in agreement. -/
def CalibratesRight (undefined : Value → BitVec 16) (rShunt maxCurrent : ℚ) : Prop :=
  ∀ devAddr chip,
    (ina226Calibrate (onChip devAddr) undefined rShunt maxCurrent chip).1.1 = 0 →
    Calibrated rShunt maxCurrent
      (ina226Calibrate (onChip devAddr) undefined rShunt maxCurrent chip).1.2
      (ina226Calibrate (onChip devAddr) undefined rShunt maxCurrent chip).2

/-! ## The calibration word -/

section

variable {rShunt maxCurrent : ℚ}

/-- The exact calibration. -/
def calibration (rShunt maxCurrent : ℚ) : ℚ :=
  0.00512 / (maxCurrent / 32768 * rShunt)

theorem product_pos (shunt : 0 < rShunt) (current : 0 < maxCurrent) :
    0 < maxCurrent / 32768 * rShunt :=
  mul_pos (div_pos current (by norm_num)) shunt

theorem calibration_pos (shunt : 0 < rShunt) (current : 0 < maxCurrent) :
    0 < calibration rShunt maxCurrent :=
  div_pos (by norm_num) (product_pos shunt current)

/-- The calibration fits into the register, and is not zero. -/
theorem floor_calibration_mem_iff (shunt : 0 < rShunt) (current : 0 < maxCurrent) :
    1 ≤ ⌊calibration rShunt maxCurrent⌋ ∧ ⌊calibration rShunt maxCurrent⌋ < 65536 ↔
      0.00256 < maxCurrent * rShunt ∧ maxCurrent * rShunt ≤ 167.77216 := by
  have product := product_pos shunt current
  have positive : 1 ≤ ⌊calibration rShunt maxCurrent⌋ ↔ maxCurrent * rShunt ≤ 167.77216 := by
    rw [Int.le_floor, calibration, Int.cast_one, one_le_div₀ product]
    constructor <;> intro bound <;> linarith
  have fits : ⌊calibration rShunt maxCurrent⌋ < 65536 ↔ 0.00256 < maxCurrent * rShunt := by
    rw [Int.floor_lt, calibration, div_lt_iff₀ product]
    push_cast
    constructor <;> intro bound <;> linarith
  rw [positive, fits, and_comm]

/-- The word that the driver writes. -/
def calReg (undefined : Value → BitVec 16) (rShunt maxCurrent : ℚ) : BitVec 16 :=
  floorToUint16 undefined (some (calibration rShunt maxCurrent))

/-- The word is the calibration if that fits. -/
theorem toNat_calReg (undefined : Value → BitVec 16) (shunt : 0 < rShunt)
    (current : 0 < maxCurrent) (fits : ⌊calibration rShunt maxCurrent⌋ < 65536) :
    ((calReg undefined rShunt maxCurrent).toNat : ℤ) = ⌊calibration rShunt maxCurrent⌋ := by
  have nonneg : 0 ≤ ⌊calibration rShunt maxCurrent⌋ :=
    Int.floor_nonneg.mpr (calibration_pos shunt current).le
  have whole :
      truncate (⌊calibration rShunt maxCurrent⌋ : ℚ) = ⌊calibration rShunt maxCurrent⌋ := by
    rw [truncate_of_nonneg (by exact_mod_cast nonneg), Int.floor_intCast]
  rw [calReg, floorToUint16, toNat_toUnsigned, whole]
  rw [whole]
  exact ⟨nonneg, by norm_num; exact fits⟩

end

/-! ## Calibrating -/

/-- A successful calibration writes the word and keeps its scale. -/
theorem ina226Calibrate_of_success (undefined : Value → BitVec 16) {rShunt maxCurrent : ℚ}
    (shunt : 0 < rShunt) (current : 0 < maxCurrent) (devAddr : BitVec 16) (chip : Chip)
    (success : chip.writeStatus = 0) :
    ∃ ina, ina226Calibrate (onChip devAddr) undefined rShunt maxCurrent chip =
        ((0, ina), chip.store ina226Calibration (calReg undefined rShunt maxCurrent)) ∧
      ina.currentLsb = divide 0.00512 ((calReg undefined rShunt maxCurrent).toNat * rShunt) ∧
      ina.read = chipRead := by
  have divided : divide 0.00512 (maxCurrent / 32768 * rShunt) =
      some (calibration rShunt maxCurrent) :=
    if_neg (product_pos shunt current).ne'
  have written : chipWrite devAddr ina226Calibration (calReg undefined rShunt maxCurrent) chip =
      (0, chip.store ina226Calibration (calReg undefined rShunt maxCurrent)) :=
    if_neg (not_not_intro success)
  refine ⟨{ (onChip devAddr) with
    currentLsb := divide 0.00512 ((calReg undefined rShunt maxCurrent).toNat * rShunt) }, ?_,
    rfl, rfl⟩
  simp only [ina226Calibrate, divided]
  exact congrArg (fun answer : Int × Chip => ((answer.1, _), answer.2)) written

theorem writeStatus_of_success {undefined : Value → BitVec 16} {rShunt maxCurrent : ℚ}
    {devAddr : BitVec 16} {chip : Chip}
    (success : (ina226Calibrate (onChip devAddr) undefined rShunt maxCurrent chip).1.1 = 0) :
    chip.writeStatus = 0 := by
  by_contra failed
  have written (data : BitVec 16) : chipWrite devAddr ina226Calibration data chip =
      (chip.writeStatus, chip) := if_pos failed
  exact failed ((congrArg Prod.fst (written _)).symm.trans success)

/-- A word that fits gives driver and chip one scale. -/
theorem calibrated_of_word {rShunt maxCurrent : ℚ} (shunt : 0 < rShunt) (current : 0 < maxCurrent)
    {word : BitVec 16} (exact : (word.toNat : ℤ) = ⌊calibration rShunt maxCurrent⌋)
    (positive : 1 ≤ word.toNat) (ina : Ina226T Chip) (chip : Chip)
    (scale : ina.currentLsb = divide 0.00512 (word.toNat * rShunt)) (read : ina.read = chipRead)
    (holds : chip.registers ina226Calibration = word) :
    Calibrated rShunt maxCurrent ina chip := by
  have wordPos : (0 : ℚ) < word.toNat := by exact_mod_cast positive
  have product : (word.toNat : ℚ) * rShunt ≠ 0 := (mul_pos wordPos shunt).ne'
  have lsb : ina.currentLsb = some (0.00512 / (word.toNat * rShunt)) := by
    rw [scale, divide, if_neg product]
  refine ⟨by rw [holds]; exact exact, by rw [holds]; exact positive, ⟨_, lsb, ?_, ?_⟩, ?_⟩
  · rw [holds, mul_assoc, div_mul_cancel₀ _ product]
  · have below : (word.toNat : ℚ) ≤ calibration rShunt maxCurrent := by
      have floor := Int.floor_le (calibration rShunt maxCurrent)
      rw [← exact] at floor
      exact_mod_cast floor
    rw [calibration, le_div_iff₀ (product_pos shunt current)] at below
    rw [le_div_iff₀ (mul_pos wordPos shunt)]
    linarith
  · intro later same success
    have answer : ina226ReadReg ina ina226Current later =
        ((later.readStatus, later.registers ina226Current), later) := by
      rw [ina226ReadReg, read]
      rfl
    rw [ina226ReadCurrent, answer]
    dsimp only
    rw [if_neg (not_not_intro success), success, lsb, chipScale, same, holds]
    rfl

theorem floor_mem_of_calibratesRight {undefined : Value → BitVec 16} {rShunt maxCurrent : ℚ}
    (shunt : 0 < rShunt) (current : 0 < maxCurrent)
    (right : CalibratesRight undefined rShunt maxCurrent) :
    1 ≤ ⌊calibration rShunt maxCurrent⌋ ∧ ⌊calibration rShunt maxCurrent⌋ < 65536 := by
  rcases ina226Calibrate_of_success undefined shunt current 0x40 ⟨fun _ => 0, 0, 0⟩ rfl
    with ⟨ina, calibrate, _, _⟩
  have calibrated := right 0x40 ⟨fun _ => 0, 0, 0⟩ (by rw [calibrate])
  rw [calibrate] at calibrated
  have word := calibrated.word
  have positive := calibrated.at_least_one
  rw [Chip.store_self] at word positive
  have bounded := (calReg undefined rShunt maxCurrent).isLt
  change _ = ⌊calibration rShunt maxCurrent⌋ at word
  omega

/-- When calibration leaves driver and chip in agreement: the product of current and shunt is
neither too large for a calibration of one nor too small for 16 bits. -/
theorem calibrates_right_iff (undefined : Value → BitVec 16) {rShunt maxCurrent : ℚ}
    (shunt : 0 < rShunt) (current : 0 < maxCurrent) :
    CalibratesRight undefined rShunt maxCurrent ↔
      0.00256 < maxCurrent * rShunt ∧ maxCurrent * rShunt ≤ 167.77216 := by
  rw [← floor_calibration_mem_iff shunt current]
  constructor
  · exact floor_mem_of_calibratesRight shunt current
  · rintro ⟨positive, fits⟩ devAddr chip success
    have exact := toNat_calReg undefined shunt current fits
    rcases ina226Calibrate_of_success undefined shunt current devAddr chip
      (writeStatus_of_success success) with ⟨ina, calibrate, scale, read⟩
    rw [calibrate]
    exact calibrated_of_word shunt current exact (by omega) ina _ scale read
      (chip.store_self _ _)

theorem calibrates_right_at_ten_amperes : CalibratesRight (fun _ => 0) (1 / 100) 10 :=
  (calibrates_right_iff (fun _ => 0) (by norm_num) (by norm_num)).mpr (by norm_num)

/-- With a shunt of 1 milliohm and 1 ampere the calibration loses its high bits; with 100 ohms
and 2 amperes it is zero. -/
theorem calibration_out_of_range :
    ¬CalibratesRight (fun _ => 0) (1 / 1000) 1 ∧ ¬CalibratesRight (fun _ => 0) 100 2 := by
  constructor
  · intro right
    have mem := floor_mem_of_calibratesRight (by norm_num) (by norm_num) right
    rw [floor_calibration_mem_iff (by norm_num) (by norm_num)] at mem
    exact absurd mem (by norm_num)
  · intro right
    have mem := floor_mem_of_calibratesRight (by norm_num) (by norm_num) right
    rw [floor_calibration_mem_iff (by norm_num) (by norm_num)] at mem
    exact absurd mem (by norm_num)

end EmbeddedBase.General.Ina226
