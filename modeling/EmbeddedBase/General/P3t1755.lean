import EmbeddedBase.Data.Conversion
import EmbeddedBase.Data.Words
import EmbeddedBase.General.Sht30.Measurement
import Mathlib.Data.Rat.Lemmas
import Mathlib.Logic.Function.Basic

/-!
# The temperature registers of the P3T1755

The model of the temperature functions of `p3t1755.c`, with `float` as the rationals.  The
three registers share one format, 12 bits in two's complement in the upper bits of a word.
`p3t1755_read_temperature` drops the middle four bits, and the two limits are read and
written as if they stood in the lower bits.
-/

namespace EmbeddedBase.General.P3t1755

open EmbeddedBase.Data
open EmbeddedBase.General.Sht30 (uint8ToUint16)

universe u

/-! ## The driver -/

/-- `p3t1755_TEMPERATURE`. -/
def p3t1755Temperature : BitVec 16 := 0x00

/-- `p3t1755_T_LOW`. -/
def p3t1755TLow : BitVec 16 := 0x02

/-- `p3t1755_T_HIGH`. -/
def p3t1755THigh : BitVec 16 := 0x03

/-- `p3t1755_TEMP_RESOLUTION`. -/
def p3t1755TempResolution : ℚ := 0.0625

/-- `p3t1755_TEMP_MIN`. -/
def p3t1755TempMin : ℚ := -40

/-- `p3t1755_TEMP_MAX`. -/
def p3t1755TempMax : ℚ := 125

/-- `p3t1755_RAW_TO_CELSIUS`, the macro. -/
def rawToCelsius (raw : BitVec 16) : ℚ :=
  (raw.toInt : ℚ) * p3t1755TempResolution

/-- `p3t1755_CELSIUS_TO_RAW`; `undefined` gives the conversions that C leaves open. -/
def celsiusToRaw (undefined : ℚ → BitVec 16) (temp : ℚ) : BitVec 16 :=
  toSigned undefined (temp / p3t1755TempResolution)

/-- `uint16_to_uint8`. -/
def uint16ToUint8 (value : BitVec 16) : Vector (BitVec 8) 2 :=
  #v[(value >>> 8).setWidth 8, value.setWidth 8]

/-- `p3t1755_t`, over the state `σ` of the bus. -/
structure P3t1755T (σ : Type u) where
  devAddr : BitVec 16
  write : BitVec 16 → BitVec 16 → List (BitVec 8) → σ → Int × σ
  read : BitVec 16 → BitVec 16 → (length : Nat) → σ → (Int × Vector (BitVec 8) length) × σ

/-- `p3t1755_init`. -/
def p3t1755Init {σ : Type u}
    (write : BitVec 16 → BitVec 16 → List (BitVec 8) → σ → Int × σ)
    (read : BitVec 16 → BitVec 16 → (length : Nat) → σ → (Int × Vector (BitVec 8) length) × σ)
    (devAddr : BitVec 16) : P3t1755T σ :=
  { devAddr := devAddr <<< 1
    write := write
    read := read }

section

variable {σ : Type u} (p3t : P3t1755T σ)

/-- `p3t1755_write_reg`. -/
def p3t1755WriteReg (reg : BitVec 16) (data : List (BitVec 8)) (bus : σ) : Int × σ :=
  p3t.write p3t.devAddr reg data bus

/-- `p3t1755_read_reg`. -/
def p3t1755ReadReg (reg : BitVec 16) (length : Nat) (bus : σ) :
    (Int × Vector (BitVec 8) length) × σ :=
  p3t.read p3t.devAddr reg length bus

/-- `p3t1755_raw_to_celsius`, the function. -/
def p3t1755RawToCelsius (raw : BitVec 16) : ℚ :=
  if raw &&& 1#16 <<< 11 ≠ 0 then -((raw.toNat : ℚ) * p3t1755TempResolution)
  else (raw.toNat : ℚ) * p3t1755TempResolution

/-- A read of two bytes that are turned into a temperature: the status, and what is stored
in `*temp_c`. -/
def readTwoBytes (reg : BitVec 16) (toCelsius : BitVec 8 → BitVec 8 → ℚ) (bus : σ) :
    (Int × Option ℚ) × σ :=
  let answer := p3t1755ReadReg p3t reg 2 bus
  if answer.1.1 ≠ 0 then ((answer.1.1, none), answer.2)
  else
    let first := answer.1.2.get ⟨0, Nat.zero_lt_two⟩
    let second := answer.1.2.get ⟨1, Nat.one_lt_two⟩
    ((answer.1.1, some (toCelsius first second)), answer.2)

/-- `p3t1755_read_temperature`. -/
def p3t1755ReadTemperature (bus : σ) : (Int × Option ℚ) × σ :=
  readTwoBytes p3t p3t1755Temperature
    (fun first second => p3t1755RawToCelsius (uint8ToUint16 (first >>> 4) (second >>> 4))) bus

/-- `p3t1755_read_high_temp`. -/
def p3t1755ReadHighTemp (bus : σ) : (Int × Option ℚ) × σ :=
  readTwoBytes p3t p3t1755THigh (fun first second => rawToCelsius (uint8ToUint16 first second))
    bus

/-- `p3t1755_read_low_temp`. -/
def p3t1755ReadLowTemp (bus : σ) : (Int × Option ℚ) × σ :=
  readTwoBytes p3t p3t1755TLow (fun first second => rawToCelsius (uint8ToUint16 first second))
    bus

/-- `p3t1755_set_high_temp`. -/
def p3t1755SetHighTemp (undefined : ℚ → BitVec 16) (tempC : ℚ) (bus : σ) : Int × σ :=
  p3t1755WriteReg p3t p3t1755THigh (uint16ToUint8 (celsiusToRaw undefined tempC)).toList bus

end

/-! ## The sensor -/

/-- The contents of the registers. -/
abbrev Sensor :=
  BitVec 16 → BitVec 16

/-- A register is read upper byte first. -/
def sensorRead (_ reg : BitVec 16) (length : Nat) (sensor : Sensor) :
    (Int × Vector (BitVec 8) length) × Sensor :=
  ((0, Vector.ofFn fun i => (sensor reg >>> (8 * (1 - i.val))).setWidth 8), sensor)

/-- Two bytes are written to a register, upper byte first. -/
def sensorWrite (_ reg : BitVec 16) (data : List (BitVec 8)) (sensor : Sensor) : Int × Sensor :=
  match data with
  | [first, second] => (0, Function.update sensor reg (first ++ second))
  | _ => (1, sensor)

/-- The driver on the sensor. -/
def onSensor (devAddr : BitVec 16) : P3t1755T Sensor :=
  p3t1755Init sensorWrite sensorRead devAddr

/-! ## One format for three registers -/

/-- Twelve bits, left-justified. -/
def InFormat (r : BitVec 16) : Prop :=
  r.toNat % 16 = 0

instance (r : BitVec 16) : Decidable (InFormat r) :=
  inferInstanceAs (Decidable (r.toNat % 16 = 0))

/-- The temperature a content stands for. -/
def celsius (r : BitVec 16) : ℚ :=
  (r.toInt : ℚ) / 16 * p3t1755TempResolution

/-- A read function succeeds with the temperature, whenever its register holds the content. -/
def Reports (read : Sensor → (Int × Option ℚ) × Sensor) (reg r : BitVec 16) (tempC : ℚ) : Prop :=
  ∀ sensor : Sensor, sensor reg = r → (read sensor).1 = (0, some tempC)

/-- All three reads report the temperature of a content. -/
structure ReadAlike (devAddr r : BitVec 16) : Prop where
  temperature : Reports (p3t1755ReadTemperature (onSensor devAddr)) p3t1755Temperature r (celsius r)
  highTemp : Reports (p3t1755ReadHighTemp (onSensor devAddr)) p3t1755THigh r (celsius r)
  lowTemp : Reports (p3t1755ReadLowTemp (onSensor devAddr)) p3t1755TLow r (celsius r)

/-- A read function reports more for the second content than for the first. -/
def ReportsMore (read : Sensor → (Int × Option ℚ) × Sensor) (reg r r' : BitVec 16) : Prop :=
  ∃ tempC tempC', Reports read reg r tempC ∧ Reports read reg r' tempC' ∧ tempC < tempC'

/-- All three reads report more for the second content. -/
structure Increases (devAddr r r' : BitVec 16) : Prop where
  temperature : ReportsMore (p3t1755ReadTemperature (onSensor devAddr)) p3t1755Temperature r r'
  highTemp : ReportsMore (p3t1755ReadHighTemp (onSensor devAddr)) p3t1755THigh r r'
  lowTemp : ReportsMore (p3t1755ReadLowTemp (onSensor devAddr)) p3t1755TLow r r'

/-- `p3t1755_set_high_temp` writes a content in the format that is close to the temperature. -/
def WritesClose (devAddr : BitVec 16) (undefined : ℚ → BitVec 16) (tempC : ℚ) : Prop :=
  ∀ sensor : Sensor, ∃ r, InFormat r ∧ |celsius r - tempC| < p3t1755TempResolution ∧
    p3t1755SetHighTemp (onSensor devAddr) undefined tempC sensor =
      (0, Function.update sensor p3t1755THigh r)

/-! ## What the functions compute -/

theorem toNat_uint8ToUint16 (msb lsb : BitVec 8) :
    (uint8ToUint16 msb lsb).toNat = msb.toNat * 256 + lsb.toNat :=
  toNat_shift_or msb lsb

/-- The word that `p3t1755_read_temperature` hands to the conversion: the upper and the lower
four of the twelve bits. -/
def measuredRaw (r : BitVec 16) : Nat :=
  r.toNat / 4096 * 256 + r.toNat % 256 / 16

/-- What `p3t1755_read_temperature` reports, in steps of the resolution. -/
def measuredSteps (r : BitVec 16) : ℤ :=
  if r.toNat < 32768 then (measuredRaw r : ℤ) else -(measuredRaw r : ℤ)

theorem p3t1755RawToCelsius_eq (raw : BitVec 16) :
    p3t1755RawToCelsius raw =
      (if raw.toNat.testBit 11 then -(raw.toNat : ℤ) else (raw.toNat : ℤ) : ℤ) *
        p3t1755TempResolution := by
  have sign : raw &&& 1#16 <<< 11 ≠ 0 ↔ raw.toNat.testBit 11 = true :=
    and_one_shiftLeft_ne_zero_iff raw (by decide : 11 < 16)
  by_cases negative : raw.toNat.testBit 11 = true
  · rw [p3t1755RawToCelsius, if_pos (sign.mpr negative), if_pos negative, Int.cast_neg,
      Int.cast_natCast, neg_mul]
  · rw [p3t1755RawToCelsius, if_neg (mt sign.mp negative), if_neg negative, Int.cast_natCast]

/-- The word handed to the conversion, with its sign bit. -/
theorem raw_of_bytes (r : BitVec 16) :
    (uint8ToUint16 ((r >>> 8).setWidth 8 >>> 4) (r.setWidth 8 >>> 4)).toNat = measuredRaw r ∧
      (measuredRaw r).testBit 11 = decide (32768 ≤ r.toNat) := by
  have bounded := r.isLt
  constructor
  · rw [toNat_uint8ToUint16, measuredRaw, BitVec.toNat_ushiftRight, BitVec.toNat_ushiftRight,
      BitVec.toNat_setWidth, BitVec.toNat_setWidth, BitVec.toNat_ushiftRight,
      Nat.shiftRight_eq_div_pow, Nat.shiftRight_eq_div_pow, Nat.shiftRight_eq_div_pow]
    omega
  · rw [Nat.testBit_eq_decide_div_mod_eq, measuredRaw]
    congr 1
    apply propext
    omega

theorem reports_temperature (devAddr r : BitVec 16) :
    Reports (p3t1755ReadTemperature (onSensor devAddr)) p3t1755Temperature r
      (measuredSteps r * p3t1755TempResolution) := by
  rintro sensor rfl
  rcases raw_of_bytes (sensor p3t1755Temperature) with ⟨raw, sign⟩
  have converted : (p3t1755ReadTemperature (onSensor devAddr) sensor).1 =
      ((0 : Int), some (p3t1755RawToCelsius (uint8ToUint16
        ((sensor p3t1755Temperature >>> 8).setWidth 8 >>> 4)
        ((sensor p3t1755Temperature).setWidth 8 >>> 4)))) := rfl
  rw [converted, p3t1755RawToCelsius_eq, raw, sign, measuredSteps]
  by_cases small : (sensor p3t1755Temperature).toNat < 32768
  · rw [if_pos small, if_neg (by simpa using small)]
  · rw [if_neg small, if_pos (by simpa using small)]

/-- The bytes of a limit make up its content. -/
theorem uint8ToUint16_bytes (r : BitVec 16) :
    uint8ToUint16 ((r >>> 8).setWidth 8) (r.setWidth 8) = r := by
  apply BitVec.eq_of_toNat_eq
  have bounded := r.isLt
  rw [toNat_uint8ToUint16, BitVec.toNat_setWidth, BitVec.toNat_setWidth,
    BitVec.toNat_ushiftRight, Nat.shiftRight_eq_div_pow]
  omega

/-- A limit is read as the whole word. -/
theorem reports_limit (devAddr reg r : BitVec 16) :
    Reports (readTwoBytes (onSensor devAddr) reg fun first second =>
      rawToCelsius (uint8ToUint16 first second)) reg r (rawToCelsius r) := by
  rintro sensor rfl
  have converted : (readTwoBytes (onSensor devAddr) reg (fun first second =>
      rawToCelsius (uint8ToUint16 first second)) sensor).1 =
      ((0 : Int), some (rawToCelsius (uint8ToUint16 ((sensor reg >>> 8).setWidth 8)
        ((sensor reg).setWidth 8)))) := rfl
  rw [converted, uint8ToUint16_bytes]

theorem reports_highTemp (devAddr r : BitVec 16) :
    Reports (p3t1755ReadHighTemp (onSensor devAddr)) p3t1755THigh r (rawToCelsius r) :=
  reports_limit devAddr p3t1755THigh r

theorem reports_lowTemp (devAddr r : BitVec 16) :
    Reports (p3t1755ReadLowTemp (onSensor devAddr)) p3t1755TLow r (rawToCelsius r) :=
  reports_limit devAddr p3t1755TLow r

/-! ## Reading -/

/-- A read reports one temperature for a content. -/
theorem Reports.unique {read : Sensor → (Int × Option ℚ) × Sensor} {reg r : BitVec 16}
    {tempC tempC' : ℚ} (reports : Reports read reg r tempC) (reports' : Reports read reg r tempC') :
    tempC = tempC' := by
  have answer := (reports (fun _ => r) rfl).symm.trans (reports' (fun _ => r) rfl)
  exact Option.some.inj (congrArg Prod.snd answer)

theorem reportsMore_iff {read : Sensor → (Int × Option ℚ) × Sensor} {reg r r' : BitVec 16}
    {tempC tempC' : ℚ} (reports : Reports read reg r tempC)
    (reports' : Reports read reg r' tempC') :
    ReportsMore read reg r r' ↔ tempC < tempC' := by
  constructor
  · rintro ⟨first, second, firstReported, secondReported, less⟩
    rwa [reports.unique firstReported, reports'.unique secondReported]
  · intro less
    exact ⟨tempC, tempC', reports, reports', less⟩

theorem resolution_pos : 0 < p3t1755TempResolution := by
  norm_num [p3t1755TempResolution]

/-- Temperatures are compared by their steps. -/
theorem steps_lt_steps_iff (steps steps' : ℤ) :
    (steps : ℚ) * p3t1755TempResolution < steps' * p3t1755TempResolution ↔ steps < steps' := by
  rw [mul_lt_mul_iff_of_pos_right resolution_pos, Int.cast_lt]

/-- A number of steps is right if it is a sixteenth of the content. -/
theorem steps_eq_celsius_iff (steps : ℤ) (r : BitVec 16) :
    (steps : ℚ) * p3t1755TempResolution = celsius r ↔ 16 * steps = r.toInt := by
  rw [celsius, mul_left_inj' resolution_pos.ne', eq_div_iff (by norm_num)]
  constructor
  · intro equal
    have cast : ((16 * steps : ℤ) : ℚ) = r.toInt := by rw [← equal]; push_cast; ring
    exact_mod_cast cast
  · intro equal
    rw [← equal]
    push_cast
    ring

/-- Two contents that `p3t1755_read_temperature` keeps in order: of different sign, or with
the same upper four bits (and, above zero, also with different ones) and the lower four in
order. -/
def KeepsOrder (r r' : BitVec 16) : Prop :=
  (r.toInt < 0 ∧ 0 ≤ r'.toInt) ∨
    (0 ≤ r.toInt ∧ (r.toNat / 4096 < r'.toNat / 4096 ∨
      r.toNat / 4096 = r'.toNat / 4096 ∧ r.toNat % 256 < r'.toNat % 256)) ∨
    (r'.toInt < 0 ∧ r.toNat / 4096 = r'.toNat / 4096 ∧ r'.toNat % 256 < r.toNat % 256)

theorem measuredSteps_lt_iff {r r' : BitVec 16} (format : InFormat r) (format' : InFormat r')
    (less : r.toInt < r'.toInt) : measuredSteps r < measuredSteps r' ↔ KeepsOrder r r' := by
  have bounded := r.isLt
  have bounded' := r'.isLt
  rw [InFormat] at format format'
  rw [BitVec.toInt_eq_toNat_cond, BitVec.toInt_eq_toNat_cond] at less
  rw [KeepsOrder, BitVec.toInt_eq_toNat_cond, BitVec.toInt_eq_toNat_cond, measuredSteps,
    measuredSteps, measuredRaw, measuredRaw]
  split_ifs at less ⊢ <;> omega

/-- The content `p3t1755_read_temperature` reads right: without the middle four bits, and not
below zero but for the lowest. -/
theorem temperature_right_iff {devAddr r : BitVec 16} (format : InFormat r) :
    Reports (p3t1755ReadTemperature (onSensor devAddr)) p3t1755Temperature r (celsius r) ↔
      r.toNat < 32768 ∧ r.toNat / 256 % 16 = 0 ∨ r.toNat = 32768 := by
  have bounded := r.isLt
  have reports := reports_temperature devAddr r
  have right : (measuredSteps r : ℚ) * p3t1755TempResolution = celsius r ↔
      r.toNat < 32768 ∧ r.toNat / 256 % 16 = 0 ∨ r.toNat = 32768 := by
    rw [InFormat] at format
    rw [steps_eq_celsius_iff, BitVec.toInt_eq_toNat_cond, measuredSteps, measuredRaw]
    split_ifs <;> omega
  constructor
  · intro reported
    exact right.mp (reports.unique reported)
  · intro condition
    rw [← right.mpr condition]
    exact reports

theorem readAlike_iff (devAddr : BitVec 16) {r : BitVec 16} (format : InFormat r) :
    ReadAlike devAddr r ↔ r = 0 := by
  constructor
  · intro alike
    have equal := (reports_highTemp devAddr r).unique alike.highTemp
    have zero : r.toInt = 0 := by
      have steps := (steps_eq_celsius_iff r.toInt r).mp equal
      omega
    exact BitVec.eq_of_toInt_eq zero
  · rintro rfl
    have high : rawToCelsius 0 = celsius 0 := (steps_eq_celsius_iff _ 0).mpr (by decide)
    exact ⟨(temperature_right_iff format).mpr (.inl (by decide)),
      high ▸ reports_highTemp devAddr 0, high ▸ reports_lowTemp devAddr 0⟩

theorem increases_iff (devAddr : BitVec 16) {r r' : BitVec 16} (format : InFormat r)
    (format' : InFormat r') (less : r.toInt < r'.toInt) :
    Increases devAddr r r' ↔ KeepsOrder r r' := by
  have temperature := (reportsMore_iff (reports_temperature devAddr r)
    (reports_temperature devAddr r')).trans
      ((steps_lt_steps_iff _ _).trans (measuredSteps_lt_iff format format' less))
  have limit := (steps_lt_steps_iff _ _).mpr less
  constructor
  · intro increases
    exact temperature.mp increases.temperature
  · intro keeps
    exact ⟨temperature.mpr keeps,
      (reportsMore_iff (reports_highTemp devAddr r) (reports_highTemp devAddr r')).mpr limit,
      (reportsMore_iff (reports_lowTemp devAddr r) (reports_lowTemp devAddr r')).mpr limit⟩

/-! ## Writing -/

/-- The bytes of a word, stored upper byte first, are the word. -/
theorem uint16ToUint8_append (value : BitVec 16) :
    (uint16ToUint8 value).get ⟨0, Nat.zero_lt_two⟩ ++
      (uint16ToUint8 value).get ⟨1, Nat.one_lt_two⟩ = value := by
  apply BitVec.eq_of_toNat_eq
  have bounded := value.isLt
  have first : (uint16ToUint8 value).get ⟨0, Nat.zero_lt_two⟩ = (value >>> 8).setWidth 8 := rfl
  have second : (uint16ToUint8 value).get ⟨1, Nat.one_lt_two⟩ = value.setWidth 8 := rfl
  rw [toNat_append_eq_add, first, second, BitVec.toNat_setWidth, BitVec.toNat_setWidth,
    BitVec.toNat_ushiftRight, Nat.shiftRight_eq_div_pow]
  omega

theorem setHighTemp_onSensor (devAddr : BitVec 16) (undefined : ℚ → BitVec 16) (tempC : ℚ)
    (sensor : Sensor) :
    p3t1755SetHighTemp (onSensor devAddr) undefined tempC sensor =
      (0, Function.update sensor p3t1755THigh (celsiusToRaw undefined tempC)) := by
  have written : p3t1755SetHighTemp (onSensor devAddr) undefined tempC sensor =
      ((0 : Int), Function.update sensor p3t1755THigh
        ((uint16ToUint8 (celsiusToRaw undefined tempC)).get ⟨0, Nat.zero_lt_two⟩ ++
          (uint16ToUint8 (celsiusToRaw undefined tempC)).get ⟨1, Nat.one_lt_two⟩)) := rfl
  rw [written, uint16ToUint8_append]

/-- In the range of the sensor the word is the number of whole steps. -/
theorem celsiusToRaw_toInt {tempC : ℚ} (low : p3t1755TempMin ≤ tempC)
    (high : tempC ≤ p3t1755TempMax) (undefined : ℚ → BitVec 16) :
    (celsiusToRaw undefined tempC).toInt = truncate (tempC / p3t1755TempResolution) := by
  have bounds : (-640 : ℤ) ≤ truncate (tempC / p3t1755TempResolution) ∧
      truncate (tempC / p3t1755TempResolution) ≤ 2000 := by
    apply truncate_mem
    · rw [le_div_iff₀ resolution_pos]
      norm_num [p3t1755TempResolution, p3t1755TempMin] at low ⊢
      linarith
    · rw [div_le_iff₀ resolution_pos]
      norm_num [p3t1755TempResolution, p3t1755TempMax] at high ⊢
      linarith
  rw [celsiusToRaw, toSigned_of_fits (by norm_num; omega), BitVec.toInt_ofInt]
  exact Int.bmod_eq_of_le (by norm_num; omega) (by norm_num; omega)

/-- A sixteenth of the whole steps of a number is near the number only if there are none. -/
theorem truncate_sixteenth_iff (steps : ℚ) :
    (16 ∣ truncate steps ∧ |(truncate steps : ℚ) / 16 - steps| < 1) ↔ |steps| < 1 := by
  constructor
  · rintro ⟨multiple, near⟩
    rw [← truncate_eq_zero_iff]
    have whole := abs_truncate_sub_lt steps
    rw [abs_lt] at near whole
    have above : ((-3 : ℤ) : ℚ) < truncate steps := by push_cast; linarith
    have below : (truncate steps : ℚ) < ((3 : ℤ) : ℚ) := by push_cast; linarith
    have above' : -3 < truncate steps := by exact_mod_cast above
    have below' : truncate steps < 3 := by exact_mod_cast below
    omega
  · intro small
    rw [truncate_eq_zero_iff.mpr small]
    simpa using small

/-- The word that is written decides. -/
theorem writesClose_iff_word {devAddr : BitVec 16} {undefined : ℚ → BitVec 16} {tempC : ℚ} :
    WritesClose devAddr undefined tempC ↔
      InFormat (celsiusToRaw undefined tempC) ∧
        |celsius (celsiusToRaw undefined tempC) - tempC| < p3t1755TempResolution := by
  constructor
  · intro writes
    rcases writes fun _ => 0 with ⟨r, inFormat, near, written⟩
    rw [setHighTemp_onSensor] at written
    have same : celsiusToRaw undefined tempC = r := by
      simpa using congrFun (congrArg Prod.snd written) p3t1755THigh
    rw [same]
    exact ⟨inFormat, near⟩
  · rintro ⟨inFormat, near⟩ sensor
    exact ⟨_, inFormat, near, setHighTemp_onSensor devAddr undefined tempC sensor⟩

theorem writesClose_iff {devAddr : BitVec 16} {undefined : ℚ → BitVec 16} {tempC : ℚ}
    (low : p3t1755TempMin ≤ tempC) (high : tempC ≤ p3t1755TempMax) :
    WritesClose devAddr undefined tempC ↔ |tempC| < p3t1755TempResolution := by
  have word := celsiusToRaw_toInt low high undefined
  have format : InFormat (celsiusToRaw undefined tempC) ↔
      16 ∣ truncate (tempC / p3t1755TempResolution) := by
    have bounded := (celsiusToRaw undefined tempC).isLt
    rw [InFormat, ← word, BitVec.toInt_eq_toNat_cond]
    split_ifs <;> omega
  have near : |celsius (celsiusToRaw undefined tempC) - tempC| < p3t1755TempResolution ↔
      |(truncate (tempC / p3t1755TempResolution) : ℚ) / 16 - tempC / p3t1755TempResolution| <
        1 := by
    have scaled : celsius (celsiusToRaw undefined tempC) - tempC =
        ((truncate (tempC / p3t1755TempResolution) : ℚ) / 16 - tempC / p3t1755TempResolution) *
          p3t1755TempResolution := by
      rw [celsius, word, sub_mul, div_mul_cancel₀ _ resolution_pos.ne']
    rw [scaled, abs_mul, abs_of_pos resolution_pos]
    exact mul_lt_iff_lt_one_left resolution_pos
  have small : |tempC / p3t1755TempResolution| < 1 ↔ |tempC| < p3t1755TempResolution := by
    rw [abs_div, abs_of_pos resolution_pos, div_lt_one resolution_pos]
  rw [writesClose_iff_word, format, near, truncate_sixteenth_iff, small]

/-- When the registers are decoded consistently: at zero, for contents the measurement keeps
in order, and for limits less than a step from zero. -/
theorem registers_consistent_iff (devAddr : BitVec 16) (undefined : ℚ → BitVec 16) :
    (∀ r, InFormat r → (ReadAlike devAddr r ↔ r = 0)) ∧
      (∀ r r', InFormat r → InFormat r' → r.toInt < r'.toInt →
        (Increases devAddr r r' ↔ KeepsOrder r r')) ∧
      (∀ tempC, p3t1755TempMin ≤ tempC → tempC ≤ p3t1755TempMax →
        (WritesClose devAddr undefined tempC ↔ |tempC| < p3t1755TempResolution)) :=
  ⟨fun _ format => readAlike_iff devAddr format,
    fun _ _ format format' less => increases_iff devAddr format format' less,
    fun _ low high => writesClose_iff low high⟩

theorem registers_consistent_near_zero :
    ReadAlike 0x48 0 ∧ Increases 0x48 0xF000 0x0010 ∧ WritesClose 0x48 (fun _ => 0) (1 / 32) := by
  rcases registers_consistent_iff 0x48 fun _ => 0 with ⟨reads, order, writes⟩
  refine ⟨(reads 0 (by decide)).mpr rfl, ?_, ?_⟩
  · exact (order 0xF000 0x0010 (by decide) (by decide) (by decide)).mpr (.inl (by decide))
  · apply (writes _ _ _).mpr
    all_goals norm_num [p3t1755TempMin, p3t1755TempMax, p3t1755TempResolution, abs_lt]

/-- At 25 degrees the measurement is read as 16 and a limit as 400 degrees. -/
theorem room_temperature_inconsistent :
    InFormat 0x1900 ∧ celsius 0x1900 = 25 ∧ ¬ReadAlike 0x48 0x1900 ∧
      (p3t1755ReadTemperature (onSensor 0x48) fun _ => 0x1900).1 = (0, some 16) ∧
      (p3t1755ReadHighTemp (onSensor 0x48) fun _ => 0x1900).1 = (0, some 400) := by
  have format : InFormat 0x1900 := by decide
  have measured := reports_temperature 0x48 0x1900 (fun _ => 0x1900) rfl
  have limit := reports_highTemp 0x48 0x1900 (fun _ => 0x1900) rfl
  have steps : measuredSteps 0x1900 = 256 := by decide
  have content : BitVec.toInt (0x1900 : BitVec 16) = 6400 := by decide
  refine ⟨format, ?_, ?_, ?_, ?_⟩
  · norm_num [celsius, content, p3t1755TempResolution]
  · rw [readAlike_iff 0x48 format]
    decide
  · rw [measured, steps]
    norm_num [p3t1755TempResolution]
  · rw [limit, rawToCelsius, content]
    norm_num [p3t1755TempResolution]

end EmbeddedBase.General.P3t1755
