import EmbeddedBase.General.Sht30.Checksum
import Mathlib.Data.Rat.Defs
import Mathlib.Tactic.NormNum

/-!
# A measurement of the SHT30

The model of `sht30_get_temp_humid` in `sht30.c`.  It stores the temperature before it has
checked the humidity.  The arithmetic of `float` is a parameter.
-/

namespace EmbeddedBase.General.Sht30

universe u

/-! ## The driver -/

/-- `Read_ptr`: the status, and the bytes stored in the buffer of the given length. -/
abbrev ReadPtr :=
  BitVec 16 → BitVec 8 → (length : Nat) → Int × Vector (BitVec 8) length

/-- `sht30_t`, over the type `F` of `float`. -/
structure Sht30T (F : Type u) where
  readReg : ReadPtr
  blockingReadReg : ReadPtr
  temp : F
  humidity : F
  devAddress : BitVec 8

/-- `SHT30_START_CMD_WCS`. -/
def sht30StartCmdWcs : BitVec 16 := 0x2C06

section

variable {F : Type u}

/-- `sht30_read_reg`. -/
def sht30ReadReg (sht30 : Sht30T F) (command : BitVec 16) (length : Nat) (blocking : Bool) :
    Int × Vector (BitVec 8) length :=
  if blocking then sht30.blockingReadReg command sht30.devAddress length
  else sht30.readReg command sht30.devAddress length

/-- `uint8_to_uint16`. -/
def uint8ToUint16 (msb lsb : BitVec 8) : BitVec 16 :=
  (msb.setWidth 16 <<< 8) ||| lsb.setWidth 16

variable [NatCast F] [Neg F] [Add F] [Mul F] [Div F]

/-- `tempVal`. -/
def tempVal (temp : BitVec 16) : F :=
  -((45 : Nat) : F) + ((175 : Nat) : F) * (((temp.toNat : Nat) : F) / ((65535 : Nat) : F))

/-- `humVal`. -/
def humVal (humidity : BitVec 16) : F :=
  ((100 : Nat) : F) * (((humidity.toNat : Nat) : F) / ((65535 : Nat) : F))

/-- `sht30_get_temp_humid`. -/
def sht30GetTempHumid (sht30 : Sht30T F) : BitVec 8 × Sht30T F :=
  let data := sht30ReadReg sht30 sht30StartCmdWcs 6 true
  let databuf := data.2
  if data.1 ≠ 0 then
    (1, sht30)
  else
    let temp := uint8ToUint16 databuf[0] databuf[1]
    if databuf[2] ≠ calculateCrc databuf.toList 2 then
      (1, sht30)
    else
      let sht30 := { sht30 with temp := tempVal temp }
      let humidity := uint8ToUint16 databuf[3] databuf[4]
      if databuf[5] ≠ calculateCrc (databuf.toList.drop 3) 2 then
        (1, sht30)
      else
        (0, { sht30 with humidity := humVal humidity })

/-! ## All or nothing -/

omit [NatCast F] [Neg F] [Add F] [Mul F] [Div F] in
/-- What the bus read of a measurement returns. -/
def measured (sht30 : Sht30T F) : Int × Vector (BitVec 8) 6 :=
  sht30ReadReg sht30 sht30StartCmdWcs 6 true

/-- The checksum of the first word matches. -/
def TempMatches (sht30 : Sht30T F) : Prop :=
  (measured sht30).2[2] = calculateCrc (measured sht30).2.toList 2

/-- The checksum of the second word matches. -/
def HumidityMatches (sht30 : Sht30T F) : Prop :=
  (measured sht30).2[5] = calculateCrc ((measured sht30).2.toList.drop 3) 2

/-- A measurement succeeds with both values, or fails and leaves both alone. -/
structure AllOrNothing (sht30 : Sht30T F) : Prop where
  succeeds_iff : (sht30GetTempHumid sht30).1 = 0 ↔
    (measured sht30).1 = 0 ∧ TempMatches sht30 ∧ HumidityMatches sht30
  success : (sht30GetTempHumid sht30).1 = 0 → (sht30GetTempHumid sht30).2 =
    { sht30 with
      temp := tempVal (uint8ToUint16 (measured sht30).2[0] (measured sht30).2[1])
      humidity := humVal (uint8ToUint16 (measured sht30).2[3] (measured sht30).2[4]) }
  failure : (sht30GetTempHumid sht30).1 ≠ 0 →
    (sht30GetTempHumid sht30).1 = 1 ∧ (sht30GetTempHumid sht30).2.temp = sht30.temp ∧
      (sht30GetTempHumid sht30).2.humidity = sht30.humidity

/-- The four ways a measurement ends. -/
theorem sht30GetTempHumid_cases (sht30 : Sht30T F) :
    ((measured sht30).1 ≠ 0 ∨ ¬TempMatches sht30) ∧ sht30GetTempHumid sht30 = (1, sht30) ∨
      ((measured sht30).1 = 0 ∧ TempMatches sht30 ∧ ¬HumidityMatches sht30) ∧
        sht30GetTempHumid sht30 = (1, { sht30 with
          temp := tempVal (uint8ToUint16 (measured sht30).2[0] (measured sht30).2[1]) }) ∨
      ((measured sht30).1 = 0 ∧ TempMatches sht30 ∧ HumidityMatches sht30) ∧
        sht30GetTempHumid sht30 = (0, { sht30 with
          temp := tempVal (uint8ToUint16 (measured sht30).2[0] (measured sht30).2[1])
          humidity := humVal (uint8ToUint16 (measured sht30).2[3] (measured sht30).2[4]) }) := by
  by_cases read : (measured sht30).1 = 0
  · by_cases first : TempMatches sht30
    · by_cases second : HumidityMatches sht30
      · refine .inr (.inr ⟨⟨read, first, second⟩, ?_⟩)
        exact (if_neg (not_not_intro read)).trans
          ((if_neg (not_not_intro first)).trans (if_neg (not_not_intro second)))
      · refine .inr (.inl ⟨⟨read, first, second⟩, ?_⟩)
        exact (if_neg (not_not_intro read)).trans
          ((if_neg (not_not_intro first)).trans (if_pos second))
    · exact .inl ⟨.inr first, (if_neg (not_not_intro read)).trans (if_pos first)⟩
  · exact .inl ⟨.inl read, if_pos read⟩

/-- A measurement that stores nothing is all or nothing when it had to fail. -/
theorem allOrNothing_of_failed {sht30 : Sht30T F}
    (failed : ¬((measured sht30).1 = 0 ∧ TempMatches sht30 ∧ HumidityMatches sht30)) {temp : F}
    (ended : sht30GetTempHumid sht30 = (1, { sht30 with temp := temp }))
    (kept : temp = sht30.temp) : AllOrNothing sht30 := by
  have error : (1 : BitVec 8) ≠ 0 := by decide
  constructor
  · rw [ended]
    exact iff_of_false error failed
  · rw [ended]
    exact fun wrong => absurd wrong error
  · rw [ended]
    exact fun _ => ⟨rfl, kept, rfl⟩

/-- A measurement is all or nothing except when only the second checksum is wrong, and then
only if the first word stands for the temperature that is stored already. -/
theorem measurement_all_or_nothing_iff (sht30 : Sht30T F) :
    AllOrNothing sht30 ↔
      ((measured sht30).1 = 0 → TempMatches sht30 → ¬HumidityMatches sht30 →
        tempVal (uint8ToUint16 (measured sht30).2[0] (measured sht30).2[1]) = sht30.temp) := by
  rcases sht30GetTempHumid_cases sht30 with
    ⟨cause, ended⟩ | ⟨⟨read, first, second⟩, ended⟩ | ⟨⟨read, first, second⟩, ended⟩
  · have failed : ¬((measured sht30).1 = 0 ∧ TempMatches sht30) := fun both =>
      cause.elim (fun status => status both.1) fun wrong => wrong both.2
    refine iff_of_true ?_ fun read first => absurd ⟨read, first⟩ failed
    exact allOrNothing_of_failed (fun all => failed ⟨all.1, all.2.1⟩) ended rfl
  · constructor
    · intro whole _ _ _
      have error : (1 : BitVec 8) ≠ 0 := by decide
      have kept := (whole.failure (by rw [ended]; exact error)).2.1
      rwa [ended] at kept
    · intro same
      exact allOrNothing_of_failed (fun all => second all.2.2) ended (same read first second)
  · refine iff_of_true ?_ fun _ _ wrong => absurd second wrong
    constructor
    · rw [ended]
      exact iff_of_true rfl ⟨read, first, second⟩
    · rw [ended]
      exact fun _ => rfl
    · rw [ended]
      exact fun wrong => absurd rfl wrong

end

/-- A sensor that sends a right first word and a wrong second one. -/
def halfRight : Sht30T Rat where
  readReg _ _ _ := (1, Vector.ofFn fun _ => 0)
  blockingReadReg _ _ _ := (0, Vector.ofFn fun i => if (i : Nat) = 2 then 0x81 else 0)
  temp := 20
  humidity := 50
  devAddress := 0x88

/-- A measurement that fails stores a temperature of -45 degrees. -/
theorem failed_measurement_stores_temp : ¬AllOrNothing halfRight := by
  intro whole
  have first : TempMatches halfRight := by
    unfold TempMatches
    decide +kernel
  have second : ¬HumidityMatches halfRight := by
    unfold HumidityMatches
    decide +kernel
  rcases sht30GetTempHumid_cases halfRight with ⟨cause, -⟩ | ⟨-, ended⟩ | ⟨⟨-, -, wrong⟩, -⟩
  · exact cause.elim (fun status => status rfl) fun wrong => wrong first
  · have error : (1 : BitVec 8) ≠ 0 := by decide
    have kept := (whole.failure (by rw [ended]; exact error)).2.1
    rw [ended] at kept
    have word : (uint8ToUint16 (measured halfRight).2[0] (measured halfRight).2[1]).toNat = 0 := by
      decide +kernel
    have stored : halfRight.temp = 20 := rfl
    simp only [tempVal, word, stored] at kept
    norm_num at kept
  · exact second wrong

end EmbeddedBase.General.Sht30
