import EmbeddedBase.Platforms.Hal
import Mathlib.Tactic.ByContra

/-!
# Lightning energy of the AS3935

The model of `as3935_read` and `as3935_get_energy` in `as3935.c`.  The byte 0xFF stands for a
failed transfer and is also legal data, and the value that stands for a failure is also an
energy.
-/

namespace EmbeddedBase.General.As3935

open EmbeddedBase.Platforms (HalStatus)

/-! ## The driver -/

/-- `AS3935_S_LIG_L`. -/
def as3935SLigL : BitVec 8 := 0x04

/-- `AS3935_S_LIG_M`. -/
def as3935SLigM : BitVec 8 := 0x05

/-- `AS3935_S_LIG_MM`. -/
def as3935SLigMm : BitVec 8 := 0x06

/-- `AS3935_READ_CMD`. -/
def as3935ReadCmd : BitVec 16 := 0x4000

/-- `HAL_ERROR` as a number. -/
def halError : BitVec 32 := 1

/-- `HAL_SPI_TransmitReceive`: for the transmitted word, the status and the received bytes. -/
abbrev Spi :=
  BitVec 16 → HalStatus × BitVec 8 × BitVec 8

/-- The word that is transmitted to read a register. -/
def txData (reg : BitVec 8) : BitVec 16 :=
  as3935ReadCmd ||| ((reg.setWidth 16 &&& 0x3F) <<< 8)

/-- `as3935_read`. -/
def as3935Read (spi : Spi) (reg : BitVec 8) : BitVec 8 :=
  let received := spi (txData reg)
  if received.1 ≠ .ok then 0xFF else received.2.2

/-- `((energy_mm & 0x1F) << 16) | (energy_m << 8) | energy_l`. -/
def combine (energyMm energyM energyL : BitVec 8) : BitVec 32 :=
  (energyMm.setWidth 32 &&& 0x1F) <<< 16 ||| energyM.setWidth 32 <<< 8 ||| energyL.setWidth 32

/-- `as3935_get_energy`. -/
def as3935GetEnergy (spi : Spi) : BitVec 32 :=
  let energyMm := as3935Read spi as3935SLigMm
  let energyM := as3935Read spi as3935SLigM
  let energyL := as3935Read spi as3935SLigL
  if energyMm = 0xFF ∨ energyL = 0xFF ∨ energyM = 0xFF then halError
  else combine energyMm energyM energyL

/-! ## Unambiguous readings -/

/-- The transfer for a register succeeds. -/
def Succeeds (spi : Spi) (reg : BitVec 8) : Prop :=
  (spi (txData reg)).1 = .ok

/-- All three transfers succeed. -/
def AllSucceed (spi : Spi) : Prop :=
  Succeeds spi as3935SLigMm ∧ Succeeds spi as3935SLigM ∧ Succeeds spi as3935SLigL

/-- The byte a transfer delivers. -/
def content (spi : Spi) (reg : BitVec 8) : BitVec 8 :=
  (spi (txData reg)).2.2

/-- None of the three registers holds 0xFF. -/
def NoneFull (spi : Spi) : Prop :=
  content spi as3935SLigMm ≠ 0xFF ∧ content spi as3935SLigM ≠ 0xFF ∧
    content spi as3935SLigL ≠ 0xFF

/-- The energy is exact after success, and a failure is told from every success. -/
structure Unambiguous (spi : Spi) : Prop where
  exact : AllSucceed spi → as3935GetEnergy spi =
    combine (content spi as3935SLigMm) (content spi as3935SLigM) (content spi as3935SLigL)
  distinct : ¬AllSucceed spi → ∀ other, AllSucceed other →
    as3935GetEnergy spi ≠ as3935GetEnergy other

theorem as3935Read_of_succeeds {spi : Spi} {reg : BitVec 8} (succeeds : Succeeds spi reg) :
    as3935Read spi reg = content spi reg :=
  if_neg (not_not_intro succeeds)

theorem as3935Read_of_fails {spi : Spi} {reg : BitVec 8} (fails : ¬Succeeds spi reg) :
    as3935Read spi reg = 0xFF :=
  if_pos fails

/-- An energy with a byte 0xFF has a bit that `HAL_ERROR` has not. -/
theorem combine_ne_halError {energyMm energyM energyL : BitVec 8}
    (full : energyMm = 0xFF ∨ energyM = 0xFF ∨ energyL = 0xFF) :
    combine energyMm energyM energyL ≠ halError := by
  intro equal
  rcases full with rfl | rfl | rfl
  · have bit := congrArg (fun energy : BitVec 32 => energy.getLsbD 16) equal
    simp [combine, halError] at bit
  · have bit := congrArg (fun energy : BitVec 32 => energy.getLsbD 8) equal
    simp [combine, halError] at bit
  · have bit := congrArg (fun energy : BitVec 32 => energy.getLsbD 7) equal
    simp [combine, halError] at bit

/-- After success the energy is exact, except where a byte is 0xFF. -/
theorem as3935GetEnergy_of_succeed {spi : Spi} (succeed : AllSucceed spi) :
    (NoneFull spi → as3935GetEnergy spi =
      combine (content spi as3935SLigMm) (content spi as3935SLigM) (content spi as3935SLigL)) ∧
      (¬NoneFull spi → as3935GetEnergy spi = halError) := by
  rcases succeed with ⟨mm, m, l⟩
  rw [as3935GetEnergy, as3935Read_of_succeeds mm, as3935Read_of_succeeds m,
    as3935Read_of_succeeds l]
  constructor
  · rintro ⟨mmNot, mNot, lNot⟩
    apply if_neg
    rintro (isMm | isL | isM)
    · exact mmNot isMm
    · exact lNot isL
    · exact mNot isM
  · intro full
    apply if_pos
    by_contra none
    simp only [not_or] at none
    exact full ⟨none.1, none.2.2, none.2.1⟩

theorem as3935GetEnergy_of_failure {spi : Spi} (failure : ¬AllSucceed spi) :
    as3935GetEnergy spi = halError := by
  apply if_pos
  by_cases mm : Succeeds spi as3935SLigMm
  · by_cases m : Succeeds spi as3935SLigM
    · have l : ¬Succeeds spi as3935SLigL := fun l => failure ⟨mm, m, l⟩
      exact .inr (.inl (as3935Read_of_fails l))
    · exact .inr (.inr (as3935Read_of_fails m))
  · exact .inl (as3935Read_of_fails mm)

/-- A sensor that reports the lowest energy above zero. -/
def lowest : Spi :=
  fun word => (.ok, 0, if word = txData as3935SLigL then 1 else 0)

theorem as3935GetEnergy_lowest : AllSucceed lowest ∧ as3935GetEnergy lowest = halError :=
  ⟨⟨rfl, rfl, rfl⟩, by decide⟩

/-- A reading is unambiguous exactly when all transfers succeed and no byte is 0xFF. -/
theorem energy_unambiguous_iff (spi : Spi) :
    Unambiguous spi ↔ AllSucceed spi ∧ NoneFull spi := by
  by_cases succeed : AllSucceed spi
  · rcases as3935GetEnergy_of_succeed succeed with ⟨exact, full⟩
    constructor
    · intro unambiguous
      refine ⟨succeed, ?_⟩
      by_contra some
      have equal := (unambiguous.exact succeed).symm.trans (full some)
      refine combine_ne_halError ?_ equal
      by_contra none
      simp only [not_or] at none
      exact some none
    · rintro ⟨_, none⟩
      exact ⟨fun _ => exact none, fun failure => absurd succeed failure⟩
  · constructor
    · intro unambiguous
      have same := (as3935GetEnergy_of_failure succeed).trans as3935GetEnergy_lowest.2.symm
      exact absurd same (unambiguous.distinct succeed lowest as3935GetEnergy_lowest.1)
    · rintro ⟨all, _⟩
      exact absurd all succeed

/-- A low byte 0xFF is reported as an error, and a failure as the lowest energy. -/
theorem full_byte_ambiguous :
    as3935GetEnergy (fun _ => (.ok, 0, 0xFF)) = halError ∧
      ¬Unambiguous (fun _ => (.ok, 0, 0xFF)) ∧ ¬Unambiguous (fun _ => (.timeout, 0, 0)) := by
  have succeed : AllSucceed fun _ => (.ok, 0, 0xFF) := ⟨rfl, rfl, rfl⟩
  have full : ¬NoneFull fun _ => (.ok, 0, 0xFF) := fun none => none.1 rfl
  have read := (as3935GetEnergy_of_succeed succeed).2 full
  refine ⟨read, ?_, ?_⟩
  · intro unambiguous
    exact combine_ne_halError (.inl rfl) ((unambiguous.exact succeed).symm.trans read)
  · intro unambiguous
    have failure : ¬AllSucceed fun _ => (.timeout, 0, 0) := fun all => by cases all.1
    exact unambiguous.distinct failure lowest as3935GetEnergy_lowest.1
      ((as3935GetEnergy_of_failure failure).trans as3935GetEnergy_lowest.2.symm)

end EmbeddedBase.General.As3935
