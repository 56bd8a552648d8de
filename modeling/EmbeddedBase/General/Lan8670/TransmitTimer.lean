import EmbeddedBase.General.Lan8670.RegisterFile

/-!
# The transmit opportunity timer of the LAN8670

`LAN8670_PLCA_WriteTOTMR` and `LAN8670_PLCA_ReadTOTMR` on the MMD register file.  The buffer
of the read is a `bool *`, so of the byte that was written only zero and one come back.
-/

namespace EmbeddedBase.General.Lan8670

open EmbeddedBase.Data

/-- `MISC_PLCA_TOTMR`. -/
def miscPlcaTotmr : BitVec 16 := 0xCA04

/-- `LAN8670_PLCA_ReadTOTMR`; `buffer` is what the pointer held before the call. -/
def plcaReadTotmr (fails : Nat → Bool) (bus : Bus) (buffer : Bool) : (Status × Bool) × Bus :=
  let outcome := mmdReadRegisterField fails bus mmdMisc miscPlcaTotmr 0 7 0
  if outcome.1.1 ≠ .ok then ((outcome.1.1, buffer), outcome.2)
  else ((.ok, decide (outcome.1.2.setWidth 8 ≠ 0#8)), outcome.2)

/-- `LAN8670_PLCA_WriteTOTMR`. -/
def plcaWriteTotmr (fails : Nat → Bool) (bus : Bus) (data : BitVec 8) : Status × Bus :=
  mmdWriteRegisterField fails bus mmdMisc miscPlcaTotmr 0 7 (data.setWidth 16)

/-- No transaction fails. -/
def noFailure (_ : Nat) : Bool :=
  false

theorem clear_noFailure (first count : Nat) : Clear noFailure first count :=
  fun _ _ => rfl

/-- What is written to the timer is read back, and nothing else changes. -/
structure RoundTrips (bus : Bus) (buffer : Bool) (data : BitVec 8) : Prop where
  written : (plcaWriteTotmr noFailure bus data).1 = .ok
  upper : ((plcaWriteTotmr noFailure bus data).2.phy.mmd 0x1F 0xCA04).extractLsb' 8 8 =
    (bus.phy.mmd 0x1F 0xCA04).extractLsb' 8 8
  others : ∀ device offset, (device, offset) ≠ ((0x1F, 0xCA04) : BitVec 5 × BitVec 16) →
    (plcaWriteTotmr noFailure bus data).2.phy.mmd device offset = bus.phy.mmd device offset
  read : (plcaReadTotmr noFailure (plcaWriteTotmr noFailure bus data).2 buffer).1.1 = .ok
  same : (plcaReadTotmr noFailure (plcaWriteTotmr noFailure bus data).2 buffer).1.2.toNat =
    data.toNat
  keeps : (plcaReadTotmr noFailure (plcaWriteTotmr noFailure bus data).2 buffer).2.phy.mmd =
    (plcaWriteTotmr noFailure bus data).2.phy.mmd

theorem plcaWriteTotmr_writesField (fails : Nat → Bool) (bus : Bus) (data : BitVec 8) :
    WritesField fails bus 0x1F 0xCA04 0 7 (data.setWidth 16) (plcaWriteTotmr fails bus data) :=
  @mmdWriteRegisterField_writesField fails bus mmdMisc miscPlcaTotmr _ 0 7

theorem readTotmrField_readsField (fails : Nat → Bool) (bus : Bus) :
    ReadsField fails bus 0x1F 0xCA04 0 7 0
      (mmdReadRegisterField fails bus mmdMisc miscPlcaTotmr 0 7 0) :=
  @mmdReadRegisterField_readsField fails bus mmdMisc miscPlcaTotmr _ 0 7

theorem validRange_byte : ValidRange 0 7 :=
  ⟨by decide, by decide, by decide⟩

theorem validWrite_byte (data : BitVec 8) : ValidWrite 0 7 (data.setWidth 16) := by
  have byte := data.isLt
  refine ⟨validRange_byte, ?_⟩
  rw [BitVec.toNat_setWidth]
  change data.toNat % 65536 < 256
  omega

/-- The timer register after a write that succeeds. -/
theorem plcaWriteTotmr_ok {fails : Nat → Bool} {bus : Bus} {data : BitVec 8}
    (ok : (plcaWriteTotmr fails bus data).1 = .ok) :
    (((plcaWriteTotmr fails bus data).2.phy.mmd 0x1F 0xCA04).extractLsb' 0 8).setWidth 16 =
        data.setWidth 16 ∧
      ((plcaWriteTotmr fails bus data).2.phy.mmd 0x1F 0xCA04).extractLsb' 8 8 =
        (bus.phy.mmd 0x1F 0xCA04).extractLsb' 8 8 := by
  have replaces := ((plcaWriteTotmr_writesField fails bus data).stores ok).2
  constructor
  · exact replaces.read_back (by decide) (validWrite_byte data).2
  · apply BitVec.eq_of_getLsbD_eq
    intro i inside
    have outside : ¬(Int.toNat 0 ≤ 8 + i ∧ 8 + i < Int.toNat 0 + fieldWidth 0 7) := by
      change ¬(0 ≤ 8 + i ∧ 8 + i < 0 + 8)
      omega
    rw [BitVec.getLsbD_extractLsb', BitVec.getLsbD_extractLsb', replaces (8 + i) (by omega),
      if_neg outside]

/-- A read that succeeds stores whether the byte of the timer is not zero. -/
theorem plcaReadTotmr_of_clear {fails : Nat → Bool} {bus : Bus} (buffer : Bool)
    (clear : Clear fails bus.transactions 4) :
    ∃ bus', plcaReadTotmr fails bus buffer =
        ((.ok, decide ((bus.phy.mmd 0x1F 0xCA04).extractLsb' 0 8 ≠ 0#8)), bus') ∧
      bus'.phy.mmd = bus.phy.mmd := by
  have reads := readTotmrField_readsField fails bus
  have ok := (reads.completes validRange_byte).mpr clear
  have value := (reads.delivers ok).2
  have byte : (mmdReadRegisterField fails bus mmdMisc miscPlcaTotmr 0 7 0).1.2.setWidth 8 =
      (bus.phy.mmd 0x1F 0xCA04).extractLsb' 0 8 := by
    rw [value]
    apply BitVec.eq_of_toNat_eq
    change ((BitVec.setWidth 16 (BitVec.extractLsb' 0 8 _)).setWidth 8).toNat = _
    rw [BitVec.toNat_setWidth, BitVec.toNat_setWidth]
    have small := ((bus.phy.mmd 0x1F 0xCA04).extractLsb' 0 8).isLt
    omega
  refine ⟨_, ?_, reads.frame⟩
  rw [plcaReadTotmr, if_neg (not_not_intro ok), byte]

/-- A read after a write stores whether the byte is not zero. -/
theorem plcaReadTotmr_after_write (bus : Bus) (buffer : Bool) (data : BitVec 8) :
    (plcaWriteTotmr noFailure bus data).1 = .ok ∧
      ∃ bus', plcaReadTotmr noFailure (plcaWriteTotmr noFailure bus data).2 buffer =
          ((.ok, decide (data ≠ 0#8)), bus') ∧
        bus'.phy.mmd = (plcaWriteTotmr noFailure bus data).2.phy.mmd := by
  have writes := plcaWriteTotmr_writesField noFailure bus data
  have ok := (writes.completes (validWrite_byte data)).mpr (clear_noFailure _ _)
  have byte : ((plcaWriteTotmr noFailure bus data).2.phy.mmd 0x1F 0xCA04).extractLsb' 0 8 =
      data := by
    have numbers := congrArg BitVec.toNat (plcaWriteTotmr_ok ok).1
    rw [BitVec.toNat_setWidth, BitVec.toNat_setWidth] at numbers
    apply BitVec.eq_of_toNat_eq
    have small := data.isLt
    have stored := (BitVec.extractLsb' 0 8
      ((plcaWriteTotmr noFailure bus data).2.phy.mmd 0x1F 0xCA04)).isLt
    omega
  have read := plcaReadTotmr_of_clear buffer
    (clear_noFailure (plcaWriteTotmr noFailure bus data).2.transactions 4)
  rw [byte] at read
  exact ⟨ok, read⟩

/-- The timer round-trips exactly for the bytes that a `bool` can hold. -/
theorem totmr_round_trips_iff (bus : Bus) (buffer : Bool) (data : BitVec 8) :
    RoundTrips bus buffer data ↔ data.toNat ≤ 1 := by
  rcases plcaReadTotmr_after_write bus buffer data with ⟨ok, bus', read, keeps⟩
  have fits : (decide (data ≠ 0#8)).toNat = data.toNat ↔ data.toNat ≤ 1 := by
    by_cases zero : data = 0#8
    · simp [zero]
    · have positive : data.toNat ≠ 0 := fun none => zero (BitVec.eq_of_toNat_eq none)
      rw [decide_eq_true zero, Bool.toNat_true]
      omega
  constructor
  · intro trips
    have same := trips.same
    rw [read] at same
    exact fits.mp same
  · intro small
    have writes := plcaWriteTotmr_writesField noFailure bus data
    exact ⟨ok, (plcaWriteTotmr_ok ok).2, fun device offset => writes.frame device offset,
      by rw [read], by rw [read]; exact fits.mpr small, by rw [read]; exact keeps⟩

/-- The default of 32 bit-times is read back as one. -/
theorem default_totmr_lost :
    ∃ bus : Bus, ∃ bus' : Bus,
      plcaReadTotmr noFailure (plcaWriteTotmr noFailure bus 32).2 false = ((.ok, true), bus') ∧
        ¬RoundTrips bus false 32 := by
  let bus : Bus := ⟨⟨0, fun _ => 0, fun _ _ => 0⟩, 0⟩
  rcases plcaReadTotmr_after_write bus false 32 with ⟨_, bus', read, _⟩
  refine ⟨bus, bus', read, ?_⟩
  intro trips
  have same := trips.same
  rw [read] at same
  change 1 = 32 at same
  omega

end EmbeddedBase.General.Lan8670
