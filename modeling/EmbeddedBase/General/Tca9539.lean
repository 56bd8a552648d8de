import EmbeddedBase.Data.RegisterField

/-!
# The TCA9539 port expander

The model of `tca9539.c` over arbitrary bus callbacks.  A callback returns its status, and
the driver returns that of the last one it made.
-/

namespace EmbeddedBase.General.Tca9539

open EmbeddedBase.Data

universe u

/-! ## Registers -/

/-- `TCA_INPUT_PORT_0`. -/
def tcaInputPort0 : BitVec 8 := 0x00

/-- `TCA_INPUT_PORT_1`. -/
def tcaInputPort1 : BitVec 8 := 0x01

/-- `TCA_OUTPUT_PORT_0`. -/
def tcaOutputPort0 : BitVec 8 := 0x02

/-- `TCA_OUTPUT_PORT_1`. -/
def tcaOutputPort1 : BitVec 8 := 0x03

/-- `TCA_CONFIGURATION_PORT_0`. -/
def tcaConfigurationPort0 : BitVec 8 := 0x06

/-- `TCA_CONFIGURATION_PORT_1`. -/
def tcaConfigurationPort1 : BitVec 8 := 0x07

/-! ## The driver -/

/-- `tca9539_t`: the two callbacks, over a bus state of type `σ`, and the address. -/
structure Tca9539T (σ : Type u) where
  write : BitVec 16 → BitVec 8 → BitVec 8 → σ → BitVec 8 × σ
  read : BitVec 16 → BitVec 8 → σ → (BitVec 8 × BitVec 8) × σ
  devAddr : BitVec 16

variable {σ : Type u}

/-- `tca9539_init`. -/
def tca9539Init (writeFunc : BitVec 16 → BitVec 8 → BitVec 8 → σ → BitVec 8 × σ)
    (readFunc : BitVec 16 → BitVec 8 → σ → (BitVec 8 × BitVec 8) × σ) (devAddr : BitVec 8) :
    Tca9539T σ :=
  ⟨writeFunc, readFunc, devAddr.setWidth 16 <<< 1⟩

/-- `tca_write_reg`. -/
def tcaWriteReg (tca : Tca9539T σ) (address data : BitVec 8) (bus : σ) : BitVec 8 × σ :=
  tca.write tca.devAddr address data bus

/-- `tca_read_reg`: the status, and the byte stored in `data`. -/
def tcaReadReg (tca : Tca9539T σ) (address : BitVec 8) (bus : σ) :
    (BitVec 8 × BitVec 8) × σ :=
  tca.read tca.devAddr address bus

/-- `tca9539_read_pin`, for a pin below 32; the value is what is stored in `buf`. -/
def tca9539ReadPin (tca : Tca9539T σ) (regType pin : BitVec 8) (bus : σ) :
    (BitVec 8 × Option Bool) × σ :=
  let data := tcaReadReg tca regType bus
  if data.1.1 ≠ 0 then
    ((data.1.1, none), data.2)
  else
    ((data.1.1,
      some (decide ((0 : Int) < (data.1.2.setWidth 32 &&& 1#32 <<< pin.toNat).toInt))), data.2)

/-- `tca9539_write_reg`. -/
def tca9539WriteReg (tca : Tca9539T σ) (regType buf : BitVec 8) (bus : σ) : BitVec 8 × σ :=
  tcaWriteReg tca regType buf bus

/-- `tca9539_write_pin`, for a pin below 32. -/
def tca9539WritePin (tca : Tca9539T σ) (regType pin buf : BitVec 8) (bus : σ) : BitVec 8 × σ :=
  let data := tcaReadReg tca regType bus
  if data.1.1 ≠ 0 then
    (data.1.1, data.2)
  else
    tcaWriteReg tca regType (replaceBit 32 data.1.2 pin.toNat buf) data.2

/-- A read of a pin of a port selects its bit in the register. -/
theorem tca9539ReadPin_of_success {tca : Tca9539T σ} {regType pin data : BitVec 8}
    {bus bus' : σ} (inside : pin.toNat < 8)
    (success : tcaReadReg tca regType bus = ((0, data), bus')) :
    tca9539ReadPin tca regType pin bus = ((0, some (data.getLsbD pin.toNat)), bus') := by
  have selected : decide ((0 : Int) < (data.setWidth 32 &&& 1#32 <<< pin.toNat).toInt) =
      data.getLsbD pin.toNat := by
    rw [Bool.eq_iff_iff, decide_eq_true_iff]
    exact toInt_and_one_shiftLeft_pos (by decide) data inside
  rw [tca9539ReadPin, success]
  dsimp only
  rw [if_neg (by decide), selected]

end EmbeddedBase.General.Tca9539
