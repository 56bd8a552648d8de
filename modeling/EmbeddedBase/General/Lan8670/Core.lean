import EmbeddedBase.Data.RegisterField
import Mathlib.Logic.Function.Basic

/-!
# MMD access of the LAN8670

The model of the MMD functions of `lan8670.c`, and of the PHY they talk to: its MMD
registers are reached through the two SMI registers MMDCTRL and MMDAD, as clause 22 of
IEEE 802.3 defines it.  Any bus transaction may fail.
-/

namespace EmbeddedBase.General.Lan8670

open EmbeddedBase.Data

/-! ## The PHY -/

/-- `REG_MMDCTRL` and `REG_MMDAD`. -/
inductive SmiRegister
  | mmdctrl
  | mmdad
  deriving DecidableEq

/-- The MMD part of the PHY: the control register, and for each MMD device its address
register and its registers. -/
structure Phy where
  mmdctrl : BitVec 16
  address : BitVec 5 → BitVec 16
  mmd : BitVec 5 → BitVec 16 → BitVec 16

namespace Phy

/-- Bits 4:0 of the control register. -/
def device (phy : Phy) : BitVec 5 :=
  phy.mmdctrl.extractLsb' 0 5

/-- Bits 15:14 of the control register. -/
def mmdFunction (phy : Phy) : BitVec 2 :=
  phy.mmdctrl.extractLsb' 14 2

/-- Step the address of the selected device. -/
def postIncrement (phy : Phy) : Phy :=
  { phy with address := Function.update phy.address phy.device (phy.address phy.device + 1) }

/-- A write transaction.  Function 00 sets the address; the others write the addressed
register, and 10 and 11 step the address afterwards. -/
def write (phy : Phy) (reg : SmiRegister) (data : BitVec 32) : Phy :=
  match reg with
  | .mmdctrl => { phy with mmdctrl := data.setWidth 16 }
  | .mmdad =>
      if phy.mmdFunction = 0b00 then
        { phy with address := Function.update phy.address phy.device (data.setWidth 16) }
      else
        let stored := Function.update (phy.mmd phy.device) (phy.address phy.device)
          (data.setWidth 16)
        let written := { phy with mmd := Function.update phy.mmd phy.device stored }
        if phy.mmdFunction = 0b01 then written else written.postIncrement

/-- A read transaction.  Only function 10 steps the address after a read. -/
def read (phy : Phy) (reg : SmiRegister) : BitVec 32 × Phy :=
  match reg with
  | .mmdctrl => (phy.mmdctrl.setWidth 32, phy)
  | .mmdad =>
      if phy.mmdFunction = 0b00 then
        ((phy.address phy.device).setWidth 32, phy)
      else
        ((phy.mmd phy.device (phy.address phy.device)).setWidth 32,
          if phy.mmdFunction = 0b10 then phy.postIncrement else phy)

end Phy

/-- The PHY on its bus, with the number of transactions so far. -/
structure Bus where
  phy : Phy
  transactions : Nat

/-- `lan->IO.WriteReg`; the flag is set when it returns 0. -/
def writeReg (fails : Nat → Bool) (bus : Bus) (reg : SmiRegister) (data : BitVec 32) :
    Bool × Bus :=
  if fails bus.transactions then
    (false, ⟨bus.phy, bus.transactions + 1⟩)
  else
    (true, ⟨bus.phy.write reg data, bus.transactions + 1⟩)

/-- `lan->IO.ReadReg`, which stores what it read when it returns 0. -/
def readReg (fails : Nat → Bool) (bus : Bus) (reg : SmiRegister) :
    Option (BitVec 32) × Bus :=
  if fails bus.transactions then
    (none, ⟨bus.phy, bus.transactions + 1⟩)
  else
    (some (bus.phy.read reg).1, ⟨(bus.phy.read reg).2, bus.transactions + 1⟩)

/-! ## The driver -/

/-- The `LAN8670_STATUS` codes the MMD functions return. -/
inductive Status
  | ok
  | error
  | readError
  | writeError
  deriving DecidableEq

/-- The value of `mmd_ctrl` that selects the address function. -/
def mmdCtrlAddress (mmdAddr : BitVec 16) : BitVec 16 :=
  mmdAddr &&& 0x1F

/-- The value of `mmd_ctrl` for 'Data - No post increment'. -/
def mmdCtrlData (mmdAddr : BitVec 16) : BitVec 16 :=
  (mmdAddr &&& 0x1F) ||| (1 <<< 14)

/-- The three writes that `mmd_read_register` and `mmd_write_register` both begin with.
The first one that fails ends them. -/
def selectRegister (fails : Nat → Bool) (bus : Bus) (mmdAddr registerOffset : BitVec 16) :
    Bool × Bus :=
  let device := writeReg fails bus .mmdctrl ((mmdCtrlAddress mmdAddr).setWidth 32)
  if device.1 then
    let offset := writeReg fails device.2 .mmdad (registerOffset.setWidth 32)
    if offset.1 then
      writeReg fails offset.2 .mmdctrl ((mmdCtrlData mmdAddr).setWidth 32)
    else
      offset
  else
    device

/-- `mmd_read_register`; `value` is what the pointer held before the call. -/
def mmdReadRegister (fails : Nat → Bool) (bus : Bus) (mmdAddr registerOffset : BitVec 16)
    (value : BitVec 16) : (Status × BitVec 16) × Bus :=
  let selected := selectRegister fails bus mmdAddr registerOffset
  if selected.1 then
    let data := readReg fails selected.2 .mmdad
    match data.1 with
    | none => ((.readError, value), data.2)
    | some read => ((.ok, (read &&& 0xFFFF).setWidth 16), data.2)
  else
    ((.writeError, value), selected.2)

/-- `mmd_write_register`. -/
def mmdWriteRegister (fails : Nat → Bool) (bus : Bus) (mmdAddr registerOffset : BitVec 16)
    (value : BitVec 16) : Status × Bus :=
  let selected := selectRegister fails bus mmdAddr registerOffset
  if selected.1 then
    let data := writeReg fails selected.2 .mmdad (value.setWidth 32)
    if data.1 then (.ok, data.2) else (.writeError, data.2)
  else
    (.writeError, selected.2)

/-- The bit range check of the field functions. -/
def invalidRange (start last : Int) : Bool :=
  decide (start > last) || decide (start < 0 ∨ last > 15)

/-- `field_width`. -/
def fieldWidth (start last : Int) : Nat :=
  (last - start + 1).toNat

/-- `max_value`. -/
def maxValue (start last : Int) : BitVec 16 :=
  ((1#32 <<< fieldWidth start last) - 1#32).setWidth 16

/-- `mask`, computed in 32 bits. -/
def mask (start last : Int) : BitVec 16 :=
  (fieldMask 32 start.toNat (fieldWidth start last)).setWidth 16

/-- `mmd_read_register_field`. -/
def mmdReadRegisterField (fails : Nat → Bool) (bus : Bus) (mmdAddr registerOffset : BitVec 16)
    (start last : Int) (value : BitVec 16) : (Status × BitVec 16) × Bus :=
  if invalidRange start last then
    ((.error, value), bus)
  else
    let data := mmdReadRegister fails bus mmdAddr registerOffset 0
    if data.1.1 ≠ .ok then
      ((.readError, value), data.2)
    else
      ((.ok, (data.1.2 &&& mask start last) >>> start.toNat), data.2)

/-- `mmd_write_register_field`. -/
def mmdWriteRegisterField (fails : Nat → Bool) (bus : Bus)
    (mmdAddr registerOffset : BitVec 16) (start last : Int) (value : BitVec 16) :
    Status × Bus :=
  if invalidRange start last then
    (.error, bus)
  else if value > maxValue start last then
    (.error, bus)
  else
    let data := mmdReadRegister fails bus mmdAddr registerOffset 0
    if data.1.1 ≠ .ok then
      (.readError, data.2)
    else
      let field := mask start last
      let written := mmdWriteRegister fails data.2 mmdAddr registerOffset
        ((data.1.2 &&& ~~~field) ||| ((value <<< start.toNat) &&& field))
      if written.1 ≠ .ok then (.writeError, written.2) else (.ok, written.2)

/-- `MMD_MISC`. -/
def mmdMisc : BitVec 16 := 0x1F

/-- `MISC_PLCA_CTRL1`. -/
def miscPlcaCtrl1 : BitVec 16 := 0xCA02

/-- `LAN8670_PLCA_Set_Node_Count`. -/
def plcaSetNodeCount (fails : Nat → Bool) (bus : Bus) (nodeCount : BitVec 8) : Status × Bus :=
  mmdWriteRegisterField fails bus mmdMisc miscPlcaCtrl1 8 15 (nodeCount.setWidth 16)

/-- `LAN8670_PLCA_Set_Node_Id`. -/
def plcaSetNodeId (fails : Nat → Bool) (bus : Bus) (id : BitVec 8) : Status × Bus :=
  mmdWriteRegisterField fails bus mmdMisc miscPlcaCtrl1 0 7 (id.setWidth 16)

end EmbeddedBase.General.Lan8670
