import EmbeddedBase.Platforms.Stm32f405.Can
import Mathlib.Logic.Function.Basic

/-!
# The acceptance filters of the bxCAN peripheral

The peripheral as the driver relies on it: `HAL_CAN_ConfigFilter` programs the
words of one bank, and in list mode a frame passes when its layout word equals a
programmed word of some active bank.
-/

namespace EmbeddedBase.Platforms.Stm32f405

/-- A frame on the bus, by its format, its id and its RTR bit. -/
inductive Frame where
  | standard (id : BitVec 11) (rtr : Bool)
  | extended (id : BitVec 29) (rtr : Bool)
  deriving DecidableEq

namespace Frame

/-- `STID[10:0]`. -/
def stid : Frame → BitVec 11
  | standard id _ => id
  | extended id _ => id.extractLsb' 18 11

/-- `EXID[17:0]`; a standard frame has none. -/
def exid : Frame → BitVec 18
  | standard _ _ => 0
  | extended id _ => id.extractLsb' 0 18

/-- The IDE bit. -/
def ide : Frame → Bool
  | standard _ _ => false
  | extended _ _ => true

/-- The RTR bit. -/
def rtr : Frame → Bool
  | standard _ rtr => rtr
  | extended _ rtr => rtr

/-- The layout word of a 16-bit filter: `STID[10:0], RTR, IDE, EXID[17:15]`. -/
def layout16 (frame : Frame) : BitVec 16 :=
  frame.stid ++ BitVec.ofBool frame.rtr ++ BitVec.ofBool frame.ide ++
    frame.exid.extractLsb' 15 3

/-- The layout word of a 32-bit filter: `STID, EXID, IDE, RTR, 0`. -/
def layout32 (frame : Frame) : BitVec 32 :=
  frame.stid ++ frame.exid ++ BitVec.ofBool frame.ide ++ BitVec.ofBool frame.rtr ++ 0#1

end Frame

/-- An active bank in list mode, with its programmed words. -/
inductive Bank where
  | list16 (words : List (BitVec 16))
  | list32 (words : List (BitVec 32))
  deriving DecidableEq

/-- The bank lets the frame pass. -/
def Bank.Admits : Bank → Frame → Prop
  | list16 words, frame => frame.layout16 ∈ words
  | list32 words, frame => frame.layout32 ∈ words

instance (bank : Bank) (frame : Frame) : Decidable (bank.Admits frame) := by
  cases bank <;> exact inferInstanceAs (Decidable (_ ∈ _))

/-- The filter banks; an inactive bank is `none`. -/
structure Bxcan where
  banks : Nat → Option Bank

/-- Some active bank lets the frame pass. -/
def Bxcan.Accepts (bxcan : Bxcan) (frame : Frame) : Prop :=
  ∃ i bank, bxcan.banks i = some bank ∧ bank.Admits frame

/-- The words a filter configuration programs. -/
def CanFilter.bank (filter : CanFilter) : Bank :=
  match filter.filterScale with
  | .bits16 => .list16
      [filter.filterIdHigh.setWidth 16, filter.filterIdLow.setWidth 16,
        filter.filterMaskIdHigh.setWidth 16, filter.filterMaskIdLow.setWidth 16]
  | .bits32 => .list32
      [(filter.filterIdHigh <<< 16) ||| filter.filterIdLow,
        (filter.filterMaskIdHigh <<< 16) ||| filter.filterMaskIdLow]

/-- `HAL_CAN_ConfigFilter` when it succeeds. -/
def halCanConfigFilter (filter : CanFilter) (bxcan : Bxcan) : HalStatus × Bxcan :=
  (.ok, ⟨Function.update bxcan.banks filter.filterBank.toNat
    (if filter.filterActivation then some filter.bank else none)⟩)

end EmbeddedBase.Platforms.Stm32f405
