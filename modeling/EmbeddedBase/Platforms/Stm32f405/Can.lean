import EmbeddedBase.Platforms.Hal
import Mathlib.Data.List.Basic

/-!
# The CAN filters of the STM32F405 platform

The model of `can_init`, `can_add_filter_standard` and `can_add_filter_extended`
in `stm32f405/src/can.c`.  The HAL is a parameter: `HAL_CAN_ConfigFilter` is a
function on the state `σ` of the peripheral behind the handle, and the two HAL
calls of `can_init`, which leave the filters alone, are given by their status.
-/

namespace EmbeddedBase.Platforms.Stm32f405

universe u

/-- The values of `FilterMode` the driver uses. -/
inductive FilterMode where
  | idList
  deriving DecidableEq

/-- The values of `FilterScale` the driver uses. -/
inductive FilterScale where
  | bits16
  | bits32
  deriving DecidableEq

/-- The values of `FilterFIFOAssignment` the driver uses. -/
inductive FilterFifo where
  | fifo0
  deriving DecidableEq

/-- The fields of `CAN_FilterTypeDef` the driver sets. -/
structure CanFilter where
  filterBank : BitVec 32
  filterFifoAssignment : FilterFifo
  filterMode : FilterMode
  filterScale : FilterScale
  filterIdHigh : BitVec 32
  filterIdLow : BitVec 32
  filterMaskIdHigh : BitVec 32
  filterMaskIdLow : BitVec 32
  filterActivation : Bool
  deriving DecidableEq

/-- `can_t`, with the peripheral in place of the handle. -/
structure Can (σ : Type u) where
  hcan : σ
  filterBank : BitVec 32
  deriving DecidableEq

variable {σ : Type u}

/-- `can_init`; the arguments are the results of `HAL_CAN_ActivateNotification`
and `HAL_CAN_Start`. -/
def canInit (activated started : HalStatus) (can : Can σ) : HalStatus × Can σ :=
  let can := { can with filterBank := 0 }
  if activated ≠ .ok then (activated, can) else (started, can)

/-- `can_add_filter_standard`. -/
def canAddFilterStandard (configFilter : CanFilter → σ → HalStatus × σ) (can : Can σ)
    (canIdList : Fin 4 → BitVec 16) : HalStatus × Can σ :=
  if 14 ≤ can.filterBank.toNat then
    (.error, can)
  else if ∃ i, 0x7FF < (canIdList i).toNat then
    (.error, can)
  else
    let filter : CanFilter :=
      { filterBank := can.filterBank
        filterFifoAssignment := .fifo0
        filterMode := .idList
        filterScale := .bits16
        filterIdHigh := (canIdList 0 <<< 5).setWidth 32
        filterIdLow := (canIdList 1 <<< 5).setWidth 32
        filterMaskIdHigh := (canIdList 2 <<< 5).setWidth 32
        filterMaskIdLow := (canIdList 3 <<< 5).setWidth 32
        filterActivation := true }
    let result := configFilter filter can.hcan
    (result.1, ⟨result.2, can.filterBank + 1⟩)

/-- `can_add_filter_extended`. -/
def canAddFilterExtended (configFilter : CanFilter → σ → HalStatus × σ) (can : Can σ)
    (canIdList : Fin 2 → BitVec 32) : HalStatus × Can σ :=
  if 14 ≤ can.filterBank.toNat then
    (.error, can)
  else
    let filter : CanFilter :=
      { filterBank := can.filterBank
        filterFifoAssignment := .fifo0
        filterMode := .idList
        filterScale := .bits32
        filterIdHigh := canIdList 0 >>> 13
        filterIdLow := ((canIdList 0 <<< 3) &&& 0xFFF8#32) ||| (1#32 <<< 2)
        filterMaskIdHigh := canIdList 1 >>> 13
        filterMaskIdLow := ((canIdList 1 <<< 3) &&& 0xFFF8#32) ||| (1#32 <<< 2)
        filterActivation := true }
    let result := configFilter filter can.hcan
    (result.1, ⟨result.2, can.filterBank + 1⟩)

end EmbeddedBase.Platforms.Stm32f405
