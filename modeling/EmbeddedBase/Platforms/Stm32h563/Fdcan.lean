import EmbeddedBase.Platforms.Hal
import EmbeddedBase.Transition.Machine
import Mathlib.Logic.Function.Basic

/-!
# Bus-off recovery of the STM32H563 platform

The model of `stm32h563/src/fdcan.c` over an FDCAN peripheral.  The result of each HAL call
is an input.  Stopping the peripheral keeps its filters and drops its notifications, and
`can_recover_bus_off` enables only one of the two that `can_init` enables.
-/

namespace EmbeddedBase.Platforms.Stm32h563

open EmbeddedBase.Transition

/-! ## The peripheral -/

/-- The FDCAN interrupts; the driver enables the first two. -/
inductive Interrupt
  | rxFifo0NewMessage
  | busOff
  | other (bit : Nat)
  deriving DecidableEq

/-- The interrupt lines. -/
inductive InterruptLine
  | line0
  | line1
  deriving DecidableEq

/-- `FDCAN_STANDARD_ID` and `FDCAN_EXTENDED_ID`. -/
inductive IdType
  | standard
  | extended
  deriving DecidableEq

/-- The fields of `FDCAN_FilterTypeDef` the driver varies; the others select a dual filter
into RX FIFO 0. -/
structure Filter where
  idType : IdType
  filterIndex : BitVec 32
  filterId1 : BitVec 32
  filterId2 : BitVec 32
  deriving DecidableEq

/-- The fields of `FDCAN_TxHeaderTypeDef` the driver varies, and the data. -/
structure TxMessage where
  identifier : BitVec 32
  idType : IdType
  dataLength : BitVec 8
  data : List (BitVec 8)
  deriving DecidableEq

/-- The peripheral. -/
structure Fdcan where
  started : Bool
  busOff : Bool
  notifications : Interrupt → Bool
  lines : Interrupt → Option InterruptLine
  rejectsByDefault : Bool
  filters : List Filter
  txFifo : List TxMessage

namespace Fdcan

/-- `HAL_FDCAN_ConfigInterruptLines`. -/
def configInterruptLines (interrupt : Interrupt) (line : InterruptLine) (fdcan : Fdcan) : Fdcan :=
  { fdcan with lines := Function.update fdcan.lines interrupt (some line) }

/-- `HAL_FDCAN_ActivateNotification`. -/
def activateNotification (interrupt : Interrupt) (fdcan : Fdcan) : Fdcan :=
  { fdcan with notifications := Function.update fdcan.notifications interrupt true }

/-- `HAL_FDCAN_ConfigGlobalFilter`, rejecting everything. -/
def configGlobalFilter (fdcan : Fdcan) : Fdcan :=
  { fdcan with rejectsByDefault := true }

/-- `HAL_FDCAN_Start`. -/
def start (fdcan : Fdcan) : Fdcan :=
  { fdcan with started := true, busOff := false }

/-- `HAL_FDCAN_Stop`: filters survive, notifications do not. -/
def stop (fdcan : Fdcan) : Fdcan :=
  { fdcan with started := false, notifications := fun _ => false }

/-- `HAL_FDCAN_ConfigFilter`. -/
def configFilter (filter : Filter) (fdcan : Fdcan) : Fdcan :=
  { fdcan with filters := fdcan.filters ++ [filter] }

/-- `HAL_FDCAN_AddMessageToTxFifoQ`. -/
def addMessageToTxFifoQ (message : TxMessage) (fdcan : Fdcan) : Fdcan :=
  { fdcan with txFifo := fdcan.txFifo ++ [message] }

/-- The node goes into bus-off. -/
def goBusOff (fdcan : Fdcan) : Fdcan :=
  { fdcan with busOff := true }

/-- The notifications of full supervision: those that `can_init` enables. -/
def supervision (interrupt : Interrupt) : Bool :=
  interrupt = .rxFifo0NewMessage ∨ interrupt = .busOff

end Fdcan

/-! ## The driver -/

/-- The result of a HAL call.  A call that fails may leave the peripheral in any state. -/
structure HalResult where
  status : HalStatus
  left : Fdcan

/-- Make HAL calls in order; the first that fails ends them.  `result i` is the result of
call number `i`. -/
def halCalls (result : Nat → HalResult) : Nat → List (Fdcan → Fdcan) → Fdcan → HalStatus × Fdcan
  | _, [], fdcan => (.ok, fdcan)
  | i, effect :: effects, fdcan =>
      if (result i).status ≠ .ok then ((result i).status, (result i).left)
      else halCalls result (i + 1) effects (effect fdcan)

/-- `can_t`, with the peripheral in place of the handle. -/
structure Can where
  fdcan : Fdcan
  standardFilterIndex : BitVec 32
  extendedFilterIndex : BitVec 32

/-- `can_init`. -/
def canInit (result : Nat → HalResult) (fdcan : Fdcan) : HalStatus × Can :=
  let outcome := halCalls result 0
    [ Fdcan.configInterruptLines .rxFifo0NewMessage .line0,
      Fdcan.activateNotification .rxFifo0NewMessage,
      Fdcan.configInterruptLines .busOff .line1,
      Fdcan.activateNotification .busOff,
      Fdcan.configGlobalFilter,
      Fdcan.start ] fdcan
  (outcome.1, ⟨outcome.2, 0, 0⟩)

/-- `can_add_filter_standard`. -/
def canAddFilterStandard (result : Nat → HalResult) (can : Can) (canIds : BitVec 16 × BitVec 16) :
    HalStatus × Can :=
  let filter : Filter :=
    { idType := .standard
      filterIndex := can.standardFilterIndex
      filterId1 := canIds.1.setWidth 32
      filterId2 := canIds.2.setWidth 32 }
  let outcome := halCalls result 0 [Fdcan.configFilter filter] can.fdcan
  if outcome.1 ≠ .ok then
    (outcome.1, { can with fdcan := outcome.2 })
  else
    (outcome.1,
      { can with fdcan := outcome.2, standardFilterIndex := can.standardFilterIndex + 1 })

/-- `can_add_filter_extended`. -/
def canAddFilterExtended (result : Nat → HalResult) (can : Can) (canIds : BitVec 32 × BitVec 32) :
    HalStatus × Can :=
  let filter : Filter :=
    { idType := .extended
      filterIndex := can.extendedFilterIndex
      filterId1 := canIds.1
      filterId2 := canIds.2 }
  let outcome := halCalls result 0 [Fdcan.configFilter filter] can.fdcan
  if outcome.1 ≠ .ok then
    (outcome.1, { can with fdcan := outcome.2 })
  else
    (outcome.1,
      { can with fdcan := outcome.2, extendedFilterIndex := can.extendedFilterIndex + 1 })

/-- `can_recover_bus_off`. -/
def canRecoverBusOff (result : Nat → HalResult) (can : Can) : HalStatus × Can :=
  let outcome := halCalls result 0
    [ Fdcan.stop,
      Fdcan.start,
      Fdcan.activateNotification .rxFifo0NewMessage ] can.fdcan
  (outcome.1, { can with fdcan := outcome.2 })

/-- `can_msg_t`. -/
structure CanMsg where
  id : BitVec 32
  data : List (BitVec 8)
  idIsExtended : Bool
  len : BitVec 8

/-- `can_send_msg`; `freeLevel` is what `HAL_FDCAN_GetTxFifoFreeLevel` returns. -/
def canSendMsg (freeLevel : BitVec 32) (result : Nat → HalResult) (can : Can) (msg : CanMsg) :
    HalStatus × Can :=
  if 8 < msg.len.toNat then
    (.error, can)
  else
    let message : TxMessage :=
      { identifier := msg.id
        idType := if msg.idIsExtended then .extended else .standard
        dataLength := msg.len
        data := msg.data }
    if freeLevel = 0 then
      (.busy, can)
    else
      let outcome := halCalls result 0 [Fdcan.addMessageToTxFifoQ message] can.fdcan
      (outcome.1, { can with fdcan := outcome.2 })

/-! ## Runs -/

/-- What happens after the initialisation. -/
inductive Event
  | busOff
  | recover (result : Nat → HalResult)
  | addFilterStandard (result : Nat → HalResult) (canIds : BitVec 16 × BitVec 16)
  | addFilterExtended (result : Nat → HalResult) (canIds : BitVec 32 × BitVec 32)
  | send (freeLevel : BitVec 32) (result : Nat → HalResult) (msg : CanMsg)

/-- The status of a call, or whether a bus-off was signalled. -/
inductive Reply
  | status (status : HalStatus)
  | signalled (value : Bool)
  deriving DecidableEq

/-- One event. -/
def step : Machine Can Event Reply := fun can event =>
  match event with
  | .busOff =>
      (.signalled (can.fdcan.started && can.fdcan.notifications .busOff),
        { can with fdcan := can.fdcan.goBusOff })
  | .recover result =>
      let outcome := canRecoverBusOff result can
      (.status outcome.1, outcome.2)
  | .addFilterStandard result canIds =>
      let outcome := canAddFilterStandard result can canIds
      (.status outcome.1, outcome.2)
  | .addFilterExtended result canIds =>
      let outcome := canAddFilterExtended result can canIds
      (.status outcome.1, outcome.2)
  | .send freeLevel result msg =>
      let outcome := canSendMsg freeLevel result can msg
      (.status outcome.1, outcome.2)

/-- A recovery that returns `HAL_OK` starts the peripheral with the notifications that were
enabled at first. -/
def Restores (enabled : Interrupt → Bool) (can : Can) (event : Event) : Prop :=
  match event with
  | .recover result =>
      let outcome := canRecoverBusOff result can
      outcome.1 = .ok →
        outcome.2.fdcan.started = true ∧ outcome.2.fdcan.notifications = enabled
  | _ => True

/-- All three HAL calls of a recovery succeed. -/
def Event.AllSucceed (event : Event) : Prop :=
  match event with
  | .recover result => ∀ i < 3, (result i).status = .ok
  | _ => False

/-! ## HAL calls -/

/-- A sequence of HAL calls succeeds when each of them does. -/
theorem halCalls_eq_ok_iff (result : Nat → HalResult) (i : Nat) (effects : List (Fdcan → Fdcan))
    (fdcan : Fdcan) :
    (halCalls result i effects fdcan).1 = .ok ↔
      ∀ j < effects.length, (result (i + j)).status = .ok := by
  induction effects generalizing i fdcan with
  | nil => simp [halCalls]
  | cons effect effects ih =>
      rw [halCalls]
      by_cases ok : (result i).status = .ok
      · rw [if_neg (not_not_intro ok), ih, List.length_cons]
        constructor
        · intro rest j below
          cases j with
          | zero => exact ok
          | succ j =>
              have later := rest j (Nat.lt_of_succ_lt_succ below)
              rwa [Nat.add_assoc, Nat.add_comm 1 j] at later
        · intro all j below
          have later := all (j + 1) (Nat.succ_lt_succ below)
          rwa [← Nat.add_assoc, Nat.add_right_comm] at later
      · rw [if_pos ok]
        constructor
        · exact fun wrong => absurd wrong ok
        · exact fun all => absurd (all 0 (Nat.succ_pos _)) ok

/-- Where all succeed, their effects happen in order. -/
theorem halCalls_of_ok {result : Nat → HalResult} {i : Nat} {effects : List (Fdcan → Fdcan)}
    {fdcan : Fdcan} (ok : (halCalls result i effects fdcan).1 = .ok) :
    (halCalls result i effects fdcan).2 =
      effects.foldl (fun fdcan effect => effect fdcan) fdcan := by
  induction effects generalizing i fdcan with
  | nil => rfl
  | cons effect effects ih =>
      rw [halCalls] at ok ⊢
      by_cases first : (result i).status = .ok
      · rw [if_neg (not_not_intro first)] at ok ⊢
        exact ih ok
      · rw [if_pos first] at ok
        exact absurd ok first

/-- A successful initialisation starts the peripheral and adds the two notifications. -/
theorem canInit_of_ok {result : Nat → HalResult} {fdcan : Fdcan}
    (ok : (canInit result fdcan).1 = .ok) :
    (canInit result fdcan).2.fdcan.started = true ∧
      ∀ interrupt, (canInit result fdcan).2.fdcan.notifications interrupt =
        (Fdcan.supervision interrupt || fdcan.notifications interrupt) := by
  have after := halCalls_of_ok ok
  rw [canInit, after]
  constructor
  · rfl
  · intro interrupt
    cases interrupt <;> rfl

/-- A recovery that returns `HAL_OK` leaves bus-off disabled. -/
theorem canRecoverBusOff_of_ok {result : Nat → HalResult} {can : Can}
    (ok : (canRecoverBusOff result can).1 = .ok) :
    (canRecoverBusOff result can).2.fdcan.started = true ∧
      (canRecoverBusOff result can).2.fdcan.filters = can.fdcan.filters ∧
      (canRecoverBusOff result can).2.fdcan.notifications .busOff = false := by
  have after := halCalls_of_ok ok
  rw [canRecoverBusOff, after]
  exact ⟨rfl, rfl, rfl⟩

theorem canRecoverBusOff_eq_ok_iff (result : Nat → HalResult) (can : Can) :
    (canRecoverBusOff result can).1 = .ok ↔ ∀ i < 3, (result i).status = .ok := by
  rw [canRecoverBusOff, halCalls_eq_ok_iff]
  simp

/-! ## Recovery over whole runs -/

/-- Where bus-off was enabled, a recovery restores it exactly when it does not succeed. -/
theorem restores_iff {enabled : Interrupt → Bool} (watched : enabled .busOff = true) (can : Can)
    (event : Event) : Restores enabled can event ↔ ¬event.AllSucceed := by
  cases event with
  | recover result =>
      change (_ → _) ↔ ¬∀ i < 3, (result i).status = .ok
      rw [← canRecoverBusOff_eq_ok_iff result can]
      constructor
      · intro restores ok
        have disabled := (canRecoverBusOff_of_ok ok).2.2
        rw [(restores ok).2, watched] at disabled
        cases disabled
      · exact fun failed ok => absurd ok failed
  | busOff => exact ⟨fun _ none => none, fun _ => trivial⟩
  | addFilterStandard result canIds => exact ⟨fun _ none => none, fun _ => trivial⟩
  | addFilterExtended result canIds => exact ⟨fun _ none => none, fun _ => trivial⟩
  | send freeLevel result msg => exact ⟨fun _ none => none, fun _ => trivial⟩

/-- In a run that begins with a successful `can_init`, every recovery that returns `HAL_OK`
restores the notifications exactly when there is none. -/
theorem recovery_restores_iff (fdcan : Fdcan) (result : Nat → HalResult)
    (initialised : (canInit result fdcan).1 = .ok) (events : List Event) :
    step.Always (Restores (canInit result fdcan).2.fdcan.notifications)
        (canInit result fdcan).2 events ↔
      ∀ event ∈ events, ¬event.AllSucceed := by
  have watched : (canInit result fdcan).2.fdcan.notifications .busOff = true := by
    rw [(canInit_of_ok initialised).2]
    rfl
  rw [Machine.always_iff_forall_split]
  constructor
  · intro all event member
    rcases List.append_of_mem member with ⟨before, after, split⟩
    exact (restores_iff watched _ event).mp (all before event after split)
  · intro none before event after split
    exact (restores_iff watched _ event).mpr (none event (by rw [split]; simp))

/-- The peripheral after a reset. -/
def resetFdcan : Fdcan where
  started := false
  busOff := false
  notifications _ := false
  lines _ := none
  rejectsByDefault := false
  filters := []
  txFifo := []

/-- HAL calls that succeed. -/
def succeeds (_ : Nat) : HalResult :=
  ⟨.ok, resetFdcan⟩

/-- A HAL whose second call fails. -/
def failsSecond (i : Nat) : HalResult :=
  ⟨if i = 1 then .error else .ok, resetFdcan⟩

/-- A run whose only recovery fails. -/
theorem recovery_restores_iff_example :
    step.Always (Restores (canInit succeeds resetFdcan).2.fdcan.notifications)
      (canInit succeeds resetFdcan).2 [.busOff, .recover failsSecond] := by
  apply (recovery_restores_iff resetFdcan succeeds rfl [.busOff, .recover failsSecond]).mpr
  intro event member
  rcases List.mem_pair.mp member with rfl | rfl
  · exact id
  · intro all
    cases all 1 (by decide)

/-- After a recovery that returned `HAL_OK`, the second bus-off is not signalled. -/
theorem second_bus_off_not_signalled :
    (canInit succeeds resetFdcan).1 = .ok ∧
      step.replies (canInit succeeds resetFdcan).2 [.busOff, .recover succeeds, .busOff] =
        [.signalled true, .status .ok, .signalled false] ∧
      ¬step.Always (Restores (canInit succeeds resetFdcan).2.fdcan.notifications)
        (canInit succeeds resetFdcan).2 [.busOff, .recover succeeds] := by
  refine ⟨rfl, rfl, ?_⟩
  rintro ⟨_, restores, _⟩
  have notifications := congrFun (restores rfl).2 .busOff
  cases notifications

end EmbeddedBase.Platforms.Stm32h563
