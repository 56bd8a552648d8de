import EmbeddedBase.Platforms.Hal
import EmbeddedBase.Transition.Faulting

/-!
# The CAN interface registry of the STM32G431 platform

The model of `can_struct_list` and the functions of `stm32g431/src/fdcan.c` that scan it.
Following a `NULL` pointer has no result.  Both scans look through a slot before they know
that it is filled, so the first call on the initial registry already follows `NULL`.
-/

namespace EmbeddedBase.Platforms.Stm32g431

open EmbeddedBase.Transition

/-- A pointer, or `NULL`. -/
abbrev Pointer := Option Nat

/-- The fields of `can_t` the registry uses. -/
structure Can where
  hcan : Pointer
  callback : Pointer
  deriving DecidableEq

/-- `MAX_CAN_BUS`. -/
def maxCanBus : Nat := 3

/-- The slots of `can_struct_list`. -/
abbrev CanStructList := List Pointer

/-- `can_struct_list` at first. -/
def canStructList : CanStructList :=
  List.replicate maxCanBus none

/-! ## The scans -/

/-- `find_callback`; `cans` are the `can_t` objects behind the pointers. -/
def findCallback (cans : Nat → Can) (hcan : Pointer) : CanStructList → Option Pointer
  | [] => some none
  | none :: _ => none
  | some can :: slots =>
      if hcan = (cans can).hcan then some (cans can).callback
      else findCallback cans hcan slots

/-- `add_interface`; the results `-1` and `-2` are returned as a `uint8_t`. -/
def addInterface (cans : Nat → Can) (interface : Nat) :
    CanStructList → Option (BitVec 8 × CanStructList)
  | [] => some (BitVec.ofInt 8 (-2), [])
  | none :: _ => none
  | some can :: slots =>
      if (cans interface).hcan = (cans can).hcan then
        some (BitVec.ofInt 8 (-1), some can :: slots)
      else if (cans can).hcan = none then
        some (0, some interface :: slots)
      else
        (addInterface cans interface slots).map fun result => (result.1, some can :: result.2)

/-- `HAL_FDCAN_RxFifo0Callback`: the calls of callbacks it makes, each with its argument. -/
def halFdcanRxFifo0Callback (cans : Nat → Can) (hcan : Pointer) (slots : CanStructList) :
    Option (List (Nat × Pointer)) :=
  (findCallback cans hcan slots).map fun callback =>
    match callback with
    | none => []
    | some callback => [(callback, hcan)]

/-- A `HAL_StatusTypeDef` as the `uint8_t` that `can_init` keeps it in. -/
def statusCode (status : HalStatus) : BitVec 8 :=
  match status with
  | .ok => 0
  | .error => 1
  | .busy => 2
  | .timeout => 3

/-- `can_init`; `configured` and `started` are the results of the HAL. -/
def canInit (cans : Nat → Can) (configured started : HalStatus) (can : Nat)
    (slots : CanStructList) : Option (BitVec 8 × CanStructList) :=
  if configured ≠ .ok then
    some (statusCode configured, slots)
  else if started ≠ .ok then
    some (statusCode started, slots)
  else
    addInterface cans can slots

/-! ## Runs -/

/-- A call of `can_init`, whose HAL calls succeed, or a receive event. -/
inductive Event
  | init (can : Nat)
  | receive (hcan : Pointer)
  deriving DecidableEq

/-- The status of an initialisation, or the calls of callbacks. -/
inductive Reply
  | status (code : BitVec 8)
  | calls (calls : List (Nat × Pointer))
  deriving DecidableEq

/-- One event. -/
def step (cans : Nat → Can) : Faulting CanStructList Event Reply := fun slots event =>
  match event with
  | .init can =>
      (canInit cans .ok .ok can slots).map fun outcome => (.status outcome.1, outcome.2)
  | .receive hcan =>
      (halFdcanRxFifo0Callback cans hcan slots).map fun calls => (.calls calls, slots)

/-- The handles of the interfaces initialised so far. -/
def registered (cans : Nat → Can) (before : List Event) : List Pointer :=
  before.filterMap fun event =>
    match event with
    | .init can => some (cans can).hcan
    | .receive _ => none

/-- The interface that was the first to be initialised with a handle. -/
def owner (cans : Nat → Can) (hcan : Pointer) (before : List Event) : Option Nat :=
  before.findSome? fun event =>
    match event with
    | .init can => if (cans can).hcan = hcan then some can else none
    | .receive _ => none

/-- What an event must do after the events `before` it, from a registry `slots`. -/
def Handles (cans : Nat → Can) (before : List Event) (slots : CanStructList) (event : Event)
    (reply : Reply) (slots' : CanStructList) : Prop :=
  match event with
  | .init can =>
      if (cans can).hcan ∈ registered cans before then
        (∃ code, reply = .status code ∧ code ≠ 0) ∧ slots' = slots
      else
        reply = .status 0 ∧ slots'.count (some can) = 1
  | .receive hcan =>
      slots' = slots ∧ reply = .calls
        (match (owner cans hcan before).bind fun can => (cans can).callback with
        | none => []
        | some callback => [(callback, hcan)])

/-- Every event of the run is defined and does what it must. -/
def Sound (cans : Nat → Can) (events : List Event) : Prop :=
  ∀ before event after, events = before ++ event :: after →
    ∃ slots reply slots',
      (Faulting.machine (step cans)).final (some canStructList) before = some slots ∧
      step cans slots event = some (reply, slots') ∧
      Handles cans before slots event reply slots'

/-- The first event follows `NULL`. -/
theorem step_canStructList (cans : Nat → Can) (event : Event) :
    step cans canStructList event = none := by
  cases event with
  | init can => rfl
  | receive hcan => rfl

/-- The registry is sound only while nothing is registered and nothing received. -/
theorem registry_sound_iff (cans : Nat → Can) (events : List Event) :
    Sound cans events ↔ events = [] := by
  constructor
  · intro sound
    cases events with
    | nil => rfl
    | cons event after =>
        rcases sound [] event after rfl with ⟨slots, reply, slots', reached, executed, _⟩
        cases reached
        rw [step_canStructList] at executed
        cases executed
  · rintro rfl before event after split
    cases before with
    | nil => cases split
    | cons first before => cases split

/-- The first initialisation of an interface follows `NULL`. -/
theorem first_can_init_follows_null :
    ¬Sound (fun _ => ⟨some 1, some 2⟩) [.init 0] := by
  intro sound
  rcases sound [] (.init 0) [] rfl with ⟨slots, reply, slots', reached, executed, _⟩
  cases reached
  cases executed

end EmbeddedBase.Platforms.Stm32g431
