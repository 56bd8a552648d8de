import EmbeddedBase.Data.RegisterField
import EmbeddedBase.Platforms.Hal
import EmbeddedBase.Transition.Faulting

/-!
# The MAX7314 port expander

The model of the pin operations of `max7314.c` on a chip of byte registers.  A shift by an
amount that C leaves undefined has no result.  `max7314_set_pin_mode` works on the output
registers, so wherever it is defined it does what `max7314_set_pin_state` does.
-/

namespace EmbeddedBase.General.Max7314

open EmbeddedBase.Data
open EmbeddedBase.Platforms (HalStatus)
open EmbeddedBase.Transition

/-! ## Registers -/

/-- `MAX7314_INPUT_PORTS_0_TO_7`. -/
def inputPorts0To7 : BitVec 8 := 0x00

/-- `MAX7314_INPUT_PORTS_8_TO_15`. -/
def inputPorts8To15 : BitVec 8 := 0x01

/-- `MAX7314_PHASE_0_OUTPUTS_0_7`. -/
def phase0Outputs0To7 : BitVec 8 := 0x02

/-- `MAX7314_PHASE_0_OUTPUTS_8_15`. -/
def phase0Outputs8To15 : BitVec 8 := 0x03

/-- `MAX7314_PORT_CONFIG_0_TO_7`. -/
def portConfig0To7 : BitVec 8 := 0x06

/-- `MAX7314_PORT_CONFIG_8_TO_15`. -/
def portConfig8To15 : BitVec 8 := 0x07

/-- `REG_SIZE_BITS`. -/
def regSizeBits : Int := 8

/-- The registers of the chip, at the one address byte of `I2C_MEMADD_SIZE_8BIT`. -/
abbrev Chip := BitVec 8 → BitVec 8

/-- What the HAL answers to the memory read and to the memory write of one call. -/
structure Transfers where
  reading : HalStatus
  writing : HalStatus

/-- Both transfers succeed. -/
def Transfers.successful : Transfers :=
  ⟨.ok, .ok⟩

/-- `read_reg`. -/
def readReg (transfers : Transfers) (address : BitVec 8) (chip : Chip) : HalStatus × BitVec 8 :=
  (transfers.reading, chip address)

/-- `write_reg`; a failed transfer leaves the register alone. -/
def writeReg (transfers : Transfers) (address data : BitVec 8) (chip : Chip) : HalStatus × Chip :=
  (transfers.writing,
    if transfers.writing = .ok then Function.update chip address data else chip)

/-! ## The pin operations -/

/-- The shift amount of a pin in a function that takes the pins from `boundary` on to be in the
second register. -/
def pinShift (boundary : Nat) (pin : BitVec 8) : Int :=
  if pin.toNat < boundary then pin.toNat else pin.toNat - regSizeBits

/-- A shift amount that C defines for a 32-bit operand. -/
def shiftAmount (amount : Int) : Option Nat :=
  if 0 ≤ amount ∧ amount < 32 then some amount.toNat else none

/-- `max7314_set_pin_mode`. -/
def max7314SetPinMode (transfers : Transfers) (pin mode : BitVec 8) (chip : Chip) :
    Option (HalStatus × Chip) :=
  let address := if pin.toNat < 7 then phase0Outputs0To7 else phase0Outputs8To15
  match readReg transfers address chip with
  | (.ok, confData) =>
      (shiftAmount (pinShift 7 pin)).map fun shift =>
        writeReg transfers address (replaceBit 32 confData shift mode) chip
  | (status, _) => some (status, chip)

/-- `max7314_read_pin`; the value is what is stored through `state`, on success. -/
def max7314ReadPin (transfers : Transfers) (pin : BitVec 8) (chip : Chip) :
    Option (HalStatus × Option Bool) :=
  let address := if pin.toNat < 8 then inputPorts0To7 else inputPorts8To15
  match readReg transfers address chip with
  | (.ok, pinData) =>
      (shiftAmount (pinShift 8 pin)).map fun shift =>
        (.ok, some (decide ((0 : Int) < (pinData.setWidth 32 &&& 1#32 <<< shift).toInt)))
  | (status, _) => some (status, none)

/-- `max7314_set_pin_state`; the result of the write is dropped. -/
def max7314SetPinState (transfers : Transfers) (pin : BitVec 8) (state : Bool) (chip : Chip) :
    Option (HalStatus × Chip) :=
  let reg := if 7 < pin.toNat then phase0Outputs0To7 + 1 else phase0Outputs0To7
  let pinState : BitVec 8 := if state then 1 else 0
  match readReg transfers reg chip with
  | (.ok, pinData) =>
      (shiftAmount (pinShift 8 pin)).map fun shift =>
        (.ok, (writeReg transfers reg (replaceBit 32 pinData shift pinState) chip).2)
  | (status, _) => some (status, chip)

/-- A call that returns an error has left the chip alone. -/
theorem max7314SetPinMode_failure {transfers : Transfers} {pin mode : BitVec 8}
    {chip chip' : Chip} {status : HalStatus} (failed : status ≠ .ok)
    (result : max7314SetPinMode transfers pin mode chip = some (status, chip')) :
    chip' = chip := by
  simp only [max7314SetPinMode, readReg] at result
  split at result
  · rcases Option.map_eq_some_iff.mp result with ⟨shift, -, written⟩
    cases written
    exact if_neg failed
  · cases result
    rfl

/-! ## Pins and their bits -/

/-- The bit of a pin in the register at `base` or in the one after it. -/
def pinBit (chip : Chip) (base : BitVec 8) (pin : Nat) : Bool :=
  (chip (base + BitVec.ofNat 8 (pin / 8))).getLsbD (pin % 8)

/-- The chip with a new value in the output bit of a pin. -/
def assign (chip : Chip) (pin : Nat) (value : Bool) : Chip :=
  let address := phase0Outputs0To7 + BitVec.ofNat 8 (pin / 8)
  Function.update chip address
    (replaceBit 32 (chip address) (pin % 8) (if value then 1 else 0))

theorem pinShift_eight {pin : BitVec 8} (inside : pin.toNat < 16) :
    pinShift 8 pin = (pin.toNat % 8 : Nat) := by
  rw [pinShift, regSizeBits]
  split <;> omega

theorem pinShift_seven {pin : BitVec 8} (inside : pin.toNat < 16) (other : pin.toNat ≠ 7) :
    pinShift 7 pin = (pin.toNat % 8 : Nat) := by
  rw [pinShift, regSizeBits]
  split <;> omega

theorem shiftAmount_mod_eight (pin : Nat) : shiftAmount (pin % 8 : Nat) = some (pin % 8) := by
  rw [shiftAmount, if_pos (by omega), Int.toNat_natCast]

theorem div_eight {pin : Nat} (inside : pin < 16) : pin / 8 = if pin < 8 then 0 else 1 := by
  split <;> omega

/-- `max7314_read_pin` selects the bit of the pin. -/
theorem max7314ReadPin_eq (chip : Chip) {pin : BitVec 8} (inside : pin.toNat < 16) :
    max7314ReadPin .successful pin chip =
      some (.ok, some (pinBit chip inputPorts0To7 pin.toNat)) := by
  have address : (if pin.toNat < 8 then inputPorts0To7 else inputPorts8To15) =
      inputPorts0To7 + BitVec.ofNat 8 (pin.toNat / 8) := by
    rw [div_eight inside]
    split <;> rfl
  have small : pin.toNat % 8 < 8 := Nat.mod_lt _ (by decide)
  simp only [max7314ReadPin, readReg, Transfers.successful, pinShift_eight inside,
    shiftAmount_mod_eight, Option.map_some, address, pinBit]
  congr 3
  rw [Bool.eq_iff_iff, decide_eq_true_iff]
  exact toInt_and_one_shiftLeft_pos (by decide) _ small

theorem eq_ite_of_le_one {mode : BitVec 8} (single : mode.toNat ≤ 1) :
    mode = if mode.getLsbD 0 then 1 else 0 := by
  rcases Nat.le_one_iff_eq_zero_or_eq_one.mp single with zero | one
  · rw [BitVec.eq_of_toNat_eq (y := 0) zero]
    rfl
  · rw [BitVec.eq_of_toNat_eq (y := 1) one]
    rfl

/-- `max7314_set_pin_state` assigns the output bit of the pin. -/
theorem max7314SetPinState_eq (chip : Chip) (state : Bool) {pin : BitVec 8}
    (inside : pin.toNat < 16) :
    max7314SetPinState .successful pin state chip =
      some (.ok, assign chip pin.toNat state) := by
  have address : (if 7 < pin.toNat then phase0Outputs0To7 + 1 else phase0Outputs0To7) =
      phase0Outputs0To7 + BitVec.ofNat 8 (pin.toNat / 8) := by
    rw [div_eight inside]
    by_cases low : pin.toNat < 8
    · rw [if_pos low, if_neg (by omega)]
      rfl
    · rw [if_neg low, if_pos (by omega)]
      rfl
  simp only [max7314SetPinState, readReg, writeReg, Transfers.successful, pinShift_eight inside,
    shiftAmount_mod_eight, Option.map_some, address, assign, if_true]

/-- `max7314_set_pin_mode` assigns the output bit of the pin too. -/
theorem max7314SetPinMode_eq (chip : Chip) {pin mode : BitVec 8} (inside : pin.toNat < 16)
    (single : mode.toNat ≤ 1) (other : pin.toNat ≠ 7) :
    max7314SetPinMode .successful pin mode chip =
      some (.ok, assign chip pin.toNat (mode.getLsbD 0)) := by
  have address : (if pin.toNat < 7 then phase0Outputs0To7 else phase0Outputs8To15) =
      phase0Outputs0To7 + BitVec.ofNat 8 (pin.toNat / 8) := by
    rw [div_eight inside]
    by_cases low : pin.toNat < 8
    · rw [if_pos low, if_pos (by omega)]
      rfl
    · rw [if_neg low, if_neg (by omega)]
      rfl
  simp only [max7314SetPinMode, readReg, writeReg, Transfers.successful,
    pinShift_seven inside other, shiftAmount_mod_eight, Option.map_some, address, assign, if_true]
  rw [← eq_ite_of_le_one single]

/-- For pin 7 it shifts by a negative amount. -/
theorem max7314SetPinMode_seven (chip : Chip) {pin : BitVec 8} (mode : BitVec 8)
    (seven : pin.toNat = 7) : max7314SetPinMode .successful pin mode chip = none := by
  have negative : pinShift 7 pin = -1 := by
    rw [pinShift, seven]
    rfl
  simp only [max7314SetPinMode, readReg, Transfers.successful, negative]
  rfl

/-! ## Assigning an output bit -/

/-- Only the output bit of the assigned pin changes. -/
theorem pinBit_assign (chip : Chip) (value : Bool) {pin other : Nat} (inside : pin < 16)
    (inside' : other < 16) :
    pinBit (assign chip pin value) phase0Outputs0To7 other =
      if other = pin then value else pinBit chip phase0Outputs0To7 other := by
  have small : pin % 8 < 8 := Nat.mod_lt _ (by decide)
  have small' : other % 8 < 8 := Nat.mod_lt _ (by decide)
  have single : (if value then (1 : BitVec 8) else 0).toNat ≤ 1 := by
    cases value <;> decide
  rw [pinBit, pinBit, assign]
  by_cases port : other / 8 = pin / 8
  · rw [port, Function.update_self, getLsbD_replaceBit (by decide) _ single small small']
    have here : other % 8 = pin % 8 ↔ other = pin := by omega
    by_cases same : other = pin
    · rw [if_pos same, if_pos (here.mpr same)]
      cases value <;> rfl
    · rw [if_neg same, if_neg (mt here.mp same)]
  · have different : phase0Outputs0To7 + BitVec.ofNat 8 (other / 8) ≠
        phase0Outputs0To7 + BitVec.ofNat 8 (pin / 8) := by
      rw [div_eight inside, div_eight inside'] at port ⊢
      split <;> split <;> first | decide | simp_all
    have apart : other ≠ pin := fun same => port (by rw [same])
    rw [Function.update_of_ne different, if_neg apart]

/-- No other register changes. -/
theorem assign_of_ne (chip : Chip) (value : Bool) {pin : Nat} (inside : pin < 16)
    {address : BitVec 8} (first : address ≠ phase0Outputs0To7)
    (second : address ≠ phase0Outputs8To15) : assign chip pin value address = chip address := by
  rw [assign, div_eight inside]
  apply Function.update_of_ne
  split
  · exact first
  · exact second

theorem pinBit_assign_config (chip : Chip) (value : Bool) {pin other : Nat} (inside : pin < 16)
    (inside' : other < 16) :
    pinBit (assign chip pin value) portConfig0To7 other = pinBit chip portConfig0To7 other := by
  rw [pinBit, pinBit, div_eight inside', assign_of_ne chip value inside]
  · split <;> decide
  · split <;> decide

/-- A chip is its output bits and its other registers. -/
theorem eq_of_outputs {chip chip' : Chip}
    (outputs : ∀ pin < 16,
      pinBit chip phase0Outputs0To7 pin = pinBit chip' phase0Outputs0To7 pin)
    (others : ∀ address, address ≠ phase0Outputs0To7 → address ≠ phase0Outputs8To15 →
      chip address = chip' address) : chip = chip' := by
  funext address
  by_cases first : address = phase0Outputs0To7
  · subst first
    apply BitVec.eq_of_getLsbD_eq
    intro i small
    have bit := outputs i (by omega)
    rwa [pinBit, pinBit, Nat.div_eq_of_lt small, Nat.mod_eq_of_lt small] at bit
  · by_cases second : address = phase0Outputs8To15
    · subst second
      apply BitVec.eq_of_getLsbD_eq
      intro i small
      have bit := outputs (i + 8) (by omega)
      rwa [pinBit, pinBit, Nat.add_div_right i (by decide), Nat.div_eq_of_lt small,
        Nat.add_mod_right, Nat.mod_eq_of_lt small] at bit
    · exact others address first second

theorem assign_comm (chip : Chip) (value value' : Bool) {pin pin' : Nat} (inside : pin < 16)
    (inside' : pin' < 16) (different : pin ≠ pin') :
    assign (assign chip pin value) pin' value' = assign (assign chip pin' value') pin value := by
  apply eq_of_outputs
  · intro other within
    rw [pinBit_assign _ _ inside' within, pinBit_assign _ _ inside within,
      pinBit_assign _ _ inside within, pinBit_assign _ _ inside' within]
    by_cases here : other = pin
    · rw [if_neg (fun there => different (here.symm.trans there)), if_pos here, if_pos here]
    · rw [if_neg here, if_neg here]
  · intro address first second
    rw [assign_of_ne _ _ inside' first second, assign_of_ne _ _ inside first second,
      assign_of_ne _ _ inside first second, assign_of_ne _ _ inside' first second]

/-! ## Sequences of operations -/

/-- A call of `max7314_set_pin_mode` or of `max7314_set_pin_state`. -/
inductive Operation where
  | setPinMode (pin mode : BitVec 8)
  | setPinState (pin : BitVec 8) (state : Bool)
  deriving DecidableEq

namespace Operation

/-- The addressed pin. -/
def pin : Operation → BitVec 8
  | setPinMode pin _ => pin
  | setPinState pin _ => pin

/-- The bit to be written. -/
def value : Operation → Bool
  | setPinMode _ mode => mode.getLsbD 0
  | setPinState _ state => state

/-- The amount the operation shifts by. -/
def shift : Operation → Int
  | setPinMode pin _ => pinShift 7 pin
  | setPinState pin _ => pinShift 8 pin

/-- A pin of the chip, and mode 0 or 1. -/
def Admissible : Operation → Prop
  | setPinMode pin mode => pin.toNat < 16 ∧ mode.toNat ≤ 1
  | setPinState pin _ => pin.toNat < 16

/-- Different pins, or the mode and the state of a pin. -/
def Independent : Operation → Operation → Prop
  | setPinMode pin _, setPinMode pin' _ => pin ≠ pin'
  | setPinState pin _, setPinState pin' _ => pin ≠ pin'
  | _, _ => True

/-- The mode an operation sets for a pin. -/
def modeSet (pin : Nat) : Operation → Option Bool
  | setPinMode pin' mode => if pin'.toNat = pin then some (mode.getLsbD 0) else none
  | setPinState _ _ => none

/-- The state an operation sets for a pin. -/
def stateSet (pin : Nat) : Operation → Option Bool
  | setPinMode _ _ => none
  | setPinState pin' state => if pin'.toNat = pin then some state else none

theorem Admissible.inside {operation : Operation} (admissible : operation.Admissible) :
    operation.pin.toNat < 16 := by
  cases operation with
  | setPinMode => exact admissible.1
  | setPinState => exact admissible

end Operation

/-- One operation. -/
def execute (transfers : Transfers) : Faulting Chip Operation HalStatus :=
  fun chip operation =>
    match operation with
    | .setPinMode pin mode => max7314SetPinMode transfers pin mode chip
    | .setPinState pin state => max7314SetPinState transfers pin state chip

/-- Operations with successful transfers. -/
abbrev pins : Machine (Option Chip) Operation (Option HalStatus) :=
  (execute .successful).machine

theorem execute_eq (chip : Chip) {operation : Operation} (admissible : operation.Admissible)
    (shiftable : 0 ≤ operation.shift) :
    execute .successful chip operation =
      some (.ok, assign chip operation.pin.toNat operation.value) := by
  cases operation with
  | setPinMode pin mode =>
      apply max7314SetPinMode_eq chip admissible.1 admissible.2
      intro seven
      rw [Operation.shift, pinShift, seven] at shiftable
      exact absurd shiftable (by decide)
  | setPinState pin state => exact max7314SetPinState_eq chip state admissible

theorem final_pair (chip : Chip) {first second : Operation} (admissible : first.Admissible)
    (admissible' : second.Admissible) (shiftable : 0 ≤ first.shift)
    (shiftable' : 0 ≤ second.shift) :
    pins.final (some chip) [first, second] =
      some (assign (assign chip first.pin.toNat first.value) second.pin.toNat second.value) := by
  rw [pins, Machine.final_cons,
    Faulting.machine_of_eq_some (execute_eq _ admissible shiftable),
    Machine.final_cons, Faulting.machine_of_eq_some (execute_eq _ admissible' shiftable'),
    Machine.final_nil]

/-- Configuration and output bits are the ones last set, and every other register is as it
was. -/
structure LastSet (initial : Chip) (history : List Operation) (chip : Chip) : Prop where
  modes : ∀ pin < 16, pinBit chip portConfig0To7 pin =
    (lastSome (Operation.modeSet pin) history).getD (pinBit initial portConfig0To7 pin)
  states : ∀ pin < 16, pinBit chip phase0Outputs0To7 pin =
    (lastSome (Operation.stateSet pin) history).getD (pinBit initial phase0Outputs0To7 pin)
  others : ∀ address, address ≠ phase0Outputs0To7 → address ≠ phase0Outputs8To15 →
    address ≠ portConfig0To7 → address ≠ portConfig8To15 → chip address = initial address

/-- The run of a call sequence acts on one pin of one register at a time. -/
structure ActsOnOnePin (initial : Chip) (calls : List Operation) : Prop where
  lastSet : ∀ before after, calls = before ++ after → ∃ chip,
    pins.final (some initial) before = some chip ∧ LastSet initial before chip
  shifts : ∀ call ∈ calls, 0 ≤ call.shift ∧ call.shift ≤ 7
  reads : ∀ chip, pins.final (some initial) calls = some chip →
    ∀ pin : BitVec 8, pin.toNat < 16 →
      max7314ReadPin .successful pin chip =
        some (.ok, some (pinBit chip inputPorts0To7 pin.toNat))
  commute : ∀ before first second after, calls = before ++ first :: second :: after →
    first.Independent second →
    pins.final (some initial) (before ++ [first, second]) =
      pins.final (some initial) (before ++ [second, first])

/-- The calls that do no harm: a mode call that finds the configuration bit and the output bit
of its pin as it wants them, for a pin other than 7. -/
def Harmless (chip : Chip) : Operation → Prop
  | .setPinMode pin mode => pin.toNat ≠ 7 ∧
      pinBit chip portConfig0To7 pin.toNat = mode.getLsbD 0 ∧
      pinBit chip phase0Outputs0To7 pin.toNat = mode.getLsbD 0
  | .setPinState _ _ => True

/-- A mode call is not followed at once by a call that sets another state of its pin. -/
def Operation.Agrees : Operation → Operation → Prop
  | setPinMode pin mode, setPinState pin' state => pin = pin' → state = mode.getLsbD 0
  | _, _ => True

theorem Harmless.shift {chip : Chip} {operation : Operation} (harmless : Harmless chip operation)
    (admissible : operation.Admissible) : 0 ≤ operation.shift ∧ operation.shift ≤ 7 := by
  cases operation with
  | setPinMode pin mode =>
      rw [Operation.shift, pinShift_seven admissible.1 harmless.1]
      omega
  | setPinState pin state =>
      rw [Operation.shift, pinShift_eight admissible]
      omega

/-- A harmless call keeps the bits as they were last set. -/
theorem LastSet.assign {initial chip : Chip} {history : List Operation}
    (held : LastSet initial history chip) {operation : Operation}
    (admissible : operation.Admissible) (harmless : Harmless chip operation) :
    LastSet initial (history ++ [operation])
      (assign chip operation.pin.toNat operation.value) where
  modes := by
    intro pin within
    rw [pinBit_assign_config _ _ admissible.inside within, lastSome_append_singleton]
    cases operation with
    | setPinMode pin' mode =>
        rw [Operation.modeSet]
        by_cases here : pin'.toNat = pin
        · rw [if_pos here, ← here, harmless.2.1]
          rfl
        · rw [if_neg here]
          exact held.modes pin within
    | setPinState pin' state => exact held.modes pin within
  states := by
    intro pin within
    rw [pinBit_assign _ _ admissible.inside within, lastSome_append_singleton]
    cases operation with
    | setPinMode pin' mode =>
        by_cases here : pin = pin'.toNat
        · subst here
          rw [Operation.pin, if_pos rfl, Operation.value, ← harmless.2.2]
          exact held.states _ within
        · rw [Operation.pin, if_neg here]
          exact held.states pin within
    | setPinState pin' state =>
        rw [Operation.stateSet]
        by_cases here : pin = pin'.toNat
        · rw [Operation.pin, if_pos here, if_pos here.symm]
          rfl
        · rw [Operation.pin, if_neg here, if_neg (Ne.symm here)]
          exact held.states pin within
  others := by
    intro address output output' config config'
    rw [assign_of_ne _ _ admissible.inside output output',
      held.others address output output' config config']

theorem harmless_keeps (initial : Chip) (history : List Operation) (chip : Chip)
    (operation : Operation) (held : LastSet initial history chip)
    (admissible : operation.Admissible) (harmless : Harmless chip operation) :
    ∃ reply chip', execute .successful chip operation = some (reply, chip') ∧
      LastSet initial (history ++ [operation]) chip' :=
  ⟨.ok, _, execute_eq chip admissible (harmless.shift admissible).1,
    held.assign admissible harmless⟩

/-- Any other call that is defined leaves a bit that is not as it was last set. -/
theorem not_lastSet_of_not_harmless (initial : Chip) (history : List Operation) (chip : Chip)
    (operation : Operation) (reply : HalStatus) (chip' : Chip)
    (held : LastSet initial history chip) (admissible : operation.Admissible)
    (harmful : ¬Harmless chip operation)
    (step : execute .successful chip operation = some (reply, chip')) :
    ¬LastSet initial (history ++ [operation]) chip' := by
  intro after
  cases operation with
  | setPinState pin state => exact harmful trivial
  | setPinMode pin mode =>
      by_cases seven : pin.toNat = 7
      · rw [execute, max7314SetPinMode_seven chip mode seven] at step
        cases step
      · rw [execute, max7314SetPinMode_eq chip admissible.1 admissible.2 seven] at step
        cases step
        have inside := admissible.1
        have config := after.modes _ inside
        rw [pinBit_assign_config _ _ inside inside, lastSome_append_singleton, Operation.modeSet,
          if_pos rfl] at config
        have output := after.states _ inside
        rw [pinBit_assign _ _ inside inside, if_pos rfl, lastSome_append_singleton,
          Operation.stateSet, Option.none_or, ← held.states _ inside] at output
        exact harmful ⟨seven, config, output.symm⟩

/-- Two independent harmless calls commute when they agree. -/
theorem final_pair_comm {chip : Chip} {first second : Operation}
    (admissible : first.Admissible) (admissible' : second.Admissible)
    (independent : first.Independent second) (agrees : first.Agrees second)
    (harmless : Harmless chip first)
    (harmless' : Harmless (assign chip first.pin.toNat first.value) second) :
    pins.final (some chip) [first, second] = pins.final (some chip) [second, first] := by
  have inside := admissible.inside
  have inside' := admissible'.inside
  have defined := (harmless.shift admissible).1
  have defined' := (harmless'.shift admissible').1
  rw [final_pair chip admissible admissible' defined defined',
    final_pair chip admissible' admissible defined' defined]
  by_cases same : first.pin = second.pin
  · have equal : first.value = second.value := by
      cases first with
      | setPinMode pin mode =>
          cases second with
          | setPinMode pin' mode' => exact absurd same independent
          | setPinState pin' state => exact (agrees same).symm
      | setPinState pin state =>
          cases second with
          | setPinMode pin' mode =>
              have output := harmless'.2.2
              change pin = pin' at same
              subst same
              have written := pinBit_assign chip state inside inside
              rw [if_pos rfl] at written
              exact written.symm.trans output
          | setPinState pin' state' => exact absurd same independent
    rw [same, equal]
  · have different : first.pin.toNat ≠ second.pin.toNat := fun equal =>
      same (BitVec.eq_of_toNat_eq equal)
    rw [assign_comm _ _ _ inside inside' different]

/-- Within a run of harmless calls, adjacent independent calls that agree commute. -/
theorem commute_of_always {initial : Chip} {calls : List Operation}
    (admissible : ∀ call ∈ calls, call.Admissible)
    (always : pins.Always (Faulting.Lift Harmless) (some initial) calls)
    {before after : List Operation} {first second : Operation}
    (split : calls = before ++ first :: second :: after) {chip : Chip}
    (reached : pins.final (some initial) before = some chip)
    (independent : first.Independent second) (agrees : first.Agrees second) :
    pins.final (some initial) (before ++ [first, second]) =
      pins.final (some initial) (before ++ [second, first]) := by
  subst split
  have admissible' : first.Admissible := admissible first (by simp)
  have admissible'' : second.Admissible := admissible second (by simp)
  have rest := ((Machine.always_append _ _ _ _ _).mp always).2
  rw [reached] at rest
  have harmless : Harmless chip first := rest.1 chip rfl
  have step : pins (some chip) first =
      (some .ok, some (assign chip first.pin.toNat first.value)) :=
    Faulting.machine_of_eq_some
      (execute_eq chip admissible' (harmless.shift admissible').1)
  have next := rest.2.1
  rw [step] at next
  rw [Machine.final_append, Machine.final_append, reached]
  exact final_pair_comm admissible' admissible'' independent agrees harmless (next _ rfl)

/-- Where they commute, a mode call and the state call after it agree. -/
theorem agrees_of_commute {chip : Chip} {first second : Operation}
    (admissible : first.Admissible) (admissible' : second.Admissible)
    (shiftable : 0 ≤ first.shift) (shiftable' : 0 ≤ second.shift)
    (commute : first.Independent second →
      pins.final (some chip) [first, second] = pins.final (some chip) [second, first]) :
    first.Agrees second := by
  cases first with
  | setPinState pin state => trivial
  | setPinMode pin mode =>
      cases second with
      | setPinMode pin' mode' => trivial
      | setPinState pin' state =>
          rintro rfl
          have swapped := commute trivial
          rw [final_pair chip admissible admissible' shiftable shiftable',
            final_pair chip admissible' admissible shiftable' shiftable] at swapped
          have output := congrArg (fun chip => pinBit chip phase0Outputs0To7 pin.toNat)
            (Option.some.inj swapped)
          simp only [Operation.pin, pinBit_assign _ _ admissible.1 admissible.1] at output
          exact output

/-- The operations act on one pin of one register exactly in the runs whose mode calls all find
their bits set already, none of them for pin 7 or followed at once by another state of its
pin. -/
theorem acts_on_one_pin_iff (initial : Chip) (calls : List Operation)
    (admissible : ∀ call ∈ calls, call.Admissible) :
    ActsOnOnePin initial calls ↔
      pins.Always (Faulting.Lift Harmless) (some initial) calls ∧
        ∀ before first second after, calls = before ++ first :: second :: after →
          first.Agrees second := by
  have start : LastSet initial [] initial :=
    ⟨fun _ _ => rfl, fun _ _ => rfl, fun _ _ _ _ _ => rfl⟩
  have exact_runs := Faulting.forall_prefix_iff_always (harmless_keeps initial)
    (fun _ _ held => held) (not_lastSet_of_not_harmless initial) start admissible
  constructor
  · intro acts
    refine ⟨exact_runs.mp acts.lastSet, ?_⟩
    intro before first second after split
    rcases acts.lastSet before _ split with ⟨chip, reached, -⟩
    have commute := acts.commute before first second after split
    rw [Machine.final_append, Machine.final_append, reached] at commute
    have inside : first ∈ calls := by simp [split]
    have inside' : second ∈ calls := by simp [split]
    exact agrees_of_commute (admissible _ inside) (admissible _ inside')
      (acts.shifts _ inside).1 (acts.shifts _ inside').1 commute
  · rintro ⟨always, agree⟩
    have lastSet := exact_runs.mpr always
    constructor
    · exact lastSet
    · intro call member
      rcases List.append_of_mem member with ⟨before, after, split⟩
      rcases lastSet before _ split with ⟨chip, reached, -⟩
      have harmless := Machine.always_iff_forall_split.mp always before call after split chip
        reached
      exact harmless.shift (admissible call member)
    · intro chip _ pin inside
      exact max7314ReadPin_eq chip inside
    · intro before first second after split independent
      rcases lastSet before _ split with ⟨chip, reached, -⟩
      exact commute_of_always admissible always split reached independent
        (agree before first second after split)

/-- A run with a harmless mode call. -/
theorem acts_on_one_pin_iff_example :
    ActsOnOnePin (fun address => if address = 0x06 then 0x08 else 0)
      [.setPinState 3 true, .setPinMode 3 1] := by
  apply (acts_on_one_pin_iff _ _ ?_).mpr
  · constructor
    · refine ⟨fun _ _ => trivial, ?_, trivial⟩
      intro chip equal
      cases equal
      exact ⟨by decide, by decide, by decide⟩
    · intro before first second after split
      cases before with
      | nil =>
          cases split
          trivial
      | cons call before =>
          have length := congrArg List.length split
          simp only [List.length_cons, List.length_append, List.length_nil] at length
          omega
  · intro call member
    rcases List.mem_pair.mp member with rfl | rfl
    · exact (by decide : (3 : BitVec 8).toNat < 16)
    · exact ⟨by decide, by decide⟩

/-- A mode call sets an output bit in place of a configuration bit, and for pin 7 it is
undefined. -/
theorem set_pin_mode_corrupts :
    ¬ActsOnOnePin (fun _ => 0) [.setPinMode 0 1] ∧
      ¬ActsOnOnePin (fun _ => 0) [.setPinMode 7 0] := by
  constructor
  · intro acts
    rcases acts.lastSet [.setPinMode 0 1] [] rfl with ⟨chip, reached, held⟩
    cases reached
    exact absurd (held.modes 0 (by decide)) (by decide)
  · intro acts
    rcases acts.lastSet [.setPinMode 7 0] [] rfl with ⟨chip, reached, -⟩
    cases reached

end EmbeddedBase.General.Max7314
