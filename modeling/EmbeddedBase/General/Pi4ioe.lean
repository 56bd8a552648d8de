import EmbeddedBase.Data.RegisterField
import EmbeddedBase.Platforms.Hal
import EmbeddedBase.Transition.Faulting

/-!
# The PI4IOE port expander

The model of `pi4ioe.c`: two shadow bytes and the buffers handed to the HAL.  A write only
sets bits of a shadow, and a device of the second port is shifted out of its byte.
-/

namespace EmbeddedBase.General.Pi4ioe

open EmbeddedBase.Data
open EmbeddedBase.Platforms (HalStatus)
open EmbeddedBase.Transition

/-! ## The driver -/

/-- `PI4IOE_I2C_ADDR`. -/
def pi4ioeI2cAddr : BitVec 16 := 0x20

/-- `IO_CONFIG_REG`. -/
def ioConfigReg : BitVec 8 := 0x06

/-- `IO_CONFIG_BUF`. -/
def ioConfigBuf : BitVec 8 := 0x10

/-- `OUTPUT0_REG`. -/
def output0Reg : BitVec 8 := 0x02

/-- `OUTPUT1_REG`. -/
def output1Reg : BitVec 8 := 0x03

/-- One call of `HAL_I2C_Master_Transmit`. -/
structure Transmission where
  devAddress : BitVec 16
  buf : List (BitVec 8)
  deriving DecidableEq

/-- The two shadow bytes, and what has been sent. -/
structure Driver where
  oreg1Data : BitVec 8
  oreg2Data : BitVec 8
  sent : List Transmission
  deriving DecidableEq

/-- The driver after one more transmission. -/
def Driver.transmit (driver : Driver) (buf : List (BitVec 8)) : Driver :=
  { driver with sent := driver.sent ++ [⟨pi4ioeI2cAddr, buf⟩] }

/-- `pi4ioe_init`; `status` is the answer of the HAL. -/
def pi4ioeInit (status : HalStatus) (driver : Driver) : HalStatus × Driver :=
  (status, { driver with oreg1Data := 0, oreg2Data := 0 }.transmit [ioConfigReg, ioConfigBuf])

/-- `*oreg_data | val << device`, back in a byte. -/
def merged (oregData val device : BitVec 8) : BitVec 8 :=
  (oregData.setWidth 32 ||| val.setWidth 32 <<< device.toNat).setWidth 8

/-- The merged byte; C leaves shifts by 32 or more undefined. -/
def orShifted (oregData val device : BitVec 8) : Option (BitVec 8) :=
  if device.toNat < 32 then some (merged oregData val device) else none

/-- `pi4ioe_write`; `status` is the answer of the HAL. -/
def pi4ioeWrite (status : HalStatus) (device val : BitVec 8) (driver : Driver) :
    Option (HalStatus × Driver) :=
  if 7 < device.toNat then
    (orShifted driver.oreg1Data val device).map fun data =>
      (status, { driver with oreg1Data := data }.transmit [output1Reg, data])
  else
    (orShifted driver.oreg2Data val device).map fun data =>
      (status, { driver with oreg2Data := data }.transmit [output0Reg, data])

/-! ## Output bits -/

/-- The output register of a device. -/
def outputReg (device : Nat) : BitVec 8 :=
  if device < 8 then output0Reg else output1Reg

/-- The shadow byte the driver uses for a device. -/
def Driver.shadow (driver : Driver) (device : Nat) : BitVec 8 :=
  if device < 8 then driver.oreg2Data else driver.oreg1Data

/-- The driver after it has stored a byte in the shadow of a device and sent it. -/
def Driver.put (driver : Driver) (device : Nat) (data : BitVec 8) : Driver :=
  if device < 8 then
    { driver with oreg2Data := data }.transmit [output0Reg, data]
  else
    { driver with oreg1Data := data }.transmit [output1Reg, data]

/-- The byte a transmission sends to a register. -/
def sentTo (register : BitVec 8) (transmission : Transmission) : Option (BitVec 8) :=
  match transmission.buf with
  | [reg, data] => if reg = register then some data else none
  | _ => none

/-- The last byte sent to a register. -/
def Driver.lastSent (driver : Driver) (register : BitVec 8) : Option (BitVec 8) :=
  lastSome (sentTo register) driver.sent

theorem outputReg_eq_iff {device other : Nat} :
    outputReg other = outputReg device ↔ (other < 8 ↔ device < 8) := by
  rw [outputReg, outputReg]
  by_cases low : device < 8
  · by_cases low' : other < 8
    · simp [low, low']
    · simp [low, low', output0Reg, output1Reg]
  · by_cases low' : other < 8
    · simp [low, low', output0Reg, output1Reg]
    · simp [low, low']

theorem shadow_put (driver : Driver) (device other : Nat) (data : BitVec 8) :
    (driver.put device data).shadow other =
      if outputReg other = outputReg device then data else driver.shadow other := by
  rw [Driver.shadow, Driver.shadow, Driver.put]
  by_cases low : device < 8
  · by_cases low' : other < 8
    · simp [outputReg_eq_iff, low, low', Driver.transmit]
    · simp [outputReg_eq_iff, low, low', Driver.transmit]
  · by_cases low' : other < 8
    · simp [outputReg_eq_iff, low, low', Driver.transmit]
    · simp [outputReg_eq_iff, low, low', Driver.transmit]

theorem lastSent_put (driver : Driver) (device : Nat) (data register : BitVec 8) :
    (driver.put device data).lastSent register =
      if outputReg device = register then some data else driver.lastSent register := by
  rw [Driver.lastSent, Driver.put, outputReg]
  by_cases low : device < 8
  · rw [if_pos low, if_pos low, Driver.transmit, lastSome_append_singleton, sentTo]
    by_cases here : output0Reg = register
    · simp [here]
    · simp [here, Driver.lastSent]
  · rw [if_neg low, if_neg low, Driver.transmit, lastSome_append_singleton, sentTo]
    by_cases here : output1Reg = register
    · simp [here]
    · simp [here, Driver.lastSent]

theorem pi4ioeWrite_eq (status : HalStatus) {device : BitVec 8} (val : BitVec 8)
    (driver : Driver) (inside : device.toNat < 16) :
    pi4ioeWrite status device val driver = some (status,
      driver.put device.toNat (merged (driver.shadow device.toNat) val device)) := by
  have shiftable : device.toNat < 32 := by omega
  rw [pi4ioeWrite, orShifted, orShifted, if_pos shiftable, if_pos shiftable, Driver.put,
    Driver.shadow]
  by_cases low : device.toNat < 8
  · rw [if_neg (by omega), if_pos low, if_pos low]
    rfl
  · rw [if_pos (by omega), if_neg low, if_neg low]
    rfl

/-- Only the bit of the device can be set, and only one of the first port. -/
theorem getLsbD_merged (oregData : BitVec 8) {val : BitVec 8} (device : BitVec 8) {i : Nat}
    (single : val.toNat ≤ 1) (below : i < 8) :
    (merged oregData val device).getLsbD i =
      (oregData.getLsbD i || (decide (i = device.toNat) && val.getLsbD 0)) := by
  have inWord : i < 32 := by omega
  rw [merged, BitVec.getLsbD_setWidth, BitVec.getLsbD_or, getLsbD_single_shiftLeft single inWord,
    BitVec.getLsbD_setWidth, decide_eq_true below, decide_eq_true inWord, Bool.true_and,
    Bool.true_and]

/-! ## Sequences of writes -/

/-- A call of `pi4ioe_write`, with the answer of the HAL. -/
structure Write where
  device : BitVec 8
  val : BitVec 8
  status : HalStatus
  deriving DecidableEq

namespace Write

/-- A device of the chip, and value 0 or 1. -/
def Admissible (call : Write) : Prop :=
  call.device.toNat < 16 ∧ call.val.toNat ≤ 1

/-- The value a call writes for a device. -/
def valFor (device : Nat) (call : Write) : Option Bool :=
  if call.device.toNat = device then some (call.val.getLsbD 0) else none

end Write

/-- One write. -/
def execute : Faulting Driver Write HalStatus :=
  fun driver call => pi4ioeWrite call.status call.device call.val driver

/-- The driver after one write. -/
def written (driver : Driver) (call : Write) : Driver :=
  driver.put call.device.toNat
    (merged (driver.shadow call.device.toNat) call.val call.device)

/-- Sequences of writes. -/
abbrev writes : Machine (Option Driver) Write (Option HalStatus) :=
  execute.machine

theorem execute_eq (driver : Driver) {call : Write} (admissible : call.Admissible) :
    execute driver call = some (call.status, written driver call) :=
  pi4ioeWrite_eq call.status call.val driver admissible.1

/-- The value last written for a device, 0 if there is none. -/
def requested (device : Nat) (history : List Write) : Bool :=
  (lastSome (Write.valFor device) history).getD false

@[simp]
theorem requested_append_singleton (device : Nat) (history : List Write) (call : Write) :
    requested device (history ++ [call]) =
      if call.device.toNat = device then call.val.getLsbD 0 else requested device history := by
  rw [requested, lastSome_append_singleton, Write.valFor]
  by_cases here : call.device.toNat = device
  · simp [here]
  · simp [here, requested]

/-- The bytes last sent hold the values last written; every port written to has one. -/
structure Shows (history : List Write) (driver : Driver) : Prop where
  sent : ∀ call ∈ history, (driver.lastSent (outputReg call.device.toNat)).isSome
  bits : ∀ device < 16, ∀ byte, driver.lastSent (outputReg device) = some byte →
    byte.getLsbD (device % 8) = requested device history

/-- A run in which the outputs are always the values last written, and a write changes the
output of its own device only. -/
structure OutputsShadowed (initial : Driver) (calls : List Write) : Prop where
  shows : ∀ before after, calls = before ++ after → ∃ driver,
    writes.final (some initial) before = some driver ∧ Shows before driver
  isolated : ∀ before call after, calls = before ++ call :: after → ∃ driver driver',
    writes.final (some initial) before = some driver ∧
      writes.final (some initial) (before ++ [call]) = some driver' ∧
      ∀ device < 16, device ≠ call.device.toNat → ∀ byte byte',
        driver.lastSent (outputReg device) = some byte →
        driver'.lastSent (outputReg device) = some byte' →
        byte'.getLsbD (device % 8) = byte.getLsbD (device % 8)

/-- The writes that do no harm: a value that the bit of a device of the first port can get by
setting it, and 0 for a device of the second port. -/
def Harmless (driver : Driver) (call : Write) : Prop :=
  if call.device.toNat < 8 then
    driver.oreg2Data.getLsbD call.device.toNat = true → call.val.getLsbD 0 = true
  else
    call.val.getLsbD 0 = false

/-- The shadows hold the values last written, and the second one is still clear. -/
structure Shadowed (history : List Write) (driver : Driver) : Prop where
  sent : ∀ call ∈ history, (driver.lastSent (outputReg call.device.toNat)).isSome
  last : ∀ device byte, driver.lastSent (outputReg device) = some byte →
    byte = driver.shadow device
  bits : ∀ device < 16, (driver.shadow device).getLsbD (device % 8) = requested device history
  upper : driver.oreg1Data = 0

theorem Shadowed.shows {history : List Write} {driver : Driver}
    (shadowed : Shadowed history driver) : Shows history driver where
  sent := shadowed.sent
  bits := by
    intro device inside byte last
    rw [shadowed.last device byte last]
    exact shadowed.bits device inside

/-- Sending a byte sends one to every port that has had one, and to the port of the device. -/
theorem isSome_lastSent_written {history : List Write} {driver : Driver} {call : Write}
    (sent : ∀ call ∈ history, (driver.lastSent (outputReg call.device.toNat)).isSome) :
    ∀ earlier ∈ history ++ [call],
      ((written driver call).lastSent (outputReg earlier.device.toNat)).isSome := by
  intro earlier member
  rw [written, lastSent_put]
  by_cases same : outputReg call.device.toNat = outputReg earlier.device.toNat
  · rw [if_pos same]
    rfl
  · rw [if_neg same]
    rcases List.mem_append.mp member with before | now
    · exact sent earlier before
    · rw [List.mem_singleton.mp now] at same
      exact absurd rfl same

/-- A write changes no other bit of a shadow. -/
theorem getLsbD_shadow_written (driver : Driver) {call : Write} (admissible : call.Admissible)
    {device : Nat} (inside : device < 16) (other : device ≠ call.device.toNat) :
    ((written driver call).shadow device).getLsbD (device % 8) =
      (driver.shadow device).getLsbD (device % 8) := by
  rw [written, shadow_put]
  by_cases same : outputReg device = outputReg call.device.toNat
  · have port := outputReg_eq_iff.mp same
    have place : device % 8 ≠ call.device.toNat := by omega
    have shadow : driver.shadow call.device.toNat = driver.shadow device := by
      rw [Driver.shadow, Driver.shadow, if_congr port rfl rfl]
    rw [if_pos same, getLsbD_merged _ _ admissible.2 (Nat.mod_lt _ (by decide)),
      decide_eq_false place, Bool.false_and, Bool.or_false, shadow]
  · rw [if_neg same]

/-- The own bit of a write, when the shadow of the second port is clear. -/
theorem harmless_iff {driver : Driver} {call : Write} (admissible : call.Admissible)
    (upper : driver.oreg1Data = 0) :
    Harmless driver call ↔
      ((written driver call).shadow call.device.toNat).getLsbD (call.device.toNat % 8) =
        call.val.getLsbD 0 := by
  rw [written, shadow_put, if_pos rfl,
    getLsbD_merged _ _ admissible.2 (Nat.mod_lt _ (by decide)), Harmless, Driver.shadow]
  by_cases low : call.device.toNat < 8
  · rw [if_pos low, if_pos low, Nat.mod_eq_of_lt low, decide_eq_true rfl, Bool.true_and]
    cases driver.oreg2Data.getLsbD call.device.toNat with
    | false => simp
    | true =>
        rw [Bool.true_or, eq_comm]
        simp
  · have place : call.device.toNat % 8 ≠ call.device.toNat := by omega
    have clear : (0 : BitVec 8).getLsbD (call.device.toNat % 8) = false := BitVec.getLsbD_zero
    rw [if_neg low, if_neg low, upper, decide_eq_false place, Bool.false_and, Bool.or_false,
      clear]
    exact eq_comm

/-- A device of the second port is shifted out of its byte. -/
theorem oreg1Data_written {driver : Driver} {call : Write} (admissible : call.Admissible)
    (upper : driver.oreg1Data = 0) : (written driver call).oreg1Data = 0 := by
  rw [written, Driver.put]
  by_cases low : call.device.toNat < 8
  · rw [if_pos low]
    exact upper
  · rw [if_neg low]
    change merged (driver.shadow call.device.toNat) call.val call.device = 0
    apply BitVec.eq_of_getLsbD_eq
    intro i below
    have place : i ≠ call.device.toNat := by omega
    rw [getLsbD_merged _ _ admissible.2 below, decide_eq_false place, Driver.shadow, if_neg low,
      upper]
    simp

theorem shadowed_init (oreg1Data oreg2Data : BitVec 8) (configured : HalStatus) :
    Shadowed [] (pi4ioeInit configured ⟨oreg1Data, oreg2Data, []⟩).2 where
  sent := by simp
  last := by
    intro device byte last
    have config : ioConfigReg ≠ outputReg device := by
      rw [outputReg]
      split <;> decide
    simp [Driver.lastSent, pi4ioeInit, Driver.transmit, lastSome, sentTo, config] at last
  bits := by
    intro device inside
    rw [Driver.shadow]
    split <;> exact BitVec.getLsbD_zero
  upper := rfl

/-- A harmless write keeps the shadows as they were last written. -/
theorem harmless_keeps (history : List Write) (driver : Driver) (call : Write)
    (shadowed : Shadowed history driver) (admissible : call.Admissible)
    (harmless : Harmless driver call) :
    ∃ reply driver', execute driver call = some (reply, driver') ∧
      Shadowed (history ++ [call]) driver' := by
  refine ⟨_, _, execute_eq driver admissible, ?_⟩
  constructor
  · exact isSome_lastSent_written shadowed.sent
  · intro device byte last
    rw [written, shadow_put]
    rw [written, lastSent_put] at last
    by_cases same : outputReg call.device.toNat = outputReg device
    · rw [if_pos same] at last
      rw [if_pos same.symm]
      exact (Option.some.inj last).symm
    · rw [if_neg same] at last
      rw [if_neg (Ne.symm same)]
      exact shadowed.last device byte last
  · intro device inside
    rw [requested_append_singleton]
    by_cases own : call.device.toNat = device
    · subst own
      rw [if_pos rfl]
      exact (harmless_iff admissible shadowed.upper).mp harmless
    · rw [if_neg own, getLsbD_shadow_written driver admissible inside (Ne.symm own)]
      exact shadowed.bits device inside
  · exact oreg1Data_written admissible shadowed.upper

/-- Any other write sends a byte that does not hold its value. -/
theorem not_shows_of_not_harmless (history : List Write) (driver : Driver) (call : Write)
    (reply : HalStatus) (driver' : Driver) (shadowed : Shadowed history driver)
    (admissible : call.Admissible) (harmful : ¬Harmless driver call)
    (step : execute driver call = some (reply, driver')) : ¬Shows (history ++ [call]) driver' := by
  intro shows
  rw [execute_eq driver admissible] at step
  cases step
  apply harmful
  rw [harmless_iff admissible shadowed.upper]
  have last : (written driver call).lastSent (outputReg call.device.toNat) =
      some ((written driver call).shadow call.device.toNat) := by
    rw [written, lastSent_put, shadow_put, if_pos rfl, if_pos rfl]
  have bit := shows.bits _ admissible.1 _ last
  rwa [requested_append_singleton, if_pos rfl] at bit

/-- The output of a device survives the writes of the others. -/
theorem Shows.isolated {history : List Write} {driver driver' : Driver} {call : Write}
    (shows : Shows history driver) (shows' : Shows (history ++ [call]) driver') {device : Nat}
    (inside : device < 16) (other : device ≠ call.device.toNat) {byte byte' : BitVec 8}
    (last : driver.lastSent (outputReg device) = some byte)
    (last' : driver'.lastSent (outputReg device) = some byte') :
    byte'.getLsbD (device % 8) = byte.getLsbD (device % 8) := by
  rw [shows.bits device inside byte last, shows'.bits device inside byte' last',
    requested_append_singleton, if_neg (Ne.symm other)]

/-- The outputs are the values last written exactly in the runs that never write 1 to a device
of the second port, and never 0 to a device of the first that has had a 1. -/
theorem outputs_shadowed_iff (oreg1Data oreg2Data : BitVec 8) (configured : HalStatus)
    (calls : List Write) (admissible : ∀ call ∈ calls, call.Admissible) :
    OutputsShadowed (pi4ioeInit configured ⟨oreg1Data, oreg2Data, []⟩).2 calls ↔
      writes.Always (Faulting.Lift Harmless)
        (some (pi4ioeInit configured ⟨oreg1Data, oreg2Data, []⟩).2) calls := by
  have exact_runs := Faulting.forall_prefix_iff_always harmless_keeps
    (fun _ _ shadowed => shadowed.shows) not_shows_of_not_harmless
    (shadowed_init oreg1Data oreg2Data configured) admissible
  constructor
  · intro outputs
    exact exact_runs.mp outputs.shows
  · intro always
    have shows := exact_runs.mpr always
    constructor
    · exact shows
    · intro before call after split
      rcases shows before _ split with ⟨driver, reached, held⟩
      rcases shows (before ++ [call]) after (by rw [split, List.append_assoc]; rfl) with
        ⟨driver', reached', held'⟩
      refine ⟨driver, driver', reached, reached', ?_⟩
      intro device inside other byte byte' last last'
      exact held.isolated held' inside other last last'

/-- Setting two devices of the first port and clearing one of the second. -/
theorem outputs_shadowed_iff_example :
    OutputsShadowed (pi4ioeInit .ok ⟨0xFF, 0xFF, []⟩).2
      [⟨0, 1, .ok⟩, ⟨5, 1, .ok⟩, ⟨9, 0, .ok⟩] := by
  apply (outputs_shadowed_iff _ _ _ _ ?_).mpr
  · refine ⟨?_, ?_, ?_, trivial⟩
    · intro driver equal
      cases equal
      exact fun _ => rfl
    · intro driver equal
      cases equal
      exact fun _ => rfl
    · intro driver equal
      cases equal
      exact (rfl : (0 : BitVec 8).getLsbD 0 = false)
  · simp only [List.mem_cons, List.not_mem_nil, or_false]
    rintro call (rfl | rfl | rfl)
    · exact ⟨by decide, by decide⟩
    · exact ⟨by decide, by decide⟩
    · exact ⟨by decide, by decide⟩

/-- A pin that is set cannot be cleared, and a device of the second port cannot be set. -/
theorem outputs_not_shadowed :
    ¬OutputsShadowed (pi4ioeInit .ok ⟨0, 0, []⟩).2 [⟨0, 1, .ok⟩, ⟨0, 0, .ok⟩] ∧
      ¬OutputsShadowed (pi4ioeInit .ok ⟨0, 0, []⟩).2 [⟨8, 1, .ok⟩] := by
  constructor
  · intro outputs
    rcases outputs.shows [⟨0, 1, .ok⟩, ⟨0, 0, .ok⟩] [] rfl with ⟨driver, reached, shows⟩
    cases reached
    exact absurd (shows.bits 0 (by decide) 1 (by decide)) (by decide)
  · intro outputs
    rcases outputs.shows [⟨8, 1, .ok⟩] [] rfl with ⟨driver, reached, shows⟩
    cases reached
    exact absurd (shows.bits 8 (by decide) 0 (by decide)) (by decide)

end EmbeddedBase.General.Pi4ioe
