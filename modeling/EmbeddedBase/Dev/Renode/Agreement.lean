import EmbeddedBase.Dev.Renode.Pca9539
import EmbeddedBase.General.Tca9539
import EmbeddedBase.Transition.Machine
import Mathlib.Data.List.Infix

/-!
# The TCA9539 driver on the emulated PCA9539

The driver runs against the emulator.  After any sequence of writes every output pin has
the level last written for it, and a write to a port leaves the pins of the other port
alone.  Reading back agrees for the first port; for the second one the emulator returns
each time the level of the pin below.
-/

namespace EmbeddedBase.Dev.Renode

open EmbeddedBase.Data
open EmbeddedBase.General.Tca9539
open EmbeddedBase.Transition

/-! ## The emulator as a bus -/

/-- A register write is `Write([reg, value])`. -/
def busWrite (_ : BitVec 16) (reg value : BitVec 8) (pca : Pca9539) : BitVec 8 × Pca9539 :=
  (0, pca.write reg [value])

/-- A register read is `Write([reg])` and the first byte of `Read()`. -/
def busRead (_ : BitVec 16) (reg : BitVec 8) (pca : Pca9539) :
    (BitVec 8 × BitVec 8) × Pca9539 :=
  let addressed := pca.write reg []
  ((0, addressed.read.1), addressed)

/-- The driver on the emulator. -/
def tca : Tca9539T Pca9539 :=
  tca9539Init busWrite busRead 0x74

/-! ## Calls -/

/-- The two groups of registers that are written. -/
inductive Group
  | output
  | configuration
  deriving DecidableEq

/-- The register of a group for a port. -/
def register : Group → Fin 2 → BitVec 8
  | .output, 0 => tcaOutputPort0
  | .output, 1 => tcaOutputPort1
  | .configuration, 0 => tcaConfigurationPort0
  | .configuration, 1 => tcaConfigurationPort1

/-- The input register of a port. -/
def inputRegister : Fin 2 → BitVec 8
  | 0 => tcaInputPort0
  | 1 => tcaInputPort1

/-- The place of a pin among the sixteen: `8k + p`. -/
def place (port : Fin 2) (pin : Fin 8) : Fin 16 :=
  ⟨8 * port + pin, by omega⟩

/-- A call of `tca9539_write_reg` or `tca9539_write_pin`. -/
inductive Call
  | writeReg (group : Group) (port : Fin 2) (buf : BitVec 8)
  | writePin (group : Group) (port : Fin 2) (pin : Fin 8) (buf : Bool)
  deriving DecidableEq

namespace Call

/-- The port a call writes to. -/
def port : Call → Fin 2
  | writeReg _ port _ => port
  | writePin _ port _ _ => port

/-- The value a call writes to a bit of a register. -/
def bit (group : Group) (port : Fin 2) (pin : Fin 8) : Call → Option Bool
  | writeReg group' port' buf =>
      if group' = group ∧ port' = port then some (buf.getLsbD pin) else none
  | writePin group' port' pin' buf =>
      if group' = group ∧ port' = port ∧ pin' = pin then some buf else none

end Call

/-- The calls on the emulator; a reply is the status the driver returns. -/
def emulated : Machine Pca9539 Call (BitVec 8)
  | pca, .writeReg group port buf => tca9539WriteReg tca (register group port) buf pca
  | pca, .writePin group port pin buf =>
      tca9539WritePin tca (register group port) (BitVec.ofNat 8 pin) (if buf then 1 else 0) pca

/-- The emulator after a sequence of calls. -/
def after (calls : List Call) : Pca9539 :=
  emulated.final Pca9539.initial calls

/-- The last value written to a bit of a register, 1 if there is none. -/
def lastWritten (group : Group) (port : Fin 2) (pin : Fin 8) (calls : List Call) : Bool :=
  (lastSome (Call.bit group port pin) calls).getD true

/-- The level a pin is driven to after the calls, if it is an output. -/
def driven (port : Fin 2) (pin : Fin 8) (calls : List Call) : Option Bool :=
  if lastWritten .configuration port pin calls then none
  else some (lastWritten .output port pin calls)

/-- The level of a pin: the last one it was driven to, low if it never was. -/
def level (port : Fin 2) (pin : Fin 8) (calls : List Call) : Bool :=
  (lastSome (driven port pin) calls.inits).getD false

/-- Driver and emulator agree after a sequence of calls. -/
structure Agrees (calls : List Call) : Prop where
  levels : ∀ port pin, (after calls).configuration.getLsbD (place port pin) = false →
    (after calls).state (place port pin) = lastWritten .output port pin calls
  readings : ∀ port pin, (after calls).configuration.getLsbD (place port pin) = false →
    (tca9539ReadPin tca (inputRegister port) (BitVec.ofNat 8 pin) (after calls)).1 =
      (0, some (lastWritten .output port pin calls))
  isolated : ∀ before call later, calls = before ++ call :: later →
    ∀ port pin, port ≠ call.port →
      (after (before ++ [call])).state (place port pin) = (after before).state (place port pin)

/-! ## Histories -/

@[simp]
theorem lastWritten_append_singleton (group : Group) (port : Fin 2) (pin : Fin 8)
    (calls : List Call) (call : Call) :
    lastWritten group port pin (calls ++ [call]) =
      (call.bit group port pin).getD (lastWritten group port pin calls) := by
  rw [lastWritten, lastSome_append_singleton]
  cases call.bit group port pin <;> rfl

/-- The level of a pin after one more call. -/
@[simp]
theorem level_append_singleton (port : Fin 2) (pin : Fin 8) (calls : List Call) (call : Call) :
    level port pin (calls ++ [call]) =
      (driven port pin (calls ++ [call])).getD (level port pin calls) := by
  have prefixes : (calls ++ [call]).inits = calls.inits ++ [calls ++ [call]] := by
    rw [List.inits_append]
    simp
  rw [level, prefixes, lastSome_append_singleton]
  cases driven port pin (calls ++ [call]) <;> rfl

/-- An output has the level last written for it. -/
theorem level_of_output {port : Fin 2} {pin : Fin 8} {calls : List Call}
    (output : lastWritten .configuration port pin calls = false) :
    level port pin calls = lastWritten .output port pin calls := by
  rcases List.eq_nil_or_concat calls with rfl | ⟨before, call, rfl⟩
  · cases output
  · rw [List.concat_eq_append] at output ⊢
    rw [level_append_singleton, driven, if_neg (by rw [output]; decide)]
    rfl

/-- A call for the other port leaves the bits of a port alone. -/
theorem bit_of_other_port (group : Group) {port : Fin 2} (pin : Fin 8) {call : Call}
    (other : port ≠ call.port) : call.bit group port pin = none := by
  cases call with
  | writeReg group' port' buf => exact if_neg fun same => other same.2.symm
  | writePin group' port' pin' buf => exact if_neg fun same => other same.2.1.symm

/-- So it leaves its levels alone. -/
theorem level_of_other_port {port : Fin 2} (pin : Fin 8) (calls : List Call) {call : Call}
    (other : port ≠ call.port) : level port pin (calls ++ [call]) = level port pin calls := by
  rw [level_append_singleton, driven, lastWritten_append_singleton,
    lastWritten_append_singleton, bit_of_other_port _ _ other, bit_of_other_port _ _ other,
    Option.getD_none, Option.getD_none]
  cases direction : lastWritten .configuration port pin calls with
  | false => exact (level_of_output direction).symm
  | true => rfl

/-! ## Writes -/

/-- A call stores a byte in its register: the bits it writes, and the old ones. -/
structure Stores (call : Call) (group : Group) (port : Fin 2) (old new : BitVec 8) : Prop where
  here : ∀ pin : Fin 8, new.getLsbD pin = (call.bit group port pin).getD (old.getLsbD pin)
  elsewhere : ∀ group' port' pin, ¬(group' = group ∧ port' = port) →
    call.bit group' port' pin = none

theorem port_cases (port : Fin 2) : port = 0 ∨ port = 1 := by
  revert port
  decide

theorem register_inj {group group' : Group} {port port' : Fin 2} :
    register group' port' = register group port ↔ group' = group ∧ port' = port := by
  revert port port'
  cases group <;> cases group' <;> decide

/-- A register read returns what is stored. -/
theorem busRead_register (address : BitVec 16) (group : Group) (port : Fin 2) (pca : Pca9539) :
    busRead address (register group port) pca =
      ((0, pca.stored (register group port)), { pca with context := register group port }) := by
  rw [busRead, Pca9539.read_fst]
  rcases port_cases port with rfl | rfl <;> cases group <;> rfl

/-- A register write stores the byte and runs the callback of the group. -/
theorem write_register (group : Group) (port : Fin 2) (new : BitVec 8) (pca : Pca9539) :
    pca.write (register group port) [new] =
      let stored := { pca with context := register group port }.store (register group port) new
      match group with
      | .output => stored.writeCallback new (8 * port)
      | .configuration => stored.configurationCallback new (8 * port) := by
  rcases port_cases port with rfl | rfl <;> cases group <;> rfl

/-- Every call is one register write, of a byte that keeps the bits the call does not write. -/
theorem emulated_eq (pca : Pca9539) (call : Call) :
    ∃ group port new, Stores call group port (pca.stored (register group port)) new ∧
      emulated pca call = (0, pca.write (register group port) [new]) := by
  cases call with
  | writeReg group port buf =>
      refine ⟨group, port, buf, ⟨?_, ?_⟩, rfl⟩
      · intro pin
        rw [Call.bit, if_pos ⟨rfl, rfl⟩, Option.getD_some]
      · intro group' port' pin different
        exact if_neg fun same => different ⟨same.1.symm, same.2.symm⟩
  | writePin group port pin buf =>
      refine ⟨group, port, replaceBit 32 (pca.stored (register group port)) pin
        (if buf then 1 else 0), ⟨?_, ?_⟩, ?_⟩
      · intro other
        rw [getLsbD_replaceBit (by decide) _ (by cases buf <;> decide) pin.isLt other.isLt,
          Call.bit]
        by_cases same : other = pin
        · subst same
          rw [if_pos rfl, if_pos (And.intro rfl (And.intro rfl rfl))]
          cases buf <;> rfl
        · rw [if_neg fun equal => same (Fin.ext equal),
            if_neg fun equal => same equal.2.2.symm, Option.getD_none]
      · intro group' port' other different
        exact if_neg fun same => different ⟨same.1.symm, same.2.1.symm⟩
      · have number : (BitVec.ofNat 8 pin).toNat = pin := by
          rw [BitVec.toNat_ofNat, Nat.mod_eq_of_lt (by omega)]
        have reading : tcaReadReg tca (register group port) pca = _ :=
          busRead_register tca.devAddr group port pca
        rw [emulated, tca9539WritePin, reading, number]
        rfl

/-- Replacing the byte of a port changes the bits of that port. -/
theorem getLsbD_replaceBits_place (word : BitVec 32) (new : BitVec 8) (port port' : Fin 2)
    (pin : Fin 8) :
    (replaceBits word (new.setWidth 32) 8 (8 * port)).getLsbD (place port' pin) =
      if port' = port then new.getLsbD pin else word.getLsbD (place port' pin) := by
  have number : (place port' pin : Nat) = 8 * port' + pin := rfl
  rw [Pca9539.getLsbD_replaceBits word new (by omega) (by omega), number]
  by_cases same : port' = port
  · subst same
    rw [if_pos (by omega), if_pos (Eq.refl port'), Nat.add_sub_cancel_left]
  · have apart : (port' : Nat) ≠ port := fun equal => same (Fin.ext equal)
    rw [if_neg (by omega), if_neg same]

/-! ## The run -/

/-- The emulator holds what was last written, and its pins have their levels. -/
structure Represents (calls : List Call) (pca : Pca9539) : Prop where
  output : ∀ port pin,
    pca.outputFlipFlop.getLsbD (place port pin) = lastWritten .output port pin calls
  configuration : ∀ port pin,
    pca.configuration.getLsbD (place port pin) = lastWritten .configuration port pin calls
  stored : ∀ group port (pin : Fin 8),
    (pca.stored (register group port)).getLsbD pin = lastWritten group port pin calls
  state : ∀ port pin, pca.state (place port pin) = level port pin calls

theorem represents_initial : Represents [] Pca9539.initial where
  output := by decide
  configuration := by decide
  stored group port pin := by
    revert pin
    change ∀ pin : Fin 8, (0xFF#8).getLsbD pin = true
    decide
  state _ _ := rfl

/-- Storing a byte writes the bits of its register and no others. -/
theorem Stores.lastWritten {call : Call} {group : Group} {port : Fin 2} {old new : BitVec 8}
    (stores : Stores call group port old new) {calls : List Call}
    (held : ∀ pin : Fin 8, old.getLsbD pin = lastWritten group port pin calls)
    (group' : Group) (port' : Fin 2) (pin : Fin 8) :
    Renode.lastWritten group' port' pin (calls ++ [call]) =
      if group' = group ∧ port' = port then new.getLsbD pin
      else Renode.lastWritten group' port' pin calls := by
  rw [lastWritten_append_singleton]
  by_cases same : group' = group ∧ port' = port
  · rw [if_pos same, same.1, same.2, stores.here, held]
  · rw [if_neg same, stores.elsewhere group' port' pin same, Option.getD_none]

/-- `SetPins` gives the pins the levels of the words that hold what was last written. -/
theorem represents_setPins {calls : List Call} {call : Call} {pca : Pca9539}
    (output : ∀ port pin, pca.outputFlipFlop.getLsbD (place port pin) =
      lastWritten .output port pin (calls ++ [call]))
    (configuration : ∀ port pin, pca.configuration.getLsbD (place port pin) =
      lastWritten .configuration port pin (calls ++ [call]))
    (stored : ∀ group port (pin : Fin 8), (pca.stored (register group port)).getLsbD pin =
      lastWritten group port pin (calls ++ [call]))
    (state : ∀ port pin, pca.state (place port pin) = level port pin calls) :
    Represents (calls ++ [call]) pca.setPins := by
  rw [Pca9539.setPins_eq]
  refine ⟨output, configuration, stored, ?_⟩
  intro port pin
  dsimp only
  rw [level_append_singleton, driven, ← output, ← configuration, ← state]
  cases pca.configuration.getLsbD (place port pin) <;> rfl

/-- A call keeps the representation. -/
theorem Represents.step {calls : List Call} {pca : Pca9539} (represents : Represents calls pca)
    (call : Call) : Represents (calls ++ [call]) (emulated pca call).2 := by
  rcases emulated_eq pca call with ⟨group, port, new, stores, executed⟩
  have history := stores.lastWritten (represents.stored group port)
  have registers : ∀ group' port' (pin : Fin 8),
      (Function.update pca.stored (register group port) new (register group' port')).getLsbD
        pin = lastWritten group' port' pin (calls ++ [call]) := by
    intro group' port' pin
    rw [history, Function.update_apply, if_congr register_inj rfl rfl]
    split
    · rfl
    · exact represents.stored group' port' pin
  rw [executed, write_register]
  cases group with
  | output =>
      have outputs : ∀ port' pin,
          (replaceBits pca.outputFlipFlop (new.setWidth 32) 8 (8 * port)).getLsbD
            (place port' pin) = lastWritten .output port' pin (calls ++ [call]) := by
        intro port' pin
        rw [getLsbD_replaceBits_place, history, represents.output]
        simp
      apply represents_setPins
      · exact outputs
      · intro port' pin
        rw [history, if_neg (by simp)]
        exact represents.configuration port' pin
      · exact registers
      · exact represents.state
  | configuration =>
      have configurations : ∀ port' pin,
          (replaceBits pca.configuration (new.setWidth 32) 8 (8 * port)).getLsbD
            (place port' pin) = lastWritten .configuration port' pin (calls ++ [call]) := by
        intro port' pin
        rw [getLsbD_replaceBits_place, history, represents.configuration]
        simp
      apply represents_setPins
      · intro port' pin
        rw [history, if_neg (by simp)]
        exact represents.output port' pin
      · exact configurations
      · exact registers
      · exact represents.state

theorem represents_after (calls : List Call) : Represents calls (after calls) := by
  induction calls using List.reverseRecOn with
  | nil => exact represents_initial
  | append_singleton calls call ih =>
      rw [after, Machine.final_append]
      exact ih.step call

/-! ## Agreement -/

/-- An input register reads as eight pins, those of the second port one pin too low. -/
theorem tca9539ReadPin_eq (pca : Pca9539) (port : Fin 2) (pin : Fin 8) :
    (tca9539ReadPin tca (inputRegister port) (BitVec.ofNat 8 pin) pca).1 =
      (0, some (pca.state ⟨7 * port + pin, by omega⟩)) := by
  have number : (BitVec.ofNat 8 pin).toNat = pin := by
    rw [BitVec.toNat_ofNat, Nat.mod_eq_of_lt (by omega)]
  have inside : (BitVec.ofNat 8 pin).toNat < 8 := by
    rw [number]
    exact pin.isLt
  rw [tca9539ReadPin_of_success inside rfl, number, Pca9539.read_fst]
  rcases port_cases port with rfl | rfl
  · exact congrArg (fun bit => (0, some bit)) (Pca9539.getLsbD_span pca.state (by decide) pin)
  · exact congrArg (fun bit => (0, some bit)) (Pca9539.getLsbD_span pca.state (by decide) pin)

/-- The pin that `tca9539_read_pin` is answered with for a pin of the second port. -/
def below (pin : Fin 8) : Fin 2 × Fin 8 :=
  if pin.val = 0 then (⟨0, Nat.zero_lt_two⟩, Fin.last 7)
  else (⟨1, Nat.one_lt_two⟩, ⟨pin.val - 1, by omega⟩)

theorem place_below (pin : Fin 8) :
    place (below pin).1 (below pin).2 = ⟨7 * (1 : Fin 2) + pin, by omega⟩ := by
  revert pin
  decide

/-- Driver and emulator agree exactly when every output pin of the second port has the level
of the pin below it. -/
theorem driver_emulator_agree_iff (calls : List Call) :
    Agrees calls ↔ ∀ pin, lastWritten .configuration 1 pin calls = false →
      level (below pin).1 (below pin).2 calls = lastWritten .output 1 pin calls := by
  have represents := represents_after calls
  constructor
  · intro agrees pin output
    have reading := agrees.readings 1 pin (by rw [represents.configuration, output])
    rw [tca9539ReadPin_eq, ← place_below, represents.state] at reading
    exact Option.some.inj (Prod.ext_iff.mp reading).2
  · intro same
    constructor
    · intro port pin output
      rw [represents.configuration] at output
      rw [represents.state, level_of_output output]
    · intro port pin output
      rw [represents.configuration] at output
      rw [tca9539ReadPin_eq]
      rcases port_cases port with rfl | rfl
      · have first : place 0 pin = ⟨7 * (0 : Fin 2) + pin, by omega⟩ := Fin.ext (by simp [place])
        rw [← first, represents.state, level_of_output output]
      · rw [← place_below, represents.state, same pin output]
    · intro before call later split port pin other
      rw [(represents_after _).state, (represents_after _).state,
        level_of_other_port pin before other]

/-- Pin 1 of the second port is read as pin 0. -/
theorem second_port_read_one_pin_low :
    ¬Agrees [.writeReg .configuration 1 0x00, .writeReg .output 1 0x02] := by
  intro agrees
  have reading := agrees.readings 1 1 (by decide)
  revert reading
  decide

end EmbeddedBase.Dev.Renode
