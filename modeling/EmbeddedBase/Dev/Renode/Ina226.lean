import EmbeddedBase.Transition.Machine
import Mathlib.Data.List.Infix
import Mathlib.Logic.Function.Basic

/-!
# The emulated INA226

The model of `INA226.cs` on a little-endian host.  A write takes the high byte first and a
read returns the low byte first; writes below the third register are taken for pointer writes,
so the configuration never changes.  What the configuration callback only stores, the averaging
and the conversion times, is left out.
-/

namespace EmbeddedBase.Dev.Renode

open EmbeddedBase.Transition

/-! ## The peripheral -/

/-- `INA226`.  `stored` holds the values of the registers without callbacks. -/
structure Ina226 where
  configuration : BitVec 16
  calibration : BitVec 16
  shuntVoltage : BitVec 16
  busVoltage : BitVec 16
  stored : BitVec 8 → BitVec 16
  context : BitVec 8

namespace Ina226

/-- The peripheral after its construction. -/
def initial : Ina226 where
  configuration := 0x4127
  calibration := 0x0000
  shuntVoltage := 0x7FFF
  busVoltage := 0x0000
  stored _ := 0
  context := 0

/-- `Reset`. -/
def reset (ina : Ina226) : Ina226 :=
  { ina with configuration := 0x4127, shuntVoltage := 0, busVoltage := 0, calibration := 0 }

/-- `Current`, truncated to a `short`. -/
def current (ina : Ina226) : BitVec 16 :=
  BitVec.ofInt 16 ((ina.shuntVoltage.toInt * ina.calibration.toNat).tdiv 2048)

/-- `Power`, truncated to a `ushort`. -/
def power (ina : Ina226) : BitVec 16 :=
  BitVec.ofInt 16 ((ina.current.toInt * ina.busVoltage.toNat).tdiv 20000)

/-- The write callback of the configuration register. -/
def configurationCallback (value : BitVec 16) (ina : Ina226) : Ina226 :=
  if value.getLsbD 15 then ina.reset else { ina with configuration := value }

/-- `registers.Read`, on the registers of `DefineRegisters`. -/
def registersRead (ina : Ina226) (register : BitVec 8) : BitVec 16 :=
  match register with
  | 0x00#8 => ina.configuration
  | 0x01#8 => ina.shuntVoltage
  | 0x02#8 => ina.busVoltage
  | 0x03#8 => ina.power
  | 0x04#8 => ina.current
  | 0x05#8 => ina.calibration
  | 0x06#8 | 0x07#8 => ina.stored register
  | 0xFE#8 => 0x5449
  | 0xFF#8 => 0x2260
  | _ => 0

/-- `registers.Write`; the registers that are only read keep their values. -/
def registersWrite (register : BitVec 8) (value : BitVec 16) (ina : Ina226) : Ina226 :=
  match register with
  | 0x00#8 => ina.configurationCallback value
  | 0x05#8 => { ina with calibration := value }
  | 0x06#8 | 0x07#8 => { ina with stored := Function.update ina.stored register value }
  | _ => ina

/-- `Read`: the bytes of the register, low byte first. -/
def read (ina : Ina226) : List (BitVec 8) :=
  let value := ina.registersRead ina.context
  [value.extractLsb' 0 8, value.extractLsb' 8 8]

/-- `Write`; `register` is `data[0]`, and `rest` the bytes after it. -/
def write (register : BitVec 8) (rest : List (BitVec 8)) (ina : Ina226) : Ina226 :=
  let ina := { ina with context := register }
  if register.toNat < 0x2 then ina
  else
    match rest with
    | hi :: lo :: _ => ina.registersWrite register (hi ++ lo)
    | _ => ina

end Ina226

/-! ## Transactions -/

/-- The registers that are written and read back. -/
inductive Ina226Register
  | configuration
  | calibration
  | maskEnable
  | alertLimit
  deriving DecidableEq

namespace Ina226Register

/-- The address of a register. -/
def address : Ina226Register → BitVec 8
  | configuration => 0x00
  | calibration => 0x05
  | maskEnable => 0x06
  | alertLimit => 0x07

/-- The value of a register after reset, high byte first. -/
def resetBytes : Ina226Register → BitVec 8 × BitVec 8
  | configuration => (0x41, 0x27)
  | _ => (0, 0)

end Ina226Register

/-- A transaction: a register write, or a pointer write followed by a read. -/
inductive Ina226Transaction
  | write (reg : Ina226Register) (hi lo : BitVec 8)
  | read (reg : Ina226Register)
  deriving DecidableEq

namespace Ina226Transaction

/-- The bytes a transaction writes to a register. -/
def bytes (reg : Ina226Register) : Ina226Transaction → Option (BitVec 8 × BitVec 8)
  | write reg' hi lo => if reg' = reg then some (hi, lo) else none
  | read _ => none

/-- The transactions on the emulator; a write returns no bytes. -/
def perform : Machine Ina226 Ina226Transaction (List (BitVec 8))
  | ina, write reg hi lo => ([], ina.write reg.address [hi, lo])
  | ina, read reg => ((ina.write reg.address []).read, ina.write reg.address [])

end Ina226Transaction

open Ina226Transaction (perform)

/-- The emulator after a sequence of transactions. -/
def emulatedAfter (transactions : List Ina226Transaction) : Ina226 :=
  perform.final Ina226.initial transactions

/-- What a read of a register returns after a sequence of transactions. -/
def readBack (reg : Ina226Register) (transactions : List Ina226Transaction) : List (BitVec 8) :=
  (perform (emulatedAfter transactions) (.read reg)).1

/-- The bytes last written to a register, those of its reset value if there are none. -/
def lastBytes (reg : Ina226Register) (transactions : List Ina226Transaction) :
    BitVec 8 × BitVec 8 :=
  (lastSome (Ina226Transaction.bytes reg) transactions).getD reg.resetBytes

/-- Every read returns what was last written, and writes leave the other registers alone. -/
structure IsRegisterFile (transactions : List Ina226Transaction) : Prop where
  readings : ∀ before reg later, transactions = before ++ .read reg :: later →
    (readBack reg before).take 2 = [(lastBytes reg before).1, (lastBytes reg before).2]
  isolated : ∀ before reg hi lo later, transactions = before ++ .write reg hi lo :: later →
    ∀ other, other ≠ reg → readBack other (before ++ [.write reg hi lo]) = readBack other before

/-! ## What the registers hold -/

/-- The bytes that the emulator holds for a register: those last written, but the
configuration keeps its reset value. -/
def heldBytes (reg : Ina226Register) (transactions : List Ina226Transaction) :
    BitVec 8 × BitVec 8 :=
  match reg with
  | .configuration => Ina226Register.configuration.resetBytes
  | _ => lastBytes reg transactions

/-- The emulator holds these bytes for every register. -/
def Holds (transactions : List Ina226Transaction) (ina : Ina226) : Prop :=
  ∀ reg : Ina226Register,
    ina.registersRead reg.address = (heldBytes reg transactions).1 ++ (heldBytes reg transactions).2

theorem lastBytes_append_singleton (reg : Ina226Register)
    (transactions : List Ina226Transaction) (transaction : Ina226Transaction) :
    lastBytes reg (transactions ++ [transaction]) =
      (transaction.bytes reg).getD (lastBytes reg transactions) := by
  rw [lastBytes, lastSome_append_singleton]
  cases transaction.bytes reg <;> rfl

/-- A pointer write changes no register. -/
theorem registersRead_pointer (ina : Ina226) (register : BitVec 8) (reg : Ina226Register) :
    (ina.write register []).registersRead reg.address = ina.registersRead reg.address := by
  have pointed : ina.write register [] = { ina with context := register } := by
    by_cases small : register.toNat < 0x2
    · exact if_pos small
    · exact if_neg small
  rw [pointed]
  cases reg <;> rfl

/-- A register write stores its bytes, except in the configuration. -/
theorem registersRead_write (ina : Ina226) (reg : Ina226Register) (hi lo : BitVec 8)
    (other : Ina226Register) :
    (ina.write reg.address [hi, lo]).registersRead other.address =
      if other = reg ∧ reg ≠ .configuration then hi ++ lo
      else ina.registersRead other.address := by
  cases reg <;> cases other <;> rfl

/-- One transaction in the history of a register. -/
theorem heldBytes_append_singleton (other : Ina226Register)
    (transactions : List Ina226Transaction) (transaction : Ina226Transaction) :
    heldBytes other (transactions ++ [transaction]) =
      if other = .configuration then heldBytes other transactions
      else (transaction.bytes other).getD (heldBytes other transactions) := by
  cases other
  · rfl
  all_goals exact lastBytes_append_singleton _ transactions transaction

/-- A transaction keeps what the registers hold. -/
theorem Holds.step {transactions : List Ina226Transaction} {ina : Ina226}
    (holds : Holds transactions ina) (transaction : Ina226Transaction) :
    Holds (transactions ++ [transaction]) (perform ina transaction).2 := by
  intro other
  rw [heldBytes_append_singleton]
  cases transaction with
  | read reg =>
      have same := (registersRead_pointer ina reg.address other).trans (holds other)
      rw [Ina226Transaction.bytes, Option.getD_none, ite_self]
      exact same
  | write reg hi lo =>
      have written := registersRead_write ina reg hi lo other
      rw [holds other] at written
      rw [perform, written, Ina226Transaction.bytes]
      by_cases configuration : other = .configuration
      · have kept : ¬(other = reg ∧ reg ≠ .configuration) := by
          rintro ⟨rfl, different⟩
          exact different configuration
        rw [if_pos configuration, if_neg kept]
      · rw [if_neg configuration]
        by_cases same : reg = other
        · rw [if_pos ⟨same.symm, same ▸ configuration⟩, if_pos same, Option.getD_some]
        · have kept : ¬(other = reg ∧ reg ≠ .configuration) := fun both => same both.1.symm
          rw [if_neg kept, if_neg same, Option.getD_none]

theorem holds_after (transactions : List Ina226Transaction) :
    Holds transactions (emulatedAfter transactions) := by
  induction transactions using List.reverseRecOn with
  | nil =>
      intro reg
      cases reg <;> rfl
  | append_singleton transactions transaction ih =>
      rw [emulatedAfter, Machine.final_append]
      exact ih.step transaction

/-- A read returns the bytes of its register, the low one first. -/
theorem readBack_eq (reg : Ina226Register) (transactions : List Ina226Transaction) :
    readBack reg transactions =
      [(heldBytes reg transactions).2, (heldBytes reg transactions).1] := by
  have value : (perform (emulatedAfter transactions) (.read reg)).2.registersRead reg.address = _ :=
    (registersRead_pointer _ reg.address reg).trans (holds_after transactions reg)
  have context : (perform (emulatedAfter transactions) (.read reg)).2.context = reg.address := by
    cases reg <;> rfl
  have bytes : readBack reg transactions =
      (perform (emulatedAfter transactions) (.read reg)).2.read := rfl
  rw [bytes, Ina226.read, context, value, BitVec.extractLsb'_append_eq_right,
    BitVec.extractLsb'_append_eq_left]

/-- A write leaves what other registers read back. -/
theorem readBack_of_ne {other reg : Ina226Register} (different : other ≠ reg) (hi lo : BitVec 8)
    (transactions : List Ina226Transaction) :
    readBack other (transactions ++ [.write reg hi lo]) = readBack other transactions := by
  have same : heldBytes other (transactions ++ [.write reg hi lo]) =
      heldBytes other transactions := by
    rw [heldBytes_append_singleton, Ina226Transaction.bytes, if_neg different.symm,
      Option.getD_none, ite_self]
  rw [readBack_eq, readBack_eq, same]

/-! ## Reading back -/

/-- A read finds bytes that it returns in the right order: the configuration was last written
with the bytes of its reset value exchanged, another register with equal bytes or not at all. -/
def FindsSymmetric (before : List Ina226Transaction) : Ina226Register → Prop
  | .configuration => lastBytes .configuration before = (0x27, 0x41)
  | reg => (lastBytes reg before).1 = (lastBytes reg before).2

instance (before : List Ina226Transaction) :
    ∀ reg, Decidable (FindsSymmetric before reg)
  | .configuration => inferInstanceAs (Decidable (lastBytes .configuration before = (0x27, 0x41)))
  | .calibration => inferInstanceAs (Decidable ((lastBytes _ before).1 = (lastBytes _ before).2))
  | .maskEnable => inferInstanceAs (Decidable ((lastBytes _ before).1 = (lastBytes _ before).2))
  | .alertLimit => inferInstanceAs (Decidable ((lastBytes _ before).1 = (lastBytes _ before).2))

theorem readBack_eq_lastBytes_iff (before : List Ina226Transaction) (reg : Ina226Register) :
    (readBack reg before).take 2 = [(lastBytes reg before).1, (lastBytes reg before).2] ↔
      FindsSymmetric before reg := by
  rw [readBack_eq]
  cases reg with
  | configuration =>
      change [_, _] = [_, _] ↔ _ = (_, _)
      rw [Prod.ext_iff]
      simp [heldBytes, Ina226Register.resetBytes, eq_comm]
  | calibration => simp [heldBytes, FindsSymmetric, eq_comm]
  | maskEnable => simp [heldBytes, FindsSymmetric, eq_comm]
  | alertLimit => simp [heldBytes, FindsSymmetric, eq_comm]

/-- The emulator is a register file on the wire exactly for the sequences whose reads all find
bytes that are right in either order. -/
theorem register_file_iff (transactions : List Ina226Transaction) :
    IsRegisterFile transactions ↔
      ∀ before reg later, transactions = before ++ .read reg :: later →
        FindsSymmetric before reg := by
  constructor
  · intro file before reg later split
    exact (readBack_eq_lastBytes_iff before reg).mp (file.readings before reg later split)
  · intro symmetric
    constructor
    · intro before reg later split
      exact (readBack_eq_lastBytes_iff before reg).mpr (symmetric before reg later split)
    · intro before reg hi lo later _ other different
      exact readBack_of_ne different hi lo before

/-- A calibration of 0x0A00 reads back as 0x000A, and the configuration is not written. -/
theorem calibration_bytes_exchanged :
    readBack .calibration [.write .calibration 0x0A 0x00] = [0x00, 0x0A] ∧
      readBack .configuration [.write .configuration 0x45 0x27] = [0x27, 0x41] ∧
      ¬IsRegisterFile [.write .calibration 0x0A 0x00, .read .calibration] ∧
      ¬IsRegisterFile [.write .configuration 0x45 0x27, .read .configuration] := by
  have calibration : ¬FindsSymmetric [.write .calibration 0x0A 0x00] .calibration := by decide
  have configuration : ¬FindsSymmetric [.write .configuration 0x45 0x27] .configuration := by
    decide
  refine ⟨by decide, by decide, ?_, ?_⟩
  · intro file
    exact calibration ((readBack_eq_lastBytes_iff _ _).mp (file.readings [_] _ [] rfl))
  · intro file
    exact configuration ((readBack_eq_lastBytes_iff _ _).mp (file.readings [_] _ [] rfl))

end EmbeddedBase.Dev.Renode
