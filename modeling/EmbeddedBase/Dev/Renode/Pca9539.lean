import EmbeddedBase.Data.RegisterField
import Mathlib.Logic.Function.Basic

/-!
# The emulated PCA9539

The model of `PCA9539.cs`: the byte registers of the expander, the words its write
callbacks keep, and the pins that `SetPins` drives from them.  The input register of the
second port is read from a span of the pins that starts at pin 7.
-/

namespace EmbeddedBase.Dev.Renode

open EmbeddedBase.Data

/-! ## The helpers of the framework -/

/-- `BitHelper.ReplaceBits`. -/
def replaceBits (destination source : BitVec 32) (width destinationPosition : Nat) : BitVec 32 :=
  (destination &&& ~~~fieldMask 32 destinationPosition width) |||
    ((source <<< destinationPosition) &&& fieldMask 32 destinationPosition width)

/-- `BitHelper.GetBits`, least significant bit first. -/
def getBits (value : BitVec 32) (i : Fin 32) : Bool :=
  value.getLsbD i

/-- `BitHelper.GetValueFromBitsArray`, least significant bit first. -/
def getValueFromBitsArray (bits : List Bool) : BitVec 32 :=
  (BitVec.ofBoolListLE bits).setWidth 32

/-- Eight of the sixteen pins: `new Span<bool>(values, start, 8)`. -/
def span (values : Fin 16 → Bool) (start : Nat) (fits : start + 8 ≤ 16) : List Bool :=
  List.ofFn fun i : Fin 8 => values ⟨start + i, by omega⟩

/-! ## The peripheral -/

/-- `PCA9539`.  `stored` holds the values of the byte registers that have one. -/
structure Pca9539 where
  state : Fin 16 → Bool
  stored : BitVec 8 → BitVec 8
  polarityInversion : BitVec 32
  configuration : BitVec 32
  outputFlipFlop : BitVec 32
  context : BitVec 8

namespace Pca9539

/-- The peripheral after its construction. -/
def initial : Pca9539 where
  state _ := false
  stored _ := 0xFF
  polarityInversion := 0xFFFF
  configuration := 0xFFFF
  outputFlipFlop := 0xFFFF
  context := 0

/-- `WritePin`. -/
def writePin (number : Fin 16) (value : Bool) (pca : Pca9539) : Pca9539 :=
  { pca with state := Function.update pca.state number value }

/-- The body of the loop of `SetPins`. -/
def setPin (outputBits configurationBits : Fin 16 → Bool) (pca : Pca9539) (i : Fin 16) :
    Pca9539 :=
  if !configurationBits i then pca.writePin i (outputBits i) else pca

/-- `SetPins`. -/
def setPins (pca : Pca9539) : Pca9539 :=
  let outputBits : Fin 16 → Bool := fun i => getBits pca.outputFlipFlop (i.castLE (by decide))
  let configurationBits : Fin 16 → Bool := fun i =>
    getBits pca.configuration (i.castLE (by decide))
  (List.finRange 16).foldl (setPin outputBits configurationBits) pca

/-- `WriteCallback`. -/
def writeCallback (value : BitVec 8) (offset : Nat) (pca : Pca9539) : Pca9539 :=
  { pca with
    outputFlipFlop := replaceBits pca.outputFlipFlop (value.setWidth 32) 8 offset }.setPins

/-- `ConfigurationCallback`. -/
def configurationCallback (value : BitVec 8) (offset : Nat) (pca : Pca9539) : Pca9539 :=
  { pca with
    configuration := replaceBits pca.configuration (value.setWidth 32) 8 offset }.setPins

/-- The callback of the polarity registers. -/
def polarityCallback (value : BitVec 8) (offset : Nat) (pca : Pca9539) : Pca9539 :=
  { pca with
    polarityInversion := replaceBits pca.polarityInversion (value.setWidth 32) 8 offset }

/-- A byte register takes the value written to it. -/
def store (register value : BitVec 8) (pca : Pca9539) : Pca9539 :=
  { pca with stored := Function.update pca.stored register value }

/-- `registers.Read`, on the registers of `DefineRegisters`. -/
def registersRead (pca : Pca9539) (register : BitVec 8) : BitVec 8 :=
  match register with
  | 0x0#8 => (getValueFromBitsArray (span pca.state 0 (by decide))).setWidth 8
  | 0x1#8 => (getValueFromBitsArray (span pca.state 7 (by decide))).setWidth 8
  | 0x2#8 | 0x3#8 | 0x4#8 | 0x5#8 | 0x6#8 | 0x7#8 => pca.stored register
  | _ => 0

/-- `registers.Write`: a register takes the value, and then its callback runs. -/
def registersWrite (register value : BitVec 8) (pca : Pca9539) : Pca9539 :=
  match register with
  | 0x2#8 => (pca.store register value).writeCallback value 0
  | 0x3#8 => (pca.store register value).writeCallback value 8
  | 0x4#8 => (pca.store register value).polarityCallback value 0
  | 0x5#8 => (pca.store register value).polarityCallback value 8
  | 0x6#8 => (pca.store register value).configurationCallback value 0
  | 0x7#8 => (pca.store register value).configurationCallback value 8
  | _ => pca

/-- `Read`: the two bytes of the register in a `short`, low byte first. -/
def read (pca : Pca9539) : BitVec 8 × BitVec 8 :=
  let value := (pca.registersRead pca.context).setWidth 16
  (value.extractLsb' 0 8, value.extractLsb' 8 8)

/-- `Write`; `register` is `data[0]`, and `rest` the bytes after it. -/
def write (register : BitVec 8) (rest : List (BitVec 8)) (pca : Pca9539) : Pca9539 :=
  let pca := { pca with context := register }
  match rest with
  | [] => pca
  | value :: _ => if register.toNat < 2 then pca else pca.registersWrite register value

/-! ## What the operations do -/

@[simp]
theorem read_fst (pca : Pca9539) : pca.read.1 = pca.registersRead pca.context := by
  apply BitVec.eq_of_getLsbD_eq
  intro i below
  have inWord : i < 16 := by omega
  simp [read, below, inWord]

/-- A span starting at a pin shows in bit `i` the pin `i` places on. -/
theorem getLsbD_span (values : Fin 16 → Bool) {start : Nat} (fits : start + 8 ≤ 16)
    (i : Fin 8) :
    ((getValueFromBitsArray (span values start fits)).setWidth 8).getLsbD i =
      values ⟨start + i, by omega⟩ := by
  have inWord : (i : Nat) < 32 := by omega
  rw [BitVec.getLsbD_setWidth, decide_eq_true i.isLt, Bool.true_and, getValueFromBitsArray,
    BitVec.getLsbD_setWidth, decide_eq_true inWord, Bool.true_and, BitVec.getLsbD_ofBoolListLE,
    List.getD_eq_getElem _ _ (by rw [span, List.length_ofFn]; exact i.isLt)]
  exact List.getElem_ofFn _

/-- Replacing a byte of a word. -/
theorem getLsbD_replaceBits (destination : BitVec 32) (value : BitVec 8) {offset i : Nat}
    (fits : offset + 8 ≤ 32) (inside : i < 32) :
    (replaceBits destination (value.setWidth 32) 8 offset).getLsbD i =
      if offset ≤ i ∧ i < offset + 8 then value.getLsbD (i - offset)
      else destination.getLsbD i := by
  rw [replaceBits, replacesField_of_masks destination (value.setWidth 32) fits i inside]
  by_cases within : offset ≤ i ∧ i < offset + 8
  · have inWord : i - offset < 32 := by omega
    rw [if_pos within, if_pos within, BitVec.getLsbD_setWidth, decide_eq_true inWord,
      Bool.true_and]
  · rw [if_neg within, if_neg within]

/-- The loop drives the listed pins that are outputs, and changes nothing else. -/
theorem foldl_setPin (outputBits configurationBits : Fin 16 → Bool) (pins : List (Fin 16))
    (pca : Pca9539) :
    pins.foldl (setPin outputBits configurationBits) pca =
      { pca with
        state := fun i =>
          if pins.contains i && !configurationBits i then outputBits i else pca.state i } := by
  induction pins generalizing pca with
  | nil => simp
  | cons pin pins ih =>
      rw [List.foldl_cons, ih]
      cases input : configurationBits pin with
      | false =>
          simp only [setPin, input, writePin, Bool.not_false, if_true]
          congr 1
          funext i
          by_cases here : i = pin
          · subst here
            simp [input]
          · simp [here]
      | true =>
          simp only [setPin, input, Bool.not_true, Bool.false_eq_true, if_false]
          congr 1
          funext i
          by_cases here : i = pin
          · subst here
            simp [input]
          · simp [here]

/-- `SetPins` drives every pin whose configuration bit is clear. -/
theorem setPins_eq (pca : Pca9539) :
    pca.setPins =
      { pca with
        state := fun i =>
          if pca.configuration.getLsbD i = false then pca.outputFlipFlop.getLsbD i
          else pca.state i } := by
  rw [setPins, foldl_setPin]
  congr 1
  funext i
  simp [getBits]

end Pca9539

end EmbeddedBase.Dev.Renode
