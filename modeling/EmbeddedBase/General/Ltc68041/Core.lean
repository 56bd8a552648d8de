import EmbeddedBase.Transition.Retry
import Mathlib.Logic.Function.Basic

/-!
# Reading registers of the LTC6804

The model of the read functions of `ltc68041.c` with their retry loops.  The SPI bus
is a parameter: the bytes it returns for a command at each attempt of a call.
-/

namespace EmbeddedBase.General.Ltc68041

open EmbeddedBase.Transition

/-- A byte array, by index. -/
abbrev Buffer := Nat → BitVec 8

/-- The bytes received after a command was transmitted, by command and attempt. -/
abbrev SpiBus := List (BitVec 8) → Nat → Buffer

/-- `crc15Table`. -/
def crc15Table : List (BitVec 16) :=
  [
    0x0, 0xc599, 0xceab, 0xb32, 0xd8cf, 0x1d56, 0x1664, 0xd3fd, 0xf407, 0x319e,
    0x3aac, 0xff35, 0x2cc8, 0xe951, 0xe263, 0x27fa, 0xad97, 0x680e, 0x633c, 0xa6a5,
    0x7558, 0xb0c1, 0xbbf3, 0x7e6a, 0x5990, 0x9c09, 0x973b, 0x52a2, 0x815f, 0x44c6,
    0x4ff4, 0x8a6d, 0x5b2e, 0x9eb7, 0x9585, 0x501c, 0x83e1, 0x4678, 0x4d4a, 0x88d3,
    0xaf29, 0x6ab0, 0x6182, 0xa41b, 0x77e6, 0xb27f, 0xb94d, 0x7cd4, 0xf6b9, 0x3320,
    0x3812, 0xfd8b, 0x2e76, 0xebef, 0xe0dd, 0x2544, 0x2be, 0xc727, 0xcc15, 0x98c,
    0xda71, 0x1fe8, 0x14da, 0xd143, 0xf3c5, 0x365c, 0x3d6e, 0xf8f7, 0x2b0a, 0xee93,
    0xe5a1, 0x2038, 0x7c2, 0xc25b, 0xc969, 0xcf0, 0xdf0d, 0x1a94, 0x11a6, 0xd43f,
    0x5e52, 0x9bcb, 0x90f9, 0x5560, 0x869d, 0x4304, 0x4836, 0x8daf, 0xaa55, 0x6fcc,
    0x64fe, 0xa167, 0x729a, 0xb703, 0xbc31, 0x79a8, 0xa8eb, 0x6d72, 0x6640, 0xa3d9,
    0x7024, 0xb5bd, 0xbe8f, 0x7b16, 0x5cec, 0x9975, 0x9247, 0x57de, 0x8423, 0x41ba,
    0x4a88, 0x8f11, 0x57c, 0xc0e5, 0xcbd7, 0xe4e, 0xddb3, 0x182a, 0x1318, 0xd681,
    0xf17b, 0x34e2, 0x3fd0, 0xfa49, 0x29b4, 0xec2d, 0xe71f, 0x2286, 0xa213, 0x678a,
    0x6cb8, 0xa921, 0x7adc, 0xbf45, 0xb477, 0x71ee, 0x5614, 0x938d, 0x98bf, 0x5d26,
    0x8edb, 0x4b42, 0x4070, 0x85e9, 0xf84, 0xca1d, 0xc12f, 0x4b6, 0xd74b, 0x12d2,
    0x19e0, 0xdc79, 0xfb83, 0x3e1a, 0x3528, 0xf0b1, 0x234c, 0xe6d5, 0xede7, 0x287e,
    0xf93d, 0x3ca4, 0x3796, 0xf20f, 0x21f2, 0xe46b, 0xef59, 0x2ac0, 0xd3a, 0xc8a3,
    0xc391, 0x608, 0xd5f5, 0x106c, 0x1b5e, 0xdec7, 0x54aa, 0x9133, 0x9a01, 0x5f98,
    0x8c65, 0x49fc, 0x42ce, 0x8757, 0xa0ad, 0x6534, 0x6e06, 0xab9f, 0x7862, 0xbdfb,
    0xb6c9, 0x7350, 0x51d6, 0x944f, 0x9f7d, 0x5ae4, 0x8919, 0x4c80, 0x47b2, 0x822b,
    0xa5d1, 0x6048, 0x6b7a, 0xaee3, 0x7d1e, 0xb887, 0xb3b5, 0x762c, 0xfc41, 0x39d8,
    0x32ea, 0xf773, 0x248e, 0xe117, 0xea25, 0x2fbc, 0x846, 0xcddf, 0xc6ed, 0x374,
    0xd089, 0x1510, 0x1e22, 0xdbbb, 0xaf8, 0xcf61, 0xc453, 0x1ca, 0xd237, 0x17ae,
    0x1c9c, 0xd905, 0xfeff, 0x3b66, 0x3054, 0xf5cd, 0x2630, 0xe3a9, 0xe89b, 0x2d02,
    0xa76f, 0x62f6, 0x69c4, 0xac5d, 0x7fa0, 0xba39, 0xb10b, 0x7492, 0x5368, 0x96f1,
    0x9dc3, 0x585a, 0x8ba7, 0x4e3e, 0x450c, 0x8095]

/-- `pec15_calc`. -/
def pec15Calc (len : Nat) (data : Buffer) : BitVec 16 :=
  let step (remainder : BitVec 16) (i : Nat) : BitVec 16 :=
    let addr := ((remainder >>> 7) ^^^ (data i).setWidth 16) &&& 0xff
    (remainder <<< 8) ^^^ crc15Table.getD addr.toNat 0
  (List.range len).foldl step 16 * 2

/-- The PEC received at index `i`, high byte first. -/
def receivedPec (data : Buffer) (i : Nat) : BitVec 16 :=
  ((data i).setWidth 16 <<< 8) + (data (i + 1)).setWidth 16

/-- A command with its PEC. -/
def commandWithPec (cmd0 cmd1 : BitVec 8) : List (BitVec 8) :=
  let cmdPec := pec15Calc 2 ([cmd0, cmd1].getD · 0)
  [cmd0, cmd1, (cmdPec >>> 8).setWidth 8, cmdPec.setWidth 8]

/-- `LTC_MAX_RETRIES`. -/
def ltcMaxRetries : Nat := 10

/-- `LTC_BAD_READ`, as it is stored in a code. -/
def ltcBadRead : BitVec 16 := 0xEEEE

/-! ## Configuration registers -/

/-- The variables of `LTC6804_rdcfg`. -/
structure RdcfgState where
  rConfig : Nat → Buffer
  pecError : Int
  retries : Nat

/-- The command of `LTC6804_rdcfg`. -/
def rdcfgCommand : List (BitVec 8) :=
  [0x00, 0x02, 0x2b, 0x0A]

/-- One IC of an attempt of `LTC6804_rdcfg`. -/
def rdcfgIc (rxData : Buffer) (state : RdcfgState) (currentIc : Nat) : RdcfgState :=
  let row : Buffer := fun byte =>
    if byte < 8 then rxData (byte + currentIc * 8) else state.rConfig currentIc byte
  { state with
    rConfig := Function.update state.rConfig currentIc row
    pecError := if receivedPec row 6 ≠ pec15Calc 6 row then -1 else 0 }

/-- One attempt of `LTC6804_rdcfg`. -/
def rdcfgAttempt (spi : SpiBus) (totalIc : Nat) (state : RdcfgState) : RdcfgState :=
  let rxData := spi rdcfgCommand state.retries
  let state := (List.range totalIc).foldl (rdcfgIc rxData) state
  { state with retries := state.retries + 1 }

/-- `LTC6804_rdcfg`, with its variables when it returns. -/
def rdcfg (spi : SpiBus) (totalIc : Nat) (rConfig : Nat → Buffer) : RdcfgState :=
  repeatWhile (fun state => state.retries < ltcMaxRetries ∧ state.pecError = -1)
    (rdcfgAttempt spi totalIc) ltcMaxRetries ⟨rConfig, -1, 0⟩

/-! ## COMM registers -/

/-- The variables of `read_68` and `LTC6804_rdcomm`. -/
structure RdcommState where
  readBuffer : Buffer
  pecError : Int
  retries : Nat

/-- One IC of `read_68`. -/
def read68Ic (data : Buffer) (state : RdcommState) (currentIc : Nat) : RdcommState :=
  let rxData : Buffer := fun i =>
    if currentIc * 8 ≤ i ∧ i < currentIc * 8 + 8 then data i else state.readBuffer i
  { state with
    readBuffer := rxData
    pecError :=
      if receivedPec rxData (currentIc * 8 + 6) ≠
          pec15Calc 6 fun i => rxData (currentIc * 8 + i) then
        -1
      else
        state.pecError }

/-- `read_68`. -/
def read68 (spi : SpiBus) (totalIc : Nat) (cmd0 cmd1 : BitVec 8) (state : RdcommState) :
    RdcommState :=
  let data := spi (commandWithPec cmd0 cmd1) state.retries
  (List.range totalIc).foldl (read68Ic data) { state with pecError := 0 }

/-- One attempt of `LTC6804_rdcomm`. -/
def rdcommAttempt (spi : SpiBus) (totalIc : Nat) (state : RdcommState) : RdcommState :=
  let state := read68 spi totalIc 0x07 0x22 state
  { state with retries := state.retries + 1 }

/-- `LTC6804_rdcomm`, with its variables when it returns. -/
def rdcomm (spi : SpiBus) (totalIc : Nat) (readBuffer : Buffer) : RdcommState :=
  repeatWhile (fun state => state.retries < ltcMaxRetries ∧ state.pecError = -1)
    (rdcommAttempt spi totalIc) ltcMaxRetries ⟨readBuffer, -1, 0⟩

/-- `readData` when `LTC6804_rdcomm` returns. -/
def rdcommReadData (totalIc : Nat) (readData : Nat → Buffer) (state : RdcommState) :
    Nat → Buffer :=
  fun currentIc byte =>
    if currentIc < totalIc ∧ byte < 6 then state.readBuffer (byte + 8 * currentIc)
    else readData currentIc byte

/-! ## Auxiliary registers -/

/-- The variables of `LTC6804_rdaux`, and the number of transfers of the group being
read. -/
structure AuxState where
  auxCodes : Nat → Nat → BitVec 16
  dataCounter : BitVec 8
  pecError : Int
  retries : Nat
  attempts : Nat

/-- The command of `LTC6804_rdaux_reg`. -/
def rdauxCommand (reg : Nat) : List (BitVec 8) :=
  if reg = 1 then commandWithPec 0x00 0x0C
  else if reg = 2 then commandWithPec 0x00 0x0e
  else commandWithPec 0x00 0x0C

/-- Store one code. -/
def setCode (auxCodes : Nat → Nat → BitVec 16) (ic index : Nat) (code : BitVec 16) :
    Nat → Nat → BitVec 16 :=
  Function.update auxCodes ic (Function.update (auxCodes ic) index code)

/-- The parsing loop of `LTC6804_rdaux` for one IC. -/
def parseGpio (data : Buffer) (reg currentIc : Nat) (state : AuxState) : AuxState :=
  let parse (state : AuxState) (currentGpio : Nat) : AuxState :=
    let counter := state.dataCounter.toNat
    let parsedAux := (data counter).setWidth 16 + ((data (counter + 1)).setWidth 16 <<< 8)
    { state with
      auxCodes := setCode state.auxCodes currentIc (currentGpio + (reg - 1) * 3) parsedAux
      dataCounter := state.dataCounter + 2 }
  (List.range 3).foldl parse state

/-- One IC of an attempt of `LTC6804_rdaux` for `reg == 0`. -/
def rdauxIc (data : Buffer) (gpioReg : Nat) (state : AuxState) (currentIc : Nat) : AuxState :=
  let state := parseGpio data gpioReg currentIc state
  let state :=
    if receivedPec data state.dataCounter.toNat =
        pec15Calc 6 fun i => data (currentIc * 8 + i) then
      { state with pecError := 0 }
    else
      { state with
        auxCodes :=
          if state.retries = ltcMaxRetries then
            setCode (setCode state.auxCodes currentIc (gpioReg - 1) ltcBadRead) currentIc
              gpioReg ltcBadRead
          else
            state.auxCodes
        pecError := -1 }
  { state with retries := state.retries + 1, dataCounter := state.dataCounter + 2 }

/-- One attempt of `LTC6804_rdaux` for `reg == 0`. -/
def rdauxAttempt (spi : SpiBus) (totalIc gpioReg : Nat) (state : AuxState) : AuxState :=
  let data := spi (rdauxCommand gpioReg) state.attempts
  let state := (List.range totalIc).foldl (rdauxIc data gpioReg) { state with dataCounter := 0 }
  { state with attempts := state.attempts + 1 }

/-- The body of the loop over `gpio_reg` of `LTC6804_rdaux` for `reg == 0`. -/
def rdauxGroup (spi : SpiBus) (totalIc gpioReg : Nat) (state : AuxState) : AuxState :=
  repeatWhile
    (fun state => state.retries < ltcMaxRetries ∧ (state.pecError = -1 ∨ state.pecError = 1))
    (rdauxAttempt spi totalIc gpioReg) ltcMaxRetries
    { state with
      pecError := if state.pecError ≠ -1 then 1 else state.pecError
      retries := 0
      attempts := 0 }

/-- One IC of an attempt of `LTC6804_rdaux` for `reg != 0`. -/
def rdauxSingleIc (data : Buffer) (reg : Nat) (state : AuxState) (currentIc : Nat) :
    AuxState :=
  let state := parseGpio data reg currentIc state
  { state with
    pecError :=
      if receivedPec data state.dataCounter.toNat ≠
          pec15Calc 6 fun i => data (currentIc * 8 + i) then
        -1
      else
        0
    dataCounter := state.dataCounter + 2 }

/-- One attempt of `LTC6804_rdaux` for `reg != 0`. -/
def rdauxSingleAttempt (spi : SpiBus) (totalIc reg : Nat) (state : AuxState) : AuxState :=
  let data := spi (rdauxCommand reg) state.attempts
  let state := (List.range totalIc).foldl (rdauxSingleIc data reg) state
  { state with attempts := state.attempts + 1 }

/-- What `LTC6804_rdaux` returns and stores, and the number of transfers of each group
it was asked for. -/
structure RdauxResult where
  pecError : Int
  auxCodes : Nat → Nat → BitVec 16
  attempts : List Nat

/-- `LTC6804_rdaux`. -/
def rdaux (spi : SpiBus) (reg totalIc : Nat) (auxCodes : Nat → Nat → BitVec 16) :
    RdauxResult :=
  let initial : AuxState := ⟨auxCodes, 0, 1, 0, 0⟩
  if reg = 0 then
    let groupA := rdauxGroup spi totalIc 1 initial
    let groupB := rdauxGroup spi totalIc 2 groupA
    ⟨groupB.pecError, groupB.auxCodes, [groupA.attempts, groupB.attempts]⟩
  else
    let state := repeatWhile
      (fun state : AuxState => state.retries < ltcMaxRetries ∧ state.pecError = -1)
      (rdauxSingleAttempt spi totalIc reg) ltcMaxRetries initial
    ⟨state.pecError, state.auxCodes, [state.attempts]⟩

end EmbeddedBase.General.Ltc68041
