import EmbeddedBase.Dev.Renode.Stmcan.Filter
import EmbeddedBase.Transition.Machine

/-!
# The emulated bxCAN

The model of `STMCAN_NER.cs`: the register file, the two receive FIFOs, the filter banks and
the four interrupt lines, with the accesses of the processor and the frames from the bus.
How `List.Sort` arranges the banks of a FIFO is a parameter; the filters of a slave are those
of its master.
-/

namespace EmbeddedBase.Dev.Renode

open EmbeddedBase.Transition

/-- `(word & mask) != 0`. -/
def has (word mask : BitVec 32) : Bool :=
  word &&& mask ≠ 0

theorem has_zero (mask : BitVec 32) : has 0 mask = false := by
  unfold has
  rw [decide_eq_false_iff_not, not_not]
  exact BitVec.zero_and

/-- The bits of a mask set or cleared. -/
def assign (word mask : BitVec 32) (value : Bool) : BitVec 32 :=
  if value then word ||| mask else word &&& ~~~mask

/-- The bit at a position. -/
def bitMask (position : Nat) : BitVec 32 :=
  1 <<< position

/-! ## The receive FIFOs -/

/-- `ReceiveFifoRegister`, with its queue. -/
structure ReceiveFifoRegister where
  fifoFull : Bool
  fifoOverrun : Bool
  rxFifo : List CanMessage

/-- `MaxMessagesInFifo`. -/
def maxMessagesInFifo : Nat := 3

namespace ReceiveFifoRegister

/-- `FULL`. -/
def full : BitVec 32 := bitMask 3

/-- `FOVR`. -/
def fovr : BitVec 32 := bitMask 4

/-- `RFOM`. -/
def rfom : BitVec 32 := bitMask 5

/-- `SetValue`, without the update of the interrupt line. -/
def setValue (value : BitVec 32) (rfr : ReceiveFifoRegister) : ReceiveFifoRegister where
  fifoFull := if has value full then false else rfr.fifoFull
  fifoOverrun := if has value fovr then false else rfr.fifoOverrun
  rxFifo := if has value rfom then rfr.rxFifo.tail else rfr.rxFifo

/-- `GetValue`. -/
def getValue (rfr : ReceiveFifoRegister) : BitVec 32 :=
  (if rfr.fifoFull then full else 0) ||| (if rfr.fifoOverrun then fovr else 0) |||
    (BitVec.ofNat 32 rfr.rxFifo.length &&& 0x3)

/-- `HasMessagesPending`. -/
def hasMessagesPending (rfr : ReceiveFifoRegister) : Bool :=
  0 < rfr.rxFifo.length

/-- `ReceiveMessage`. -/
def receiveMessage (msg : CanMessage) (rxFifoLockedMode : Bool) (rfr : ReceiveFifoRegister) :
    ReceiveFifoRegister :=
  if rfr.rxFifo.length < 3 then
    { rfr with
      rxFifo := rfr.rxFifo ++ [msg]
      fifoFull := if rfr.rxFifo.length + 1 = maxMessagesInFifo then true else rfr.fifoFull }
  else if rxFifoLockedMode = false then
    { rfr with
      rxFifo := rfr.rxFifo.tail ++ [msg]
      fifoOverrun := true }
  else
    { rfr with fifoOverrun := true }

end ReceiveFifoRegister

/-! ## The filters -/

/-- The filter registers and banks; a slave has those of its master. -/
structure Filters where
  fmr : BitVec 32
  fm1r : BitVec 32
  fs1r : BitVec 32
  ffa1r : BitVec 32
  fa1r : BitVec 32
  filterBanks : Fin 28 → FilterBank
  fifoFiltersPrioritized : RxFifo → List (Fin 28)

/-- `List.Sort`, from the comparison of two banks. -/
abbrev BankSort :=
  (Fin 28 → Fin 28 → Int) → List (Fin 28) → List (Fin 28)

namespace Filters

/-- `FilterInitMode`. -/
def filterInitMode (filters : Filters) : Bool :=
  has filters.fmr (bitMask 0)

/-- `CAN2StartBank`. -/
def can2StartBank (filters : Filters) : BitVec 32 :=
  (filters.fmr >>> 8) &&& 0x3F

/-- `FilterMode`. -/
def filterMode (filters : Filters) (filterIdx : Fin 28) : FilterBankMode :=
  if has filters.fm1r (bitMask filterIdx) then .identifierList else .idMask

/-- `FilterScale`. -/
def filterScale (filters : Filters) (filterIdx : Fin 28) : FilterBankScale :=
  if has filters.fs1r (bitMask filterIdx) then .bits32 else .bits16

/-- `FifoAssignment`. -/
def fifoAssignment (filters : Filters) (filterIdx : Fin 28) : RxFifo :=
  if has filters.ffa1r (bitMask filterIdx) then .rxFifo1 else .rxFifo0

/-- `FilterActive`. -/
def filterActive (filters : Filters) (filterIdx : Fin 28) : Bool :=
  has filters.fa1r (bitMask filterIdx)

/-- A change of every bank. -/
def mapBanks (change : Fin 28 → FilterBank → FilterBank) (filters : Filters) : Filters :=
  { filters with filterBanks := fun i => change i (filters.filterBanks i) }

/-- `UpdateFilterCANAssignment`. -/
def updateFilterCanAssignment (filters : Filters) : Filters :=
  filters.mapBanks fun i bank =>
    { bank with belongsToMaster := i.val < filters.can2StartBank.toNat }

/-- The locals of the loop of `PrioritizeFiFoFilters`. -/
structure Prioritizing where
  firstFilterNumber : BitVec 32
  filterBanks : Fin 28 → FilterBank
  listed : List (Fin 28)

/-- The body of the loop of `PrioritizeFiFoFilters`. -/
def prioritizeBank (fifo : RxFifo) (locals : Prioritizing) (i : Fin 28) : Prioritizing :=
  let bank := locals.filterBanks i
  if bank.fifoAssignment = fifo then
    { firstFilterNumber := locals.firstFilterNumber + bank.numberOfFiltersInBank
      filterBanks := Function.update locals.filterBanks i
        { bank with firstFilterNumber := locals.firstFilterNumber }
      listed := locals.listed ++ [i] }
  else
    locals

/-- `PrioritizeFiFoFilters`. -/
def prioritizeFifoFilters (sort : BankSort) (fifo : RxFifo) (filters : Filters) : Filters :=
  let locals := (List.finRange 28).foldl (prioritizeBank fifo) ⟨0, filters.filterBanks, []⟩
  let filters := { filters with filterBanks := locals.filterBanks }
  let filters := filters.updateFilterCanAssignment
  let compare := fun i j => (filters.filterBanks i).compareTo (filters.filterBanks j)
  { filters with
    fifoFiltersPrioritized :=
      Function.update filters.fifoFiltersPrioritized fifo (sort compare locals.listed) }

/-- `FilterCANMessage`, with the FIFO that the match sets in the message. -/
def filterCanMessage (isSlave : Bool) (rxFifo : RxFifo) (msg : CanMessage) (filters : Filters) :
    Option RxFifo :=
  ((filters.fifoFiltersPrioritized rxFifo).filter fun i =>
    (filters.filterBanks i).belongsToMaster == !isSlave).findSome? fun i =>
      if (filters.filterBanks i).active then (filters.filterBanks i).matchMessage msg else none

end Filters

/-! ## The register file -/

/-- `ErrorStatusRegister`. -/
structure ErrorStatusRegister where
  errorWarningFlag : Bool
  errorPassiveFlag : Bool
  busOffFlag : Bool
  lastErrorCode : BitVec 32
  transmitErrorCounter : BitVec 32
  receiveErrorCounter : BitVec 32

namespace ErrorStatusRegister

/-- `SetValue`. -/
def setValue (value : BitVec 32) (esr : ErrorStatusRegister) : ErrorStatusRegister :=
  { esr with
    lastErrorCode := (value >>> 4) &&& 0x7
    transmitErrorCounter := (value >>> 16) &&& 0xFF
    receiveErrorCounter := (value >>> 24) &&& 0xFF }

/-- `GetValue`. -/
def getValue (esr : ErrorStatusRegister) : BitVec 32 :=
  (if esr.errorWarningFlag then bitMask 0 else 0) |||
    (if esr.errorPassiveFlag then bitMask 1 else 0) |||
    (if esr.busOffFlag then bitMask 2 else 0) |||
    ((esr.lastErrorCode &&& 0x7) <<< 4) |||
    ((esr.transmitErrorCounter &&& 0xFF) <<< 16) |||
    ((esr.receiveErrorCounter &&& 0xFF) <<< 24)

/-- `LECErrorPending`. -/
def lecErrorPending (esr : ErrorStatusRegister) : Bool :=
  0x0 < esr.lastErrorCode ∧ esr.lastErrorCode < 0x7

end ErrorStatusRegister

/-- The transmit mailboxes. -/
inductive Mailbox where
  | mailbox0
  | mailbox1
  | mailbox2
  deriving DecidableEq

/-- The number of a mailbox. -/
def Mailbox.index : Mailbox → Nat
  | mailbox0 => 0
  | mailbox1 => 1
  | mailbox2 => 2

/-- The registers of a transmit mailbox. -/
structure TxMailbox where
  ti : BitVec 32
  tdt : BitVec 32
  tdl : BitVec 32
  tdh : BitVec 32

/-- `CAN_Tx`, `CAN_Rx0`, `CAN_Rx1` and `CAN_SCE`. -/
inductive InterruptLine where
  | tx
  | rx0
  | rx1
  | sce
  deriving DecidableEq

/-- The controller.  The control, status, interrupt enable and bit timing registers are kept
as words. -/
structure Stmcan where
  mcr : BitVec 32
  msr : BitVec 32
  tsr : BitVec 32
  rfr : RxFifo → ReceiveFifoRegister
  ier : BitVec 32
  esr : ErrorStatusRegister
  btr : BitVec 32
  mailboxes : Mailbox → TxMailbox
  filters : Filters
  connections : InterruptLine → Bool

namespace Stmcan

/-! ## Masks -/

/-- `MasterControlRegister.RESET`. -/
def mcrReset : BitVec 32 := bitMask 15

/-- `MasterControlRegister.AWUM`. -/
def mcrAwum : BitVec 32 := bitMask 5

/-- `MasterControlRegister.RFLM`. -/
def mcrRflm : BitVec 32 := bitMask 3

/-- `MasterControlRegister.SLEEP`. -/
def mcrSleep : BitVec 32 := bitMask 1

/-- `MasterControlRegister.INRQ`. -/
def mcrInrq : BitVec 32 := bitMask 0

/-- `MasterStatusRegister.SLAKI`. -/
def msrSlaki : BitVec 32 := bitMask 4

/-- `MasterStatusRegister.WKUI`. -/
def msrWkui : BitVec 32 := bitMask 3

/-- `MasterStatusRegister.ERRI`. -/
def msrErri : BitVec 32 := bitMask 2

/-- `MasterStatusRegister.SLAK`. -/
def msrSlak : BitVec 32 := bitMask 1

/-- `MasterStatusRegister.INAK`. -/
def msrInak : BitVec 32 := bitMask 0

/-- `BitTimingRegister.SILM`. -/
def btrSilm : BitVec 32 := bitMask 31

/-- `BitTimingRegister.LBKM`. -/
def btrLbkm : BitVec 32 := bitMask 30

/-! ## The interrupt lines -/

/-- `EnableTransmitInterrupt`. -/
def enableTransmitInterrupt (can : Stmcan) : Bool :=
  has can.ier (bitMask 0) &&
    (has can.tsr (bitMask 0) || has can.tsr (bitMask 8) || has can.tsr (bitMask 16))

/-- The interrupt condition of a FIFO, from its three enable bits. -/
def enableFifoInterrupt (fifo : RxFifo) (fmpie ffie fovie : BitVec 32) (can : Stmcan) : Bool :=
  (has can.ier fmpie && (can.rfr fifo).hasMessagesPending) ||
    (has can.ier ffie && (can.rfr fifo).fifoFull) ||
    (has can.ier fovie && (can.rfr fifo).fifoOverrun)

/-- `EnableFifo0Interrupt`. -/
def enableFifo0Interrupt (can : Stmcan) : Bool :=
  can.enableFifoInterrupt .rxFifo0 (bitMask 1) (bitMask 2) (bitMask 3)

/-- `EnableFifo1Interrupt`. -/
def enableFifo1Interrupt (can : Stmcan) : Bool :=
  can.enableFifoInterrupt .rxFifo1 (bitMask 4) (bitMask 5) (bitMask 6)

/-- `EnableSCEInterrupt`. -/
def enableSceInterrupt (can : Stmcan) : Bool :=
  (has can.ier (bitMask 15) && has can.msr msrErri) ||
    (has can.ier (bitMask 8) && can.esr.errorWarningFlag) ||
    (has can.ier (bitMask 9) && can.esr.errorPassiveFlag) ||
    (has can.ier (bitMask 10) && can.esr.busOffFlag) ||
    (has can.ier (bitMask 11) && can.esr.lecErrorPending) ||
    (has can.ier (bitMask 17) && has can.msr msrSlaki) ||
    (has can.ier (bitMask 16) && has can.msr msrWkui)

/-- A line takes a level. -/
def connect (line : InterruptLine) (level : Bool) (can : Stmcan) : Stmcan :=
  { can with connections := Function.update can.connections line level }

/-- `UpdateTransmitInterruptLine`. -/
def updateTransmitInterruptLine (can : Stmcan) : Stmcan :=
  can.connect .tx can.enableTransmitInterrupt

/-- `UpdateFifo0InterruptLine` and `UpdateFifo1InterruptLine`. -/
def updateFifoInterruptLine (fifo : RxFifo) (can : Stmcan) : Stmcan :=
  match fifo with
  | .rxFifo0 => can.connect .rx0 can.enableFifo0Interrupt
  | .rxFifo1 => can.connect .rx1 can.enableFifo1Interrupt

/-- `UpdateSCEInterruptLine`. -/
def updateSceInterruptLine (can : Stmcan) : Stmcan :=
  can.connect .sce can.enableSceInterrupt

end Stmcan

/-! ## Receiving -/

/-- What an access or a frame does: a message is handed to a FIFO, or leaves it; a frame is
sent; a read returns a value. -/
inductive CanEffect where
  | received (fifo : RxFifo) (msg : CanMessage)
  | released (fifo : RxFifo) (msg : CanMessage)
  | sent (id : BitVec 32) (data : Option (List (BitVec 8)))
  | value (value : BitVec 32)

namespace Stmcan

/-- The register of a FIFO takes a value, and its line is updated. -/
def setRfr (fifo : RxFifo) (rfr : ReceiveFifoRegister) (can : Stmcan) : Stmcan :=
  { can with rfr := Function.update can.rfr fifo rfr }.updateFifoInterruptLine fifo

/-- `CAN_RFR[fifo].SetValue`. -/
def setValueRfr (fifo : RxFifo) (value : BitVec 32) (can : Stmcan) : List CanEffect × Stmcan :=
  let released := if has value ReceiveFifoRegister.rfom then (can.rfr fifo).rxFifo.take 1 else []
  (released.map (.released fifo), can.setRfr fifo ((can.rfr fifo).setValue value))

/-- `ReceiveCANMessage`, for the FIFO set in the message. -/
def receiveCanMessage (fifo : RxFifo) (msg : CanMessage) (can : Stmcan) : Stmcan :=
  let lockedMode := has can.mcr mcrRflm
  can.setRfr fifo ((can.rfr fifo).receiveMessage msg lockedMode)

/-- The body of the loop over the FIFOs of a message that arrives. -/
def offer (isSlave : Bool) (msg : CanMessage) (can : Stmcan) (fifo : RxFifo) :
    List CanEffect × Stmcan :=
  match can.filters.filterCanMessage isSlave fifo msg with
  | some rxFifo => ([.received rxFifo msg], can.receiveCanMessage rxFifo msg)
  | none => ([], can)

/-- The loop over the FIFOs. -/
def offerBoth (isSlave : Bool) (msg : CanMessage) (can : Stmcan) : List CanEffect × Stmcan :=
  let (first, can) := can.offer isSlave msg .rxFifo0
  let (second, can) := can.offer isSlave msg .rxFifo1
  (first ++ second, can)

/-- `OnFrameReceived`. -/
def onFrameReceived (isSlave : Bool) (message : CanMessageFrame) (can : Stmcan) :
    List CanEffect × Stmcan :=
  if has can.mcr mcrSleep then
    let can :=
      if has can.mcr mcrAwum then
        { can with
          mcr := assign can.mcr mcrSleep false
          msr := assign can.msr msrSlak false }
      else
        can
    let can := { can with msr := assign can.msr msrWkui true }
    ([], can.updateSceInterruptLine)
  else if has can.btr btrLbkm = false then
    can.offerBoth isSlave (.ofFrame message)
  else
    ([], can)

/-! ## Sending -/

/-- The first part of `TransmitData`, to the bus; `connected` says that `FrameSent` has a
handler. -/
def sendFrame (connected : Bool) (msg : CanMessage) (can : Stmcan) : List CanEffect × Stmcan :=
  if has can.btr btrSilm = false then
    if connected then
      ([.sent msg.rir msg.data], can)
    else
      ([], { can with esr := { can.esr with lastErrorCode := 0x5 } }.updateSceInterruptLine)
  else
    ([], can)

/-- The second part of `TransmitData`, in loopback mode. -/
def loopBack (isSlave : Bool) (msg : CanMessage) (can : Stmcan) : List CanEffect × Stmcan :=
  if has can.btr btrLbkm then can.offerBoth isSlave msg else ([], can)

/-- `TransmitData`. -/
def transmitData (connected isSlave : Bool) (msg : CanMessage) (can : Stmcan) :
    List CanEffect × Stmcan :=
  let (sent, can) := can.sendFrame connected msg
  let (received, can) := can.loopBack isSlave msg
  (sent ++ received, can)

/-- `TransmitStatusRegister.SetValue`: one bit of the value clears the bits of a mask. -/
def clearWhen (value bit mask tsr : BitVec 32) : BitVec 32 :=
  if has value bit then tsr &&& ~~~mask else tsr

/-- `TransmitStatusRegister.SetValue`. -/
def setValueTsr (value tsr : BitVec 32) : BitVec 32 :=
  let tsr := clearWhen value (bitMask 19) (bitMask 19) tsr
  let tsr := clearWhen value (bitMask 18) (bitMask 18) tsr
  let tsr := clearWhen value (bitMask 17) (bitMask 17) tsr
  let tsr := clearWhen value (bitMask 11) (bitMask 11) tsr
  let tsr := clearWhen value (bitMask 10) (bitMask 10) tsr
  let tsr := clearWhen value (bitMask 9) (bitMask 9) tsr
  -- `TERR0` clears `TERR1`.
  let tsr := clearWhen value (bitMask 3) (bitMask 11) tsr
  let tsr := clearWhen value (bitMask 2) (bitMask 2) tsr
  let tsr := clearWhen value (bitMask 1) (bitMask 1) tsr
  let tsr := clearWhen value (bitMask 0) (bitMask 1 ||| bitMask 2 ||| bitMask 3 ||| bitMask 0) tsr
  let tsr :=
    clearWhen value (bitMask 8) (bitMask 9 ||| bitMask 10 ||| bitMask 11 ||| bitMask 8) tsr
  clearWhen value (bitMask 16) (bitMask 17 ||| bitMask 18 ||| bitMask 19 ||| bitMask 16) tsr

/-- `TxMailbox0Done`, `TxMailbox1Done` and `TxMailbox2Done`. -/
def txMailboxDone (i : Mailbox) (tsr : BitVec 32) : BitVec 32 :=
  tsr ||| (bitMask (26 + i.index) ||| bitMask (8 * i.index + 1) ||| bitMask (8 * i.index))

/-- A register of a mailbox takes a value. -/
def setMailbox (i : Mailbox) (change : TxMailbox → TxMailbox) (can : Stmcan) : Stmcan :=
  { can with mailboxes := Function.update can.mailboxes i (change (can.mailboxes i)) }

/-- A write of `CAN_TI0R`, `CAN_TI1R` or `CAN_TI2R`. -/
def writeTi (connected isSlave : Bool) (i : Mailbox) (value : BitVec 32) (can : Stmcan) :
    List CanEffect × Stmcan :=
  let can := can.setMailbox i fun mailbox => { mailbox with ti := value &&& 0xFFFFFFFE }
  if has value (bitMask 0) then
    let mailbox := can.mailboxes i
    let txMsg := CanMessage.ofRegisters mailbox.ti mailbox.tdt mailbox.tdl mailbox.tdh
    let (effects, can) := can.transmitData connected isSlave txMsg
    let can := { can with tsr := txMailboxDone i can.tsr }
    (effects, can.updateTransmitInterruptLine)
  else
    ([], can)

/-! ## Reset -/

/-- `DeviceRegisters.Reset`. -/
def registersReset (resetFilters : Bool) (can : Stmcan) : List CanEffect × Stmcan :=
  let can := { can with mcr := 0x00010002, msr := 0x00000C02, tsr := 0x1C000000 }
  let (first, can) := can.setValueRfr .rxFifo0 0x0
  let (second, can) := can.setValueRfr .rxFifo1 0x0
  let can :=
    { can with
      ier := 0x0
      esr := ⟨false, false, false, 0, 0, 0⟩
      btr := 0x01230000 }
  let can :=
    if resetFilters then
      { can with
        filters :=
          { can.filters with
            fmr := 0x2A1C0E01
            fm1r := 0x0
            fs1r := 0x0
            ffa1r := 0x0
            fa1r := 0x0 } }
    else
      can
  (first ++ second, can)

/-- `Reset`. -/
def reset (isSlave : Bool) (can : Stmcan) : List CanEffect × Stmcan :=
  let (effects, can) := can.registersReset !isSlave
  if isSlave then
    (effects, can)
  else
    (effects, { can with
      filters := (can.filters.mapBanks fun _ bank =>
        { bank with
          active := false
          mode := .idMask
          fifoAssignment := .rxFifo0
          scale := .bits16 }).updateFilterCanAssignment })

/-- A controller with every register cleared. -/
def blank : Stmcan where
  mcr := 0
  msr := 0
  tsr := 0
  rfr _ := ⟨false, false, []⟩
  ier := 0
  esr := ⟨false, false, false, 0, 0, 0⟩
  btr := 0
  mailboxes _ := ⟨0, 0, 0, 0⟩
  filters :=
    ⟨0, 0, 0, 0, 0, fun _ => ⟨false, .idMask, .bits16, .rxFifo0, fun _ => 0, 0, true⟩,
      fun _ => []⟩
  connections _ := false

/-- The controller after its construction; the filters of a slave come from its master. -/
def initial (isSlave : Bool) : Stmcan :=
  (blank.reset isSlave).2

/-- The mode that a write of `CAN_MCR` requests: initialisation, sleep or normal. -/
def enterMode (value : BitVec 32) (can : Stmcan) : Stmcan :=
  if has value mcrInrq ∧ has value mcrSleep = false then
    { can with msr := assign (assign can.msr msrInak true) msrSlak false }
  else if has value mcrSleep ∧ has value mcrInrq = false then
    let msr := assign (assign (assign can.msr msrSlak true) msrSlaki true) msrInak false
    { can with msr }.updateSceInterruptLine
  else
    { can with msr := assign (assign can.msr msrSlak false) msrInak false }

/-- A write of `CAN_MCR`. -/
def writeMcr (value : BitVec 32) (can : Stmcan) : List CanEffect × Stmcan :=
  let can := { can with mcr := value }.enterMode value
  if has value mcrReset then can.registersReset true else ([], can)

end Stmcan

/-! ## Accesses -/

/-- `registerOffset`. -/
inductive RegisterOffset where
  | mcr
  | msr
  | tsr
  | rfr (fifo : RxFifo)
  | ier
  | esr
  | btr
  | ti (i : Mailbox)
  | tdt (i : Mailbox)
  | tdl (i : Mailbox)
  | tdh (i : Mailbox)
  | ri (fifo : RxFifo)
  | rdt (fifo : RxFifo)
  | rl (fifo : RxFifo)
  | rh (fifo : RxFifo)
  | fmr
  | fm1r
  | fs1r
  | ffa1r
  | fa1r
  | filter (bankIdx : Fin 28) (regIdx : RegIdx)
  deriving DecidableEq

namespace RegisterOffset

/-- The register at an address, with `AddressToFilterBankIdx` and `AddressToRegIdx`. -/
def ofAddress (address : Nat) : Option RegisterOffset :=
  if 0x240 ≤ address ∧ address ≤ 0x31C then
    some (.filter (.ofNat 28 ((address - 0x240) / 8))
      (if (address - 0x240) / 4 % 2 = 0 then .first else .second))
  else
    match address with
    | 0x00 => some .mcr
    | 0x04 => some .msr
    | 0x08 => some .tsr
    | 0x0C => some (.rfr .rxFifo0)
    | 0x10 => some (.rfr .rxFifo1)
    | 0x14 => some .ier
    | 0x18 => some .esr
    | 0x1C => some .btr
    | 0x180 => some (.ti .mailbox0)
    | 0x184 => some (.tdt .mailbox0)
    | 0x188 => some (.tdl .mailbox0)
    | 0x18C => some (.tdh .mailbox0)
    | 0x190 => some (.ti .mailbox1)
    | 0x194 => some (.tdt .mailbox1)
    | 0x198 => some (.tdl .mailbox1)
    | 0x19C => some (.tdh .mailbox1)
    | 0x1A0 => some (.ti .mailbox2)
    | 0x1A4 => some (.tdt .mailbox2)
    | 0x1A8 => some (.tdl .mailbox2)
    | 0x1AC => some (.tdh .mailbox2)
    | 0x1B0 => some (.ri .rxFifo0)
    | 0x1B4 => some (.rdt .rxFifo0)
    | 0x1B8 => some (.rl .rxFifo0)
    | 0x1BC => some (.rh .rxFifo0)
    | 0x1C0 => some (.ri .rxFifo1)
    | 0x1C4 => some (.rdt .rxFifo1)
    | 0x1C8 => some (.rl .rxFifo1)
    | 0x1CC => some (.rh .rxFifo1)
    | 0x200 => some .fmr
    | 0x204 => some .fm1r
    | 0x20C => some .fs1r
    | 0x214 => some .ffa1r
    | 0x21C => some .fa1r
    | _ => none

/-- `AddressIsWithinFilterRegistersArea`. -/
def isFilterRegister : RegisterOffset → Bool
  | fmr | fm1r | fs1r | ffa1r | fa1r | filter _ _ => true
  | _ => false

end RegisterOffset

/-- The filter registers of `WriteDoubleWord`; other offsets leave the filters alone. -/
def Filters.write (sort : BankSort) (offset : RegisterOffset) (value : BitVec 32)
    (filters : Filters) : Filters :=
  match offset with
  | .filter bankIdx regIdx =>
      if filters.filterInitMode ∨ filters.filterActive bankIdx = false then
        filters.mapBanks fun i bank =>
          if i = bankIdx then { bank with fr := Function.update bank.fr regIdx value } else bank
      else
        filters
  | .fmr => { filters with fmr := value }.updateFilterCanAssignment
  | .fm1r =>
      if filters.filterInitMode then
        let filters := { filters with fm1r := value }
        filters.mapBanks fun i bank => { bank with mode := filters.filterMode i }
      else
        filters
  | .fs1r =>
      if filters.filterInitMode then
        let filters := { filters with fs1r := value }
        filters.mapBanks fun i bank => { bank with scale := filters.filterScale i }
      else
        filters
  | .ffa1r =>
      if filters.filterInitMode then
        let filters := { filters with ffa1r := value }
        filters.mapBanks fun i bank => { bank with fifoAssignment := filters.fifoAssignment i }
      else
        filters
  | .fa1r =>
      let filters := { filters with fa1r := value &&& 0xFFFFFFF }
      let filters := filters.mapBanks fun i bank => { bank with active := filters.filterActive i }
      (filters.prioritizeFifoFilters sort .rxFifo0).prioritizeFifoFilters sort .rxFifo1
  | _ => filters

namespace Stmcan

/-- `WriteDoubleWord`, on a register. -/
def writeDoubleWord (sort : BankSort) (connected isSlave : Bool) (offset : RegisterOffset)
    (value : BitVec 32) (can : Stmcan) : List CanEffect × Stmcan :=
  if offset.isFilterRegister then
    if isSlave then ([], can) else ([], { can with filters := can.filters.write sort offset value })
  else
    match offset with
    | .msr =>
        let can :=
          { can with msr := can.msr &&& ~~~(value &&& (msrSlaki ||| msrWkui ||| msrErri)) }
        ([], can.updateSceInterruptLine)
    | .mcr => can.writeMcr value
    | .tsr => ([], { can with tsr := setValueTsr value can.tsr }.updateTransmitInterruptLine)
    | .rfr fifo => can.setValueRfr fifo value
    | .ier =>
        let can := { can with ier := value }
        let can := can.updateTransmitInterruptLine
        let can := can.updateFifoInterruptLine .rxFifo0
        let can := can.updateFifoInterruptLine .rxFifo1
        ([], can.updateSceInterruptLine)
    | .esr => ([], { can with esr := can.esr.setValue value }.updateSceInterruptLine)
    | .btr => ([], if has can.msr msrInak then { can with btr := value } else can)
    | .ti i => can.writeTi connected isSlave i value
    | .tdt i => ([], can.setMailbox i fun mailbox => { mailbox with tdt := value })
    | .tdl i => ([], can.setMailbox i fun mailbox => { mailbox with tdl := value })
    | .tdh i => ([], can.setMailbox i fun mailbox => { mailbox with tdh := value })
    | _ => ([], can)

/-- A register of the message at the front of a FIFO. -/
def front (fifo : RxFifo) (register : CanMessage → BitVec 32) (can : Stmcan) : BitVec 32 :=
  match (can.rfr fifo).rxFifo with
  | msg :: _ => register msg
  | [] => 0

/-- `ReadDoubleWord`, on a register. -/
def readDoubleWord (offset : RegisterOffset) (can : Stmcan) : BitVec 32 :=
  match offset with
  | .mcr => can.mcr &&& 0x000100FF
  | .msr => can.msr
  | .tsr => can.tsr
  | .rfr fifo => (can.rfr fifo).getValue
  | .ier => can.ier &&& 0x00038F7F
  | .esr => can.esr.getValue
  | .btr => if has can.msr msrInak then can.btr else 0
  | .ti i => (can.mailboxes i).ti
  | .tdt i => (can.mailboxes i).tdt
  | .tdl i => (can.mailboxes i).tdl
  | .tdh i => (can.mailboxes i).tdh
  | .ri fifo => can.front fifo (·.rir)
  | .rdt fifo => can.front fifo (·.rdtr)
  | .rl fifo => can.front fifo (·.rlr)
  | .rh fifo => can.front fifo (·.rhr)
  | .fmr => can.filters.fmr
  | .fm1r => can.filters.fm1r
  | .fs1r => can.filters.fs1r
  | .ffa1r => can.filters.ffa1r
  | .fa1r => can.filters.fa1r
  | .filter bankIdx regIdx => (can.filters.filterBanks bankIdx).fr regIdx

end Stmcan

/-- What happens to a controller: an access at an address, a frame from the bus, a reset by
the machine, or a change of the filters by the other controller that has them. -/
inductive CanCall where
  | write (address : Nat) (value : BitVec 32)
  | read (address : Nat)
  | frame (message : CanMessageFrame)
  | reset
  | share (filters : Filters)

/-- The controller. -/
def stmcan (sort : BankSort) (connected isSlave : Bool) :
    Machine Stmcan CanCall (List CanEffect) := fun can call =>
  match call with
  | .write address value =>
      match RegisterOffset.ofAddress address with
      | some offset => can.writeDoubleWord sort connected isSlave offset value
      | none => ([], can)
  | .read address =>
      match RegisterOffset.ofAddress address with
      | some offset => ([.value (can.readDoubleWord offset)], can)
      | none => ([.value 0], can)
  | .frame message => can.onFrameReceived isSlave message
  | .reset => can.reset isSlave
  | .share filters => ([], { can with filters })

end EmbeddedBase.Dev.Renode
