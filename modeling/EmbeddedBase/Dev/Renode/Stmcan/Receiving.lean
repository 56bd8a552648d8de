import EmbeddedBase.Dev.Renode.Stmcan.Device
import EmbeddedBase.Transition.Flow

/-!
# The receive FIFOs over whole runs

Whatever the processor accesses and whatever frames come in, a FIFO holds at most three
messages, releases messages in the order in which they were handed to it, and loses one only
with its overrun flag set.
-/

namespace EmbeddedBase.Dev.Renode

open EmbeddedBase.Transition

/-- The queue of a FIFO. -/
def fifoFlow (fifo : RxFifo) : Flow Stmcan CanEffect CanMessage where
  contents can := (can.rfr fifo).rxFifo
  capacity := maxMessagesInFifo
  enters
    | .received other msg => if other = fifo then some msg else none
    | _ => none
  leaves
    | .released other msg => if other = fifo then some msg else none
    | _ => none
  lost can := (can.rfr fifo).fifoOverrun

/-! ## One message -/

namespace ReceiveFifoRegister

variable (msg : CanMessage) (locked : Bool) (rfr : ReceiveFifoRegister)

theorem receiveMessage_sublist :
    (rfr.receiveMessage msg locked).rxFifo.Sublist (rfr.rxFifo ++ [msg]) := by
  unfold receiveMessage
  split
  · exact List.Sublist.refl _
  · split
    · exact (List.tail_sublist rfr.rxFifo).append_right [msg]
    · exact List.sublist_append_left rfr.rxFifo [msg]

theorem receiveMessage_within (inside : rfr.rxFifo.length ≤ maxMessagesInFifo) :
    (rfr.receiveMessage msg locked).rxFifo.length ≤ maxMessagesInFifo := by
  unfold receiveMessage maxMessagesInFifo at *
  split
  · rename_i room
    rw [List.length_append]
    exact room
  · split
    · rw [List.length_append, List.length_tail, List.length_singleton]
      omega
    · exact inside

theorem receiveMessage_stays (set : rfr.fifoOverrun = true) :
    (rfr.receiveMessage msg locked).fifoOverrun = true := by
  unfold receiveMessage
  split
  · exact set
  · split <;> rfl

/-- Without an overrun the message is behind the others. -/
theorem receiveMessage_conserves (clear : (rfr.receiveMessage msg locked).fifoOverrun = false) :
    (rfr.receiveMessage msg locked).rxFifo = rfr.rxFifo ++ [msg] := by
  unfold receiveMessage at *
  split
  · rfl
  · rename_i full
    rw [if_neg full] at clear
    split at clear <;> exact Bool.noConfusion clear

end ReceiveFifoRegister

/-! ## One operation -/

namespace Stmcan

variable {can start final other : Stmcan} {effects : List CanEffect} (fifo : RxFifo)

theorem rfr_updateFifoInterruptLine (can : Stmcan) (line : RxFifo) :
    (can.updateFifoInterruptLine line).rfr = can.rfr := by
  unfold updateFifoInterruptLine
  split <;> rfl

theorem rfr_setRfr (can : Stmcan) (place : RxFifo) (rfr : ReceiveFifoRegister) :
    (can.setRfr place rfr).rfr = Function.update can.rfr place rfr :=
  rfr_updateFifoInterruptLine _ place

/-- An operation that leaves the FIFOs alone. -/
theorem reports_same (same : other.rfr = can.rfr) : (fifoFlow fifo).Reports can [] other := by
  apply Flow.reports_of_same _ _ rfl rfl
  · exact congrArg (fun rfr => (rfr fifo).rxFifo) same
  · exact congrArg (fun rfr => (rfr fifo).fifoOverrun) same

variable {fifo} in
/-- The flow is that of the FIFOs alone. -/
theorem reports_congr (reports : (fifoFlow fifo).Reports can effects other)
    (before : start.rfr = can.rfr) (after : final.rfr = other.rfr) :
    (fifoFlow fifo).Reports start effects final := by
  rcases reports with ⟨⟨inOrder, within⟩, stays, conserves⟩
  unfold Flow.Conserves at conserves
  dsimp only [fifoFlow] at *
  rw [← before, ← after] at inOrder within stays conserves
  exact ⟨⟨inOrder, within⟩, stays, conserves⟩

/-- A message that is handed to a FIFO. -/
theorem reports_receive (place : RxFifo) (msg : CanMessage) (can : Stmcan) :
    (fifoFlow fifo).Reports can [.received place msg] (can.receiveCanMessage place msg) := by
  have rfr : (can.receiveCanMessage place msg).rfr =
      Function.update can.rfr place
        ((can.rfr place).receiveMessage msg (has can.mcr mcrRflm)) :=
    rfr_setRfr can place _
  by_cases same : place = fifo
  · subst same
    have changed : (can.receiveCanMessage place msg).rfr place =
        (can.rfr place).receiveMessage msg (has can.mcr mcrRflm) := by
      rw [rfr, Function.update_self]
    have entered : [CanEffect.received place msg].filterMap (fifoFlow place).enters = [msg] := by
      simp [fifoFlow]
    refine ⟨⟨?_, ?_⟩, ?_, ?_⟩
    · rw [entered]
      change ((can.receiveCanMessage place msg).rfr place).rxFifo.Sublist _
      rw [changed]
      exact ReceiveFifoRegister.receiveMessage_sublist msg _ _
    · intro inside
      change ((can.receiveCanMessage place msg).rfr place).rxFifo.length ≤ _
      rw [changed]
      exact ReceiveFifoRegister.receiveMessage_within msg _ _ inside
    · intro set
      change ((can.receiveCanMessage place msg).rfr place).fifoOverrun = true
      rw [changed]
      exact ReceiveFifoRegister.receiveMessage_stays msg _ _ set
    · intro clear
      change ((can.receiveCanMessage place msg).rfr place).fifoOverrun = false at clear
      rw [changed] at clear
      unfold Flow.Conserves
      rw [entered]
      change ((can.receiveCanMessage place msg).rfr place).rxFifo = _
      rw [changed]
      exact ReceiveFifoRegister.receiveMessage_conserves msg _ _ clear
  · have kept : (can.receiveCanMessage place msg).rfr fifo = can.rfr fifo := by
      rw [rfr, Function.update_of_ne (Ne.symm same)]
    apply Flow.reports_of_same
    · exact congrArg (·.rxFifo) kept
    · exact congrArg (·.fifoOverrun) kept
    · simp [fifoFlow, same]
    · rfl

theorem reports_offer (isSlave : Bool) (msg : CanMessage) (can : Stmcan) (place : RxFifo) :
    (fifoFlow fifo).Reports can (can.offer isSlave msg place).1
      (can.offer isSlave msg place).2 := by
  unfold offer
  split
  · exact reports_receive fifo _ msg can
  · exact reports_same fifo rfl

theorem reports_offerBoth (isSlave : Bool) (msg : CanMessage) (can : Stmcan) :
    (fifoFlow fifo).Reports can (can.offerBoth isSlave msg).1 (can.offerBoth isSlave msg).2 :=
  (reports_offer fifo isSlave msg can .rxFifo0).trans
    (reports_offer fifo isSlave msg (can.offer isSlave msg .rxFifo0).2 .rxFifo1)

theorem reports_onFrameReceived (isSlave : Bool) (message : CanMessageFrame) (can : Stmcan) :
    (fifoFlow fifo).Reports can (can.onFrameReceived isSlave message).1
      (can.onFrameReceived isSlave message).2 := by
  unfold onFrameReceived
  split
  · apply reports_same
    split <;> rfl
  · split
    · exact reports_offerBoth fifo isSlave _ can
    · exact reports_same fifo rfl

theorem reports_transmitData (connected isSlave : Bool) (msg : CanMessage) (can : Stmcan) :
    (fifoFlow fifo).Reports can (can.transmitData connected isSlave msg).1
      (can.transmitData connected isSlave msg).2 := by
  have sent : (fifoFlow fifo).Reports can (can.sendFrame connected msg).1
      (can.sendFrame connected msg).2 := by
    unfold sendFrame
    split
    · split
      · exact Flow.reports_of_same rfl rfl rfl rfl
      · exact reports_same fifo rfl
    · exact reports_same fifo rfl
  have received : (fifoFlow fifo).Reports (can.sendFrame connected msg).2
      ((can.sendFrame connected msg).2.loopBack isSlave msg).1
      ((can.sendFrame connected msg).2.loopBack isSlave msg).2 := by
    unfold loopBack
    split
    · exact reports_offerBoth fifo isSlave msg _
    · exact reports_same fifo rfl
  exact sent.trans received

theorem reports_writeTi (connected isSlave : Bool) (i : Mailbox) (value : BitVec 32)
    (can : Stmcan) :
    (fifoFlow fifo).Reports can (can.writeTi connected isSlave i value).1
      (can.writeTi connected isSlave i value).2 := by
  unfold writeTi
  dsimp only
  split
  · exact reports_congr (reports_transmitData fifo connected isSlave _ _) rfl rfl
  · exact reports_same fifo rfl

theorem rfr_setValueRfr (place : RxFifo) (value : BitVec 32) (can : Stmcan) :
    (can.setValueRfr place value).2.rfr =
      Function.update can.rfr place ((can.rfr place).setValue value) :=
  rfr_setRfr can place _

/-- A write of a FIFO's register releases the front at most. -/
theorem conserves_setValueRfr (place : RxFifo) (value : BitVec 32) (can : Stmcan) :
    (fifoFlow fifo).Conserves can (can.setValueRfr place value).1
      (can.setValueRfr place value).2 := by
  have entered : (can.setValueRfr place value).1.filterMap (fifoFlow fifo).enters = [] := by
    simp [setValueRfr, fifoFlow, List.filterMap_map]
  unfold Flow.Conserves
  rw [entered, List.append_nil]
  by_cases same : place = fifo
  · subst same
    have left : (can.setValueRfr place value).1.filterMap (fifoFlow place).leaves =
        if has value ReceiveFifoRegister.rfom then (can.rfr place).rxFifo.take 1 else [] := by
      simp [setValueRfr, fifoFlow, List.filterMap_map]
    change _ ++ ((can.setValueRfr place value).2.rfr place).rxFifo = (can.rfr place).rxFifo
    rw [left, rfr_setValueRfr, Function.update_self]
    unfold ReceiveFifoRegister.setValue
    dsimp only
    split
    · rw [← List.drop_one]
      exact List.take_append_drop 1 _
    · rfl
  · have left : (can.setValueRfr place value).1.filterMap (fifoFlow fifo).leaves = [] := by
      simp [setValueRfr, fifoFlow, List.filterMap_map, same]
    change _ ++ ((can.setValueRfr place value).2.rfr fifo).rxFifo = (can.rfr fifo).rxFifo
    rw [left, rfr_setValueRfr, Function.update_of_ne (Ne.symm same), List.nil_append]

theorem keeps_setValueRfr (place : RxFifo) (value : BitVec 32) (can : Stmcan) :
    (fifoFlow fifo).Keeps can (can.setValueRfr place value).1
      (can.setValueRfr place value).2 where
  inOrder := by rw [conserves_setValueRfr fifo place value can]
  within inside := by
    change ((can.setValueRfr place value).2.rfr fifo).rxFifo.length ≤ maxMessagesInFifo
    rw [rfr_setValueRfr]
    by_cases same : fifo = place
    · subst same
      rw [Function.update_self]
      unfold ReceiveFifoRegister.setValue
      dsimp only
      split
      · rw [List.length_tail]
        exact Nat.le_trans (Nat.sub_le _ 1) inside
      · exact inside
    · rw [Function.update_of_ne same]
      exact inside

/-- Only a write with the flag's bit clears it. -/
theorem reports_setValueRfr (place : RxFifo) {value : BitVec 32} (can : Stmcan)
    (kept : place = fifo → has value ReceiveFifoRegister.fovr = false) :
    (fifoFlow fifo).Reports can (can.setValueRfr place value).1
      (can.setValueRfr place value).2 where
  toKeeps := keeps_setValueRfr fifo place value can
  stays set := by
    change ((can.setValueRfr place value).2.rfr fifo).fifoOverrun = true
    rw [rfr_setValueRfr]
    by_cases same : fifo = place
    · subst same
      rw [Function.update_self]
      exact (if_neg (Bool.not_eq_true _ ▸ kept rfl)).trans set
    · rw [Function.update_of_ne same]
      exact set
  conserves _ := conserves_setValueRfr fifo place value can

theorem rfr_setValueRfr_zero (place : RxFifo) (can : Stmcan) :
    (can.setValueRfr place 0x0).2.rfr = can.rfr := by
  rw [rfr_setValueRfr]
  exact Function.update_eq_self place can.rfr

/-- A reset leaves the queues and their flags alone. -/
theorem reports_registersReset (resetFilters : Bool) (can : Stmcan) :
    (fifoFlow fifo).Reports can (can.registersReset resetFilters).1
      (can.registersReset resetFilters).2 := by
  apply reports_same
  unfold registersReset
  dsimp only
  split
  · dsimp only
    rw [rfr_setValueRfr_zero, rfr_setValueRfr_zero]
  · dsimp only
    rw [rfr_setValueRfr_zero, rfr_setValueRfr_zero]

theorem reports_reset (isSlave : Bool) (can : Stmcan) :
    (fifoFlow fifo).Reports can (can.reset isSlave).1 (can.reset isSlave).2 := by
  unfold reset
  dsimp only
  split
  · exact reports_registersReset fifo _ can
  · exact reports_congr (reports_registersReset fifo _ can) rfl rfl

theorem reports_writeMcr (value : BitVec 32) (can : Stmcan) :
    (fifoFlow fifo).Reports can (can.writeMcr value).1 (can.writeMcr value).2 := by
  have mode : ({ can with mcr := value }.enterMode value).rfr = can.rfr := by
    unfold enterMode
    split
    · rfl
    · split <;> rfl
  unfold writeMcr
  dsimp only
  split
  · exact reports_congr (reports_registersReset fifo true _) mode.symm rfl
  · exact reports_same fifo mode

theorem reports_writeDoubleWord (sort : BankSort) (connected isSlave : Bool)
    {offset : RegisterOffset} {value : BitVec 32} (can : Stmcan)
    (kept : ¬ (offset = .rfr fifo ∧ has value ReceiveFifoRegister.fovr = true)) :
    (fifoFlow fifo).Reports can (can.writeDoubleWord sort connected isSlave offset value).1
      (can.writeDoubleWord sort connected isSlave offset value).2 := by
  unfold writeDoubleWord
  by_cases filters : offset.isFilterRegister
  · rw [if_pos filters]
    split <;> exact reports_same fifo rfl
  · rw [if_neg filters]
    cases offset with
    | mcr => exact reports_writeMcr fifo value can
    | rfr place =>
        apply reports_setValueRfr
        rintro rfl
        exact Bool.eq_false_of_not_eq_true fun set => kept ⟨rfl, set⟩
    | ti i => exact reports_writeTi fifo connected isSlave i value can
    | btr =>
        apply reports_same
        dsimp only
        split <;> rfl
    | _ => exact reports_same fifo rfl

end Stmcan

/-! ## Whole runs -/

/-- The call clears the overrun flag of the FIFO. -/
def CanCall.ClearsOverrun (fifo : RxFifo) : CanCall → Prop
  | write address value =>
      RegisterOffset.ofAddress address = some (.rfr fifo) ∧
        has value ReceiveFifoRegister.fovr = true
  | _ => False

section

variable (sort : BankSort) (connected isSlave : Bool) (fifo : RxFifo)

theorem reports_step (can : Stmcan) (call : CanCall) (kept : ¬ call.ClearsOverrun fifo) :
    (fifoFlow fifo).Reports can (stmcan sort connected isSlave can call).1
      (stmcan sort connected isSlave can call).2 := by
  cases call with
  | write address value =>
      unfold stmcan
      dsimp only
      split
      · rename_i offset decoded
        apply Stmcan.reports_writeDoubleWord
        rintro ⟨rfl, set⟩
        exact kept ⟨decoded, set⟩
      · exact Stmcan.reports_same fifo rfl
  | read address =>
      unfold stmcan
      dsimp only
      split <;> exact Flow.reports_of_same rfl rfl rfl rfl
  | frame message => exact Stmcan.reports_onFrameReceived fifo isSlave message can
  | reset => exact Stmcan.reports_reset fifo isSlave can
  | share filters => exact Stmcan.reports_same fifo rfl

theorem keeps_step (can : Stmcan) (call : CanCall) :
    (fifoFlow fifo).Keeps can (stmcan sort connected isSlave can call).1
      (stmcan sort connected isSlave can call).2 := by
  by_cases clears : call.ClearsOverrun fifo
  · cases call with
    | write address value =>
        rcases clears with ⟨decoded, -⟩
        unfold stmcan
        dsimp only
        rw [decoded]
        exact Stmcan.keeps_setValueRfr fifo fifo value can
    | _ => exact clears.elim
  · exact (reports_step sort connected isSlave fifo can call clears).toKeeps

end

/-- The messages handed to a FIFO. -/
def receivedBy (fifo : RxFifo) (effects : List CanEffect) : List CanMessage :=
  effects.filterMap (fifoFlow fifo).enters

/-- The messages released from a FIFO. -/
def releasedBy (fifo : RxFifo) (effects : List CanEffect) : List CanMessage :=
  effects.filterMap (fifoFlow fifo).leaves

/-- Over every run a FIFO holds at most three messages, and what was released from it and what
it holds is, in order, part of what it held and what was handed to it; it is all of that when
the overrun flag is clear at the end and no write cleared it. -/
theorem can_fifo_in_order (sort : BankSort) (connected isSlave : Bool) (fifo : RxFifo)
    {start : Stmcan} (inside : (start.rfr fifo).rxFifo.length ≤ 3) (calls : List CanCall) :
    let final := (stmcan sort connected isSlave).final start calls
    let effects := ((stmcan sort connected isSlave).replies start calls).flatten
    (final.rfr fifo).rxFifo.length ≤ 3 ∧
      (releasedBy fifo effects ++ (final.rfr fifo).rxFifo).Sublist
        ((start.rfr fifo).rxFifo ++ receivedBy fifo effects) ∧
      ((∀ call ∈ calls, ¬ call.ClearsOverrun fifo) → (final.rfr fifo).fifoOverrun = false →
        releasedBy fifo effects ++ (final.rfr fifo).rxFifo =
          (start.rfr fifo).rxFifo ++ receivedBy fifo effects) := by
  have kept := Flow.keeps_run (keeps_step sort connected isSlave fifo) start calls
  refine ⟨kept.within inside, kept.inOrder, ?_⟩
  intro none clear
  have reports := Flow.reports_run (reports_step sort connected isSlave fifo) start none
  exact reports.conserves clear

/-- A frame comes in behind another message, which is released. -/
theorem can_fifo_in_order_released :
    let bank : FilterBank := ⟨true, .identifierList, .bits16, .rxFifo0, fun _ => 7 <<< 21, 0, true⟩
    let start : Stmcan :=
      { Stmcan.blank with
        rfr := fun _ => ⟨false, false, [.ofFrame (standardFrame 5 [1, 2])]⟩
        filters := ⟨0, 0, 0, 0, 0, fun _ => bank, fun _ => [0]⟩ }
    let calls : List CanCall := [.frame (standardFrame 7 [3]), .write 0x0C 0x20]
    let final := (stmcan (fun _ banks => banks) true false).final start calls
    let effects := ((stmcan (fun _ banks => banks) true false).replies start calls).flatten
    (final.rfr .rxFifo0).rxFifo.length ≤ 3 ∧
      (releasedBy .rxFifo0 effects ++ (final.rfr .rxFifo0).rxFifo).Sublist
        ((start.rfr .rxFifo0).rxFifo ++ receivedBy .rxFifo0 effects) ∧
      ((∀ call ∈ calls, ¬ call.ClearsOverrun .rxFifo0) → (final.rfr .rxFifo0).fifoOverrun = false →
        releasedBy .rxFifo0 effects ++ (final.rfr .rxFifo0).rxFifo =
          (start.rfr .rxFifo0).rxFifo ++ receivedBy .rxFifo0 effects) :=
  can_fifo_in_order _ true false .rxFifo0 (by decide) _

/-! ## Reading and forwarding -/

/-- The mailbox holds the words that the processor reads at the front of a FIFO. -/
def Stmcan.Copied (can : Stmcan) (fifo : RxFifo) (mailbox : TxMailbox) : Prop :=
  mailbox.tdt = can.readDoubleWord (.rdt fifo) ∧ mailbox.tdl = can.readDoubleWord (.rl fifo) ∧
    mailbox.tdh = can.readDoubleWord (.rh fifo)

/-- A controller that is not silent sends the message. -/
theorem Stmcan.sent_mem_transmitData {can : Stmcan} {isSlave : Bool} {msg : CanMessage}
    {id : BitVec 32} {data : Option (List (BitVec 8))} (speaking : has can.btr btrSilm = false)
    (same : msg.rir = id ∧ msg.data = data) :
    .sent id data ∈ (can.transmitData true isSlave msg).1 := by
  rcases same with ⟨rfl, rfl⟩
  have sent : (can.sendFrame true msg).1 = [.sent msg.rir msg.data] := by
    unfold sendFrame
    rw [if_pos speaking]
    rfl
  change _ ∈ (can.sendFrame true msg).1 ++ _
  rw [sent]
  exact List.mem_cons_self

/-- The words that are read at the front of a FIFO hold the frame that came in, and copied to
a mailbox and requested they are sent with the same bytes; but the data of a frame without
bytes are `null` in the message that is extracted and in the one that is sent. -/
theorem can_frame_forwarded {can : Stmcan} {fifo : RxFifo} {message : CanMessageFrame}
    {rest : List CanMessage} (front : (can.rfr fifo).rxFifo = .ofFrame message :: rest)
    (standard : message.id.toNat < 2 ^ 11) (short : message.data.length ≤ 8) :
    CanMessage.ofRegisters (can.readDoubleWord (.ri fifo)) (can.readDoubleWord (.rdt fifo))
        (can.readDoubleWord (.rl fifo)) (can.readDoubleWord (.rh fifo)) =
          { CanMessage.ofFrame message with data := CanMessage.extractedData message.data } ∧
      ∀ (i : Mailbox) (isSlave : Bool), can.Copied fifo (can.mailboxes i) →
        has can.btr Stmcan.btrSilm = false →
        .sent (can.readDoubleWord (.ri fifo)) (CanMessage.extractedData message.data) ∈
          (can.writeTi true isSlave i (can.readDoubleWord (.ri fifo) ||| 1)).1 := by
  have read (register : CanMessage → BitVec 32) :
      can.front fifo register = register (.ofFrame message) := by
    unfold Stmcan.front
    rw [front]
  have ri : can.readDoubleWord (.ri fifo) = (CanMessage.ofFrame message).rir := read (·.rir)
  have rdt : can.readDoubleWord (.rdt fifo) = (CanMessage.ofFrame message).rdtr := read (·.rdtr)
  have rl : can.readDoubleWord (.rl fifo) = (CanMessage.ofFrame message).rlr := read (·.rlr)
  have rh : can.readDoubleWord (.rh fifo) = (CanMessage.ofFrame message).rhr := read (·.rhr)
  have back := CanMessage.ofRegisters_ofFrame standard short
  refine ⟨by rw [ri, rdt, rl, rh]; exact back, ?_⟩
  rintro i isSlave ⟨tdt, tdl, tdh⟩ speaking
  rw [rdt] at tdt
  rw [rl] at tdl
  rw [rh] at tdh
  have masked := CanMessage.and_rirMask (CanMessage.toNat_rir_even message)
  rw [ri]
  have requested : has ((CanMessage.ofFrame message).rir ||| 1) (bitMask 0) = true := by
    unfold has
    rw [decide_eq_true_iff, BitVec.and_or_distrib_right]
    intro zero
    have one : ((1 : BitVec 32) &&& bitMask 0).getLsbD 0 = true := by decide
    have bit : BitVec.getLsbD (_ ||| _) 0 = (0 : BitVec 32).getLsbD 0 :=
      congrArg (BitVec.getLsbD · 0) zero
    rw [BitVec.getLsbD_or, one, Bool.or_true] at bit
    exact absurd bit (by decide)
  have cleared : ((CanMessage.ofFrame message).rir ||| 1) &&& 0xFFFFFFFE =
      (CanMessage.ofFrame message).rir := by
    rw [BitVec.and_or_distrib_right]
    change ((CanMessage.ofFrame message).rir &&& CanMessage.rirMask) ||| 0 = _
    rw [masked]
    exact BitVec.or_zero
  unfold Stmcan.writeTi
  dsimp only
  rw [if_pos requested, cleared]
  apply Stmcan.sent_mem_transmitData
  · exact speaking
  · unfold Stmcan.setMailbox
    dsimp only
    rw [Function.update_self, tdt, tdl, tdh, back]
    exact ⟨rfl, rfl⟩

/-- Two bytes with identifier 7, forwarded through the second mailbox. -/
theorem can_frame_forwarded_two :
    let can : Stmcan :=
      { Stmcan.blank with
        rfr := fun _ => ⟨false, false, [.ofFrame (standardFrame 7 [3, 4])]⟩
        mailboxes := fun _ => ⟨0, 2, 0x0403, 0⟩ }
    CanMessage.ofRegisters (can.readDoubleWord (.ri .rxFifo0)) (can.readDoubleWord (.rdt .rxFifo0))
        (can.readDoubleWord (.rl .rxFifo0)) (can.readDoubleWord (.rh .rxFifo0)) =
          .ofFrame (standardFrame 7 [3, 4]) ∧
      .sent (can.readDoubleWord (.ri .rxFifo0)) (some [3, 4]) ∈
        (can.writeTi true false .mailbox1 (can.readDoubleWord (.ri .rxFifo0) ||| 1)).1 := by
  intro can
  have forwarded := can_frame_forwarded (show (can.rfr .rxFifo0).rxFifo = _ from rfl) (by decide)
    (by decide)
  exact ⟨forwarded.1, forwarded.2 .mailbox1 false ⟨by decide, by decide, by decide⟩ (has_zero _)⟩

end EmbeddedBase.Dev.Renode
