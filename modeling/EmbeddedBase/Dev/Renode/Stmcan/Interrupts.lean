import EmbeddedBase.Dev.Renode.Stmcan.Device

/-!
# The interrupt lines over whole runs

As long as nothing resets the controller, each of the four lines is set exactly when its
enabled condition holds.  A reset clears the conditions after it has updated the lines of
the FIFOs.
-/

namespace EmbeddedBase.Dev.Renode

open EmbeddedBase.Transition

/-! ## Bits -/

theorem and_of_disjoint {mask other : BitVec 32} (disjoint : mask &&& other = 0)
    (word : BitVec 32) :
    ~~~mask &&& other = other ∧ (word ||| mask) &&& other = word &&& other := by
  have bits (i : Nat) : (mask.getLsbD i && other.getLsbD i) = false := by
    rw [← BitVec.getLsbD_and, disjoint]
    exact BitVec.getLsbD_zero
  constructor
  · apply BitVec.eq_of_getLsbD_eq
    intro i inside
    have bit := bits i
    rw [BitVec.getLsbD_and, BitVec.getLsbD_not, decide_eq_true inside]
    cases set : other.getLsbD i <;> simp_all
  · apply BitVec.eq_of_getLsbD_eq
    intro i inside
    have bit := bits i
    rw [BitVec.getLsbD_and, BitVec.getLsbD_and, BitVec.getLsbD_or]
    cases set : other.getLsbD i <;> simp_all

/-- An assignment to some bits leaves the others alone. -/
theorem has_assign {mask other : BitVec 32} (disjoint : mask &&& other = 0) (word : BitVec 32)
    (value : Bool) : has (assign word mask value) other = has word other := by
  rcases and_of_disjoint disjoint word with ⟨cleared, set⟩
  unfold has assign
  cases value with
  | false => rw [if_neg Bool.false_ne_true, BitVec.and_assoc, cleared]
  | true => rw [if_pos rfl, set]

/-! ## Levels -/

namespace Stmcan

/-- The condition of a line. -/
def level (can : Stmcan) : InterruptLine → Bool
  | .tx => can.enableTransmitInterrupt
  | .rx0 => can.enableFifo0Interrupt
  | .rx1 => can.enableFifo1Interrupt
  | .sce => can.enableSceInterrupt

/-- Each line is set exactly when its condition holds. -/
def Coherent (can : Stmcan) : Prop :=
  ∀ line, can.connections line = can.level line

variable {can : Stmcan}

/-- An update of one line, when the others are as they should be. -/
theorem coherent_connect (line : InterruptLine)
    (others : ∀ other, other ≠ line → can.connections other = can.level other) :
    (can.connect line (can.level line)).Coherent := by
  intro other
  have same : (can.connect line (can.level line)).level other = can.level other := by
    match other with
    | .tx => rfl
    | .rx0 => rfl
    | .rx1 => rfl
    | .sce => rfl
  rw [same]
  unfold connect
  by_cases this : other = line
  · subst this
    exact Function.update_self other _ _
  · exact (Function.update_of_ne this _ _).trans (others other this)

theorem coherent_sce (others : ∀ line, line ≠ .sce → can.connections line = can.level line) :
    can.updateSceInterruptLine.Coherent :=
  coherent_connect .sce others

theorem coherent_transmit (others : ∀ line, line ≠ .tx → can.connections line = can.level line) :
    can.updateTransmitInterruptLine.Coherent :=
  coherent_connect .tx others

/-- A FIFO and its line change together. -/
theorem coherent_setRfr (coherent : can.Coherent) (fifo : RxFifo) (rfr : ReceiveFifoRegister) :
    (can.setRfr fifo rfr).Coherent := by
  match fifo with
  | .rxFifo0 =>
      apply coherent_connect .rx0
      intro other distinct
      match other with
      | .tx => exact coherent .tx
      | .rx0 => exact absurd rfl distinct
      | .rx1 => exact coherent .rx1
      | .sce => exact coherent .sce
  | .rxFifo1 =>
      apply coherent_connect .rx1
      intro other distinct
      match other with
      | .tx => exact coherent .tx
      | .rx0 => exact coherent .rx0
      | .rx1 => exact absurd rfl distinct
      | .sce => exact coherent .sce

theorem coherent_setValueRfr (coherent : can.Coherent) (fifo : RxFifo) (value : BitVec 32) :
    (can.setValueRfr fifo value).2.Coherent :=
  coherent_setRfr coherent fifo _

theorem coherent_offer (isSlave : Bool) (msg : CanMessage) (coherent : can.Coherent)
    (fifo : RxFifo) : (can.offer isSlave msg fifo).2.Coherent := by
  unfold offer
  split
  · exact coherent_setRfr coherent _ _
  · exact coherent

theorem coherent_offerBoth (isSlave : Bool) (msg : CanMessage) (coherent : can.Coherent) :
    (can.offerBoth isSlave msg).2.Coherent :=
  coherent_offer isSlave msg (coherent_offer isSlave msg coherent .rxFifo0) .rxFifo1

/-- The first three lines do not depend on the status. -/
theorem coherent_status {other : Stmcan} (coherent : can.Coherent)
    (lines : other.connections = can.connections) (ier : other.ier = can.ier)
    (tsr : other.tsr = can.tsr) (rfr : other.rfr = can.rfr) :
    other.updateSceInterruptLine.Coherent := by
  apply coherent_sce
  intro line distinct
  rw [lines, coherent line]
  match line with
  | .tx =>
      unfold level enableTransmitInterrupt
      rw [ier, tsr]
  | .rx0 =>
      unfold level enableFifo0Interrupt enableFifoInterrupt
      rw [ier, rfr]
  | .rx1 =>
      unfold level enableFifo1Interrupt enableFifoInterrupt
      rw [ier, rfr]
  | .sce => exact absurd rfl distinct

theorem coherent_onFrameReceived (isSlave : Bool) (message : CanMessageFrame)
    (coherent : can.Coherent) : (can.onFrameReceived isSlave message).2.Coherent := by
  unfold onFrameReceived
  split
  · apply coherent_status coherent <;> split <;> rfl
  · split
    · exact coherent_offerBoth isSlave _ coherent
    · exact coherent

theorem coherent_transmitData (connected isSlave : Bool) (msg : CanMessage)
    (coherent : can.Coherent) : (can.transmitData connected isSlave msg).2.Coherent := by
  have sent : (can.sendFrame connected msg).2.Coherent := by
    unfold sendFrame
    split
    · split
      · exact coherent
      · exact coherent_status coherent rfl rfl rfl rfl
    · exact coherent
  change ((can.sendFrame connected msg).2.loopBack isSlave msg).2.Coherent
  unfold loopBack
  split
  · exact coherent_offerBoth isSlave msg sent
  · exact sent

/-- A change of the transmit status, with the update of its line. -/
theorem coherent_setTsr (tsr : BitVec 32) (coherent : can.Coherent) :
    ({ can with tsr } : Stmcan).updateTransmitInterruptLine.Coherent := by
  apply coherent_transmit
  intro line distinct
  match line with
  | .tx => exact absurd rfl distinct
  | .rx0 => exact coherent .rx0
  | .rx1 => exact coherent .rx1
  | .sce => exact coherent .sce

theorem coherent_writeTi (connected isSlave : Bool) (i : Mailbox) (value : BitVec 32)
    (coherent : can.Coherent) : (can.writeTi connected isSlave i value).2.Coherent := by
  unfold writeTi
  dsimp only
  split
  · apply coherent_setTsr
    exact coherent_transmitData connected isSlave _ coherent
  · exact coherent

/-- Every line is updated when the enabled interrupts change. -/
theorem coherent_updates (can : Stmcan) :
    (((can.updateTransmitInterruptLine.updateFifoInterruptLine .rxFifo0).updateFifoInterruptLine
      .rxFifo1).updateSceInterruptLine).Coherent := by
  intro line
  match line with
  | .tx => rfl
  | .rx0 => rfl
  | .rx1 => rfl
  | .sce => rfl

/-- The interrupt bits of the status. -/
def interrupts : List (BitVec 32) :=
  [msrErri, msrSlaki, msrWkui]

theorem forall_interrupts {P : BitVec 32 → Prop} :
    (∀ mask ∈ interrupts, P mask) ↔ P msrErri ∧ P msrSlaki ∧ P msrWkui := by
  simp only [interrupts, List.mem_cons, List.not_mem_nil, or_false, forall_eq_or_imp, forall_eq]

/-- The acknowledge bits of the two modes are none of the interrupts. -/
theorem coherent_acknowledge (first second : Bool) {firstMask secondMask : BitVec 32}
    (disjoint : ∀ mask ∈ interrupts, firstMask &&& mask = 0 ∧ secondMask &&& mask = 0)
    (coherent : can.Coherent) :
    ({ can with msr := assign (assign can.msr firstMask first) secondMask second } :
      Stmcan).Coherent := by
  have same (mask : BitVec 32) (interrupt : mask ∈ interrupts) :
      has (assign (assign can.msr firstMask first) secondMask second) mask = has can.msr mask := by
    rw [has_assign (disjoint mask interrupt).2, has_assign (disjoint mask interrupt).1]
  intro line
  match line with
  | .tx => exact coherent .tx
  | .rx0 => exact coherent .rx0
  | .rx1 => exact coherent .rx1
  | .sce =>
      refine (coherent .sce).trans ?_
      unfold level enableSceInterrupt
      dsimp only
      rcases forall_interrupts.mp same with ⟨erri, slaki, wkui⟩
      rw [erri, slaki, wkui]

/-- Entering a mode leaves the conditions alone, or updates the line of the status. -/
theorem coherent_enterMode (value : BitVec 32) (coherent : can.Coherent) :
    (can.enterMode value).Coherent := by
  have initAck : ∀ mask ∈ interrupts, msrInak &&& mask = 0 ∧ msrSlak &&& mask = 0 := by
    rw [forall_interrupts]
    decide
  have sleepAck : ∀ mask ∈ interrupts, msrSlak &&& mask = 0 ∧ msrInak &&& mask = 0 := by
    rw [forall_interrupts]
    decide
  unfold enterMode
  split
  · exact coherent_acknowledge true false initAck coherent
  · split
    · exact coherent_status coherent rfl rfl rfl rfl
    · exact coherent_acknowledge false false sleepAck coherent

theorem coherent_writeDoubleWord (sort : BankSort) (connected isSlave : Bool)
    {offset : RegisterOffset} {value : BitVec 32}
    (kept : ¬ (offset = .mcr ∧ has value mcrReset = true))
    (coherent : can.Coherent) :
    (can.writeDoubleWord sort connected isSlave offset value).2.Coherent := by
  unfold writeDoubleWord
  by_cases filters : offset.isFilterRegister
  · rw [if_pos filters]
    split <;> exact coherent
  · rw [if_neg filters]
    cases offset with
    | mcr =>
        have mode : (({ can with mcr := value } : Stmcan).enterMode value).Coherent :=
          coherent_enterMode value coherent
        have noReset : ¬ has value mcrReset = true := fun set => kept ⟨rfl, set⟩
        unfold writeMcr
        dsimp only
        rw [if_neg noReset]
        exact mode
    | msr => exact coherent_status coherent rfl rfl rfl rfl
    | tsr => exact coherent_setTsr _ coherent
    | rfr fifo => exact coherent_setValueRfr coherent fifo value
    | ier => exact coherent_updates _
    | esr => exact coherent_status coherent rfl rfl rfl rfl
    | btr =>
        dsimp only
        split <;> exact coherent
    | ti i => exact coherent_writeTi connected isSlave i value coherent
    | _ => exact coherent

end Stmcan

/-- The call resets the controller: a write does, or the machine. -/
def CanCall.Resets : CanCall → Prop
  | write address value =>
      RegisterOffset.ofAddress address = some .mcr ∧ has value Stmcan.mcrReset = true
  | reset => True
  | _ => False

instance (call : CanCall) : Decidable call.Resets :=
  match call with
  | .write _ _ => inferInstanceAs (Decidable (_ ∧ _))
  | .reset => inferInstanceAs (Decidable True)
  | .read _ | .frame _ | .share _ => inferInstanceAs (Decidable False)

theorem coherent_step (sort : BankSort) (connected isSlave : Bool) (can : Stmcan)
    (call : CanCall) (coherent : can.Coherent) (kept : ¬ call.Resets) :
    (stmcan sort connected isSlave can call).2.Coherent := by
  unfold stmcan
  cases call with
  | write address value =>
      dsimp only
      split
      · rename_i offset decoded
        apply Stmcan.coherent_writeDoubleWord _ _ _ _ coherent
        rintro ⟨rfl, set⟩
        exact kept ⟨decoded, set⟩
      · exact coherent
  | read address =>
      dsimp only
      split <;> exact coherent
  | frame message => exact Stmcan.coherent_onFrameReceived isSlave message coherent
  | reset => exact absurd trivial kept
  | share filters => exact coherent

theorem coherent_initial (isSlave : Bool) : (Stmcan.initial isSlave).Coherent := by
  intro line
  match isSlave, line with
  | false, .tx => rfl
  | false, .rx0 => rfl
  | false, .rx1 => rfl
  | false, .sce => rfl
  | true, .tx => rfl
  | true, .rx0 => rfl
  | true, .rx1 => rfl
  | true, .sce => rfl

theorem coherent_run (sort : BankSort) (connected isSlave : Bool) {can : Stmcan}
    {calls : List CanCall} (none : ∀ call ∈ calls, ¬ call.Resets) (coherent : can.Coherent) :
    ((stmcan sort connected isSlave).final can calls).Coherent := by
  induction calls generalizing can with
  | nil => exact coherent
  | cons call calls ih =>
      apply ih fun other member => none other (List.mem_cons_of_mem call member)
      exact coherent_step sort connected isSlave can call coherent (none call List.mem_cons_self)

/-- In every run from the construction on without a reset, each interrupt line is set exactly
when its enabled condition holds. -/
theorem can_lines_follow (sort : BankSort) (connected isSlave : Bool) {calls : List CanCall}
    (none : ∀ call ∈ calls, ¬ call.Resets) :
    let can := (stmcan sort connected isSlave).final (Stmcan.initial isSlave) calls
    can.connections .tx = can.enableTransmitInterrupt ∧
      can.connections .rx0 = can.enableFifo0Interrupt ∧
      can.connections .rx1 = can.enableFifo1Interrupt ∧
      can.connections .sce = can.enableSceInterrupt := by
  have coherent := coherent_run sort connected isSlave none (coherent_initial isSlave)
  exact ⟨coherent .tx, coherent .rx0, coherent .rx1, coherent .sce⟩

/-- A frame wakes the sleeping controller. -/
theorem can_lines_follow_wake :
    let calls : List CanCall := [.write 0x14 0x10000, .frame (standardFrame 7 [3])]
    let can := (stmcan (fun _ banks => banks) true false).final (Stmcan.initial false) calls
    can.connections .tx = can.enableTransmitInterrupt ∧
      can.connections .rx0 = can.enableFifo0Interrupt ∧
      can.connections .rx1 = can.enableFifo1Interrupt ∧
      can.connections .sce = can.enableSceInterrupt :=
  can_lines_follow _ true false (by decide)

end EmbeddedBase.Dev.Renode
