import EmbeddedBase.General.Lan8670.Core
import EmbeddedBase.Transition.Machine

/-!
# The MMD registers as an indexed register file

Whatever mode earlier accesses left behind and whichever bus transactions fail, the
field functions read and write one field of one MMD register, or nothing.
-/

namespace EmbeddedBase.General.Lan8670

open EmbeddedBase.Data
open EmbeddedBase.Transition

/-! ## One register -/

/-- The next `count` transactions succeed. -/
def Clear (fails : Nat → Bool) (first count : Nat) : Prop :=
  ∀ i < count, fails (first + i) = false

theorem clear_succ_iff {fails : Nat → Bool} {first count : Nat} :
    Clear fails first (count + 1) ↔
      Clear fails first count ∧ fails (first + count) = false := by
  constructor
  · intro clear
    exact ⟨fun i below => clear i (Nat.lt_succ_of_lt below), clear count (Nat.lt_succ_self count)⟩
  · rintro ⟨clear, last⟩ i below
    rcases Nat.lt_succ_iff_lt_or_eq.mp below with earlier | rfl
    · exact clear i earlier
    · exact last

/-- After successes, what is not clear is the next transaction. -/
theorem fails_of_not_clear_succ {fails : Nat → Bool} {first count : Nat}
    (clear : Clear fails first count) (failing : ¬Clear fails first (count + 1)) :
    fails (first + count) = true := by
  by_contra succeeds
  exact failing (clear_succ_iff.mpr ⟨clear, Bool.eq_false_iff.mpr succeeds⟩)

theorem clear_add_iff {fails : Nat → Bool} {first count more : Nat} :
    Clear fails first (count + more) ↔
      Clear fails first count ∧ Clear fails (first + count) more := by
  induction more with
  | zero => simp [Clear]
  | succ more ih =>
      rw [← Nat.add_assoc, clear_succ_iff, clear_succ_iff, ih, Nat.add_assoc, and_assoc]

variable {fails : Nat → Bool} {bus : Bus} {mmdAddr registerOffset value : BitVec 16}

theorem writeReg_of_succeeds {reg : SmiRegister} {data : BitVec 32}
    (succeeds : fails bus.transactions = false) :
    writeReg fails bus reg data = (true, ⟨bus.phy.write reg data, bus.transactions + 1⟩) := by
  rw [writeReg, if_neg (by simp [succeeds])]

theorem writeReg_of_fails {reg : SmiRegister} {data : BitVec 32}
    (failing : fails bus.transactions = true) :
    writeReg fails bus reg data = (false, ⟨bus.phy, bus.transactions + 1⟩) := by
  rw [writeReg, if_pos failing]

/-- The PHY with the control register in data mode and the address set. -/
def selected (phy : Phy) (mmdAddr registerOffset : BitVec 16) : Phy :=
  { mmdctrl := mmdCtrlData mmdAddr
    address := Function.update phy.address (mmdAddr.setWidth 5) registerOffset
    mmd := phy.mmd }

theorem getLsbD_mmdCtrlAddress (i : Nat) :
    (mmdCtrlAddress mmdAddr).getLsbD i = (mmdAddr.getLsbD i && decide (i < 5)) := by
  have ones : (0x1F : BitVec 16) = fieldMask 16 0 5 := by decide
  rw [mmdCtrlAddress, BitVec.getLsbD_and, ones, getLsbD_fieldMask (by decide)]
  simp

/-- Data mode only differs in bit 14. -/
theorem getLsbD_mmdCtrlData (i : Nat) :
    (mmdCtrlData mmdAddr).getLsbD i = (mmdAddr.getLsbD i && decide (i < 5) || decide (14 = i)) := by
  change (mmdCtrlAddress mmdAddr ||| BitVec.ofNat 16 1 <<< 14).getLsbD i = _
  rw [BitVec.getLsbD_or, getLsbD_mmdCtrlAddress]
  exact congrArg _ (getLsbD_one_shiftLeft (by decide) i)

theorem extractLsb'_mmdCtrlAddress_device :
    (mmdCtrlAddress mmdAddr).extractLsb' 0 5 = mmdAddr.setWidth 5 := by
  apply BitVec.eq_of_getLsbD_eq
  intro i inside
  rw [BitVec.getLsbD_extractLsb', Nat.zero_add, getLsbD_mmdCtrlAddress, BitVec.getLsbD_setWidth]
  simp [inside]

theorem extractLsb'_mmdCtrlData_device :
    (mmdCtrlData mmdAddr).extractLsb' 0 5 = mmdAddr.setWidth 5 := by
  apply BitVec.eq_of_getLsbD_eq
  intro i inside
  have below : 14 ≠ i := by omega
  rw [BitVec.getLsbD_extractLsb', Nat.zero_add, getLsbD_mmdCtrlData, BitVec.getLsbD_setWidth]
  simp [inside, below]

theorem extractLsb'_mmdCtrlAddress_function :
    (mmdCtrlAddress mmdAddr).extractLsb' 14 2 = 0b00 := by
  apply BitVec.eq_of_getLsbD_eq
  intro i inside
  have above : ¬14 + i < 5 := by omega
  rw [BitVec.getLsbD_extractLsb', getLsbD_mmdCtrlAddress, decide_eq_false above]
  simp

theorem extractLsb'_mmdCtrlData_function :
    (mmdCtrlData mmdAddr).extractLsb' 14 2 = 0b01 := by
  apply BitVec.eq_of_getLsbD_eq
  intro i inside
  have above : ¬14 + i < 5 := by omega
  rw [BitVec.getLsbD_extractLsb', getLsbD_mmdCtrlData, decide_eq_false above]
  cases i with
  | zero => simp
  | succ i => simp [inside]

@[simp]
theorem device_selected (phy : Phy) :
    (selected phy mmdAddr registerOffset).device = mmdAddr.setWidth 5 :=
  extractLsb'_mmdCtrlData_device

@[simp]
theorem mmdFunction_selected (phy : Phy) :
    (selected phy mmdAddr registerOffset).mmdFunction = 0b01 :=
  extractLsb'_mmdCtrlData_function

/-- A read of the selected register. -/
theorem read_selected (phy : Phy) :
    (selected phy mmdAddr registerOffset).read .mmdad =
      ((phy.mmd (mmdAddr.setWidth 5) registerOffset).setWidth 32,
        selected phy mmdAddr registerOffset) := by
  rw [Phy.read, mmdFunction_selected, if_neg (by decide), if_neg (by decide), device_selected]
  simp [selected]

/-- The registers with one of them set. -/
def setRegister (registers : BitVec 5 → BitVec 16 → BitVec 16) (device : BitVec 5)
    (offset value : BitVec 16) : BitVec 5 → BitVec 16 → BitVec 16 :=
  Function.update registers device (Function.update (registers device) offset value)

theorem setRegister_apply_self (registers : BitVec 5 → BitVec 16 → BitVec 16)
    (device : BitVec 5) (offset value : BitVec 16) :
    setRegister registers device offset value device offset = value := by
  simp [setRegister]

theorem setRegister_apply_of_ne {registers : BitVec 5 → BitVec 16 → BitVec 16}
    {device other : BitVec 5} {offset value otherOffset : BitVec 16}
    (different : (other, otherOffset) ≠ (device, offset)) :
    setRegister registers device offset value other otherOffset =
      registers other otherOffset := by
  by_cases same : other = device
  · subst same
    have elsewhere : otherOffset ≠ offset := fun equal => different (by rw [equal])
    rw [setRegister, Function.update_self, Function.update_of_ne elsewhere]
  · rw [setRegister, Function.update_of_ne same]

/-- A write of the selected register. -/
theorem mmd_write_selected (phy : Phy) :
    ((selected phy mmdAddr registerOffset).write .mmdad (value.setWidth 32)).mmd =
      setRegister phy.mmd (mmdAddr.setWidth 5) registerOffset value := by
  rw [Phy.write, mmdFunction_selected, if_neg (by decide), if_pos (by decide), device_selected]
  simp [selected, setRegister]

/-- Three successful writes select the register, whatever was selected before. -/
theorem selectRegister_of_clear (clear : Clear fails bus.transactions 3) :
    selectRegister fails bus mmdAddr registerOffset =
      (true, ⟨selected bus.phy mmdAddr registerOffset, bus.transactions + 3⟩) := by
  have first := clear 0 (by decide)
  have second := clear 1 (by decide)
  have third := clear 2 (by decide)
  rw [selectRegister, writeReg_of_succeeds first]
  dsimp only
  rw [if_pos rfl, writeReg_of_succeeds second]
  dsimp only
  rw [if_pos rfl, writeReg_of_succeeds third]
  congr 2
  simp [Phy.write, Phy.device, Phy.mmdFunction, selected,
    extractLsb'_mmdCtrlAddress_device, extractLsb'_mmdCtrlAddress_function]

/-- A failure among the three writes leaves the MMD registers as they were. -/
theorem selectRegister_of_not_clear (failing : ¬Clear fails bus.transactions 3) :
    ∃ bus', selectRegister fails bus mmdAddr registerOffset = (false, bus') ∧
      bus'.phy.mmd = bus.phy.mmd := by
  cases first : fails bus.transactions with
  | true =>
      rw [selectRegister, writeReg_of_fails first]
      exact ⟨_, rfl, rfl⟩
  | false =>
      rw [selectRegister, writeReg_of_succeeds first]
      dsimp only
      rw [if_pos rfl]
      cases second : fails (bus.transactions + 1) with
      | true =>
          rw [writeReg_of_fails second]
          exact ⟨_, rfl, rfl⟩
      | false =>
          have begun : Clear fails bus.transactions 1 :=
            clear_succ_iff.mpr ⟨fun i below => absurd below (Nat.not_lt_zero i), first⟩
          have third : fails (bus.transactions + 2) = true :=
            fails_of_not_clear_succ (clear_succ_iff.mpr ⟨begun, second⟩) failing
          rw [writeReg_of_succeeds second]
          dsimp only
          rw [if_pos rfl, writeReg_of_fails third]
          refine ⟨_, rfl, ?_⟩
          simp [Phy.write, Phy.device, Phy.mmdFunction,
            extractLsb'_mmdCtrlAddress_function]

/-- Truncating what was read gives the register. -/
theorem setWidth_and_ones (register : BitVec 16) :
    (register.setWidth 32 &&& 0xFFFF).setWidth 16 = register := by
  have ones : (0xFFFF : BitVec 32) = fieldMask 32 0 16 := by decide
  apply BitVec.eq_of_getLsbD_eq
  intro i inside
  rw [BitVec.getLsbD_setWidth, BitVec.getLsbD_and, BitVec.getLsbD_setWidth, ones,
    getLsbD_fieldMask (by decide)]
  have wide : i < 32 := Nat.lt_of_lt_of_le inside (by decide)
  simp [inside, wide]

theorem mmdReadRegister_of_clear (clear : Clear fails bus.transactions 4) :
    ∃ bus', mmdReadRegister fails bus mmdAddr registerOffset value =
        ((.ok, bus.phy.mmd (mmdAddr.setWidth 5) registerOffset), bus') ∧
      bus'.phy.mmd = bus.phy.mmd ∧ bus'.transactions = bus.transactions + 4 := by
  have split := clear_succ_iff.mp clear
  rw [mmdReadRegister, selectRegister_of_clear split.1]
  dsimp only
  rw [if_pos rfl, readReg, if_neg (by simp [split.2])]
  refine ⟨⟨selected bus.phy mmdAddr registerOffset, bus.transactions + 4⟩, ?_, rfl, rfl⟩
  rw [read_selected]
  dsimp only
  rw [setWidth_and_ones]

/-- Whatever the failing transaction is, the MMD registers and the caller's variable stay
as they were. -/
theorem mmdReadRegister_of_not_clear (failing : ¬Clear fails bus.transactions 4) :
    ∃ status bus', mmdReadRegister fails bus mmdAddr registerOffset value =
        ((status, value), bus') ∧ status ≠ .ok ∧ bus'.phy.mmd = bus.phy.mmd := by
  by_cases prepared : Clear fails bus.transactions 3
  · have last := fails_of_not_clear_succ prepared failing
    rw [mmdReadRegister, selectRegister_of_clear prepared]
    dsimp only
    rw [if_pos rfl, readReg, if_pos last]
    exact ⟨_, _, rfl, by decide, rfl⟩
  · rcases selectRegister_of_not_clear prepared with ⟨bus', ended, unchanged⟩
    rw [mmdReadRegister, ended]
    exact ⟨_, _, rfl, by decide, unchanged⟩

theorem mmdWriteRegister_of_clear (clear : Clear fails bus.transactions 4) :
    ∃ bus', mmdWriteRegister fails bus mmdAddr registerOffset value = (.ok, bus') ∧
      bus'.phy.mmd =
        setRegister bus.phy.mmd (mmdAddr.setWidth 5) registerOffset value := by
  have split := clear_succ_iff.mp clear
  rw [mmdWriteRegister, selectRegister_of_clear split.1]
  dsimp only
  rw [if_pos rfl, writeReg_of_succeeds split.2]
  exact ⟨_, rfl, mmd_write_selected _⟩

theorem mmdWriteRegister_of_not_clear (failing : ¬Clear fails bus.transactions 4) :
    ∃ status bus', mmdWriteRegister fails bus mmdAddr registerOffset value = (status, bus') ∧
      status ≠ .ok ∧ bus'.phy.mmd = bus.phy.mmd := by
  by_cases prepared : Clear fails bus.transactions 3
  · have last := fails_of_not_clear_succ prepared failing
    rw [mmdWriteRegister, selectRegister_of_clear prepared]
    dsimp only
    rw [if_pos rfl, writeReg_of_fails last]
    exact ⟨_, _, rfl, by decide, rfl⟩
  · rcases selectRegister_of_not_clear prepared with ⟨bus', ended, unchanged⟩
    rw [mmdWriteRegister, ended]
    exact ⟨_, _, rfl, by decide, unchanged⟩

/-! ## One field -/

/-- The bit ranges of a 16-bit register. -/
def ValidRange (start last : Int) : Prop :=
  0 ≤ start ∧ start ≤ last ∧ last ≤ 15

/-- A bit range and a value that fits into it. -/
def ValidWrite (start last : Int) (value : BitVec 16) : Prop :=
  ValidRange start last ∧ value.toNat < 2 ^ fieldWidth start last

theorem invalidRange_eq_false_iff {start last : Int} :
    invalidRange start last = false ↔ ValidRange start last := by
  simp only [invalidRange, Bool.or_eq_false_iff, decide_eq_false_iff_not, ValidRange]
  omega

theorem eq_true_of_not_validRange {start last : Int} (invalid : ¬ValidRange start last) :
    invalidRange start last = true := by
  by_contra accepted
  exact invalid (invalidRange_eq_false_iff.mp (Bool.eq_false_iff.mpr accepted))

theorem ValidRange.fits {start last : Int} (valid : ValidRange start last) :
    start.toNat + fieldWidth start last ≤ 16 := by
  rcases valid with ⟨nonnegative, ordered, small⟩
  rw [fieldWidth]
  omega

theorem ValidRange.mask_eq {start last : Int} (valid : ValidRange start last) :
    mask start last = fieldMask 16 start.toNat (fieldWidth start last) :=
  setWidth_fieldMask valid.fits (by decide)

/-- The value check of the write accepts the values of the field's width. -/
theorem ValidRange.le_maxValue_iff {start last : Int} (valid : ValidRange start last) :
    value ≤ maxValue start last ↔ value.toNat < 2 ^ fieldWidth start last := by
  have narrow : fieldWidth start last ≤ 16 := by have fits := valid.fits; omega
  have small : 2 ^ fieldWidth start last ≤ 2 ^ 16 := Nat.pow_le_pow_right (by decide) narrow
  have one : 1 ≤ 2 ^ fieldWidth start last := Nat.one_le_two_pow
  have bound : (maxValue start last).toNat = 2 ^ fieldWidth start last - 1 := by
    rw [maxValue, BitVec.toNat_setWidth, toNat_ones (Nat.le_trans narrow (by decide)),
      Nat.mod_eq_of_lt (by omega)]
  rw [BitVec.le_def, bound]
  omega

/-- What a read of a field must do. -/
structure ReadsField (fails : Nat → Bool) (bus : Bus) (device : BitVec 5)
    (offset : BitVec 16) (start last : Int) (value : BitVec 16)
    (outcome : (Status × BitVec 16) × Bus) : Prop where
  invalid : ¬ValidRange start last → outcome = ((.error, value), bus)
  delivers : outcome.1.1 = .ok → ValidRange start last ∧ outcome.1.2 =
    ((bus.phy.mmd device offset).extractLsb' start.toNat (fieldWidth start last)).setWidth 16
  keeps : outcome.1.1 ≠ .ok → outcome.1.2 = value
  frame : outcome.2.phy.mmd = bus.phy.mmd
  completes : ValidRange start last →
    (outcome.1.1 = .ok ↔ Clear fails bus.transactions 4)

/-- What a write of a field must do. -/
structure WritesField (fails : Nat → Bool) (bus : Bus) (device : BitVec 5)
    (offset : BitVec 16) (start last : Int) (value : BitVec 16)
    (outcome : Status × Bus) : Prop where
  invalid : ¬ValidWrite start last value → outcome = (.error, bus)
  stores : outcome.1 = .ok → ValidWrite start last value ∧
    ReplacesField (bus.phy.mmd device offset) start.toNat (fieldWidth start last) value
      (outcome.2.phy.mmd device offset)
  frame : ∀ other otherOffset, (other, otherOffset) ≠ (device, offset) →
    outcome.2.phy.mmd other otherOffset = bus.phy.mmd other otherOffset
  aborts : outcome.1 ≠ .ok → outcome.2.phy.mmd = bus.phy.mmd
  completes : ValidWrite start last value →
    (outcome.1 = .ok ↔ Clear fails bus.transactions 8)

theorem mmdReadRegisterField_readsField (start last : Int) :
    ReadsField fails bus (mmdAddr.setWidth 5) registerOffset start last value
      (mmdReadRegisterField fails bus mmdAddr registerOffset start last value) := by
  by_cases valid : ValidRange start last
  · rw [mmdReadRegisterField, invalidRange_eq_false_iff.mpr valid, if_neg (by decide)]
    by_cases clear : Clear fails bus.transactions 4
    · rcases mmdReadRegister_of_clear clear with ⟨bus', read, unchanged, _⟩
      rw [read]
      dsimp only
      rw [if_neg (by simp), valid.mask_eq, and_fieldMask_shiftRight _ valid.fits]
      exact ⟨fun invalid => absurd valid invalid, fun _ => ⟨valid, rfl⟩,
        fun failed => absurd rfl failed, unchanged, fun _ => ⟨fun _ => clear, fun _ => rfl⟩⟩
    · rcases mmdReadRegister_of_not_clear clear with
        ⟨status, bus', read, failed, unchanged⟩
      rw [read]
      dsimp only
      rw [if_pos failed]
      exact ⟨fun invalid => absurd valid invalid, fun ok => (nomatch ok), fun _ => rfl,
        unchanged, fun _ => ⟨fun ok => (nomatch ok), fun all => absurd all clear⟩⟩
  · rw [mmdReadRegisterField, if_pos (eq_true_of_not_validRange valid)]
    exact ⟨fun _ => rfl, fun ok => (nomatch ok), fun _ => rfl, rfl,
      fun accepted => absurd accepted valid⟩

section Outcomes

variable {device : BitVec 5} {offset : BitVec 16} {start last : Int}

theorem WritesField.of_invalid (invalid : ¬ValidWrite start last value) :
    WritesField fails bus device offset start last value (.error, bus) where
  invalid _ := rfl
  stores ok := nomatch ok
  frame _ _ _ := rfl
  aborts _ := rfl
  completes valid := absurd valid invalid

theorem WritesField.of_aborted {status : Status} {bus' : Bus}
    (valid : ValidWrite start last value) (failing : ¬Clear fails bus.transactions 8)
    (aborted : status ≠ .ok) (unchanged : bus'.phy.mmd = bus.phy.mmd) :
    WritesField fails bus device offset start last value (status, bus') where
  invalid invalid := absurd valid invalid
  stores ok := absurd ok aborted
  frame _ _ _ := by rw [unchanged]
  aborts _ := unchanged
  completes _ := ⟨fun ok => absurd ok aborted, fun clear => absurd clear failing⟩

theorem WritesField.of_stored {bus' : Bus} {data : BitVec 16}
    (valid : ValidWrite start last value) (clear : Clear fails bus.transactions 8)
    (stored : bus'.phy.mmd = setRegister bus.phy.mmd device offset data)
    (replaces : ReplacesField (bus.phy.mmd device offset) start.toNat
      (fieldWidth start last) value data) :
    WritesField fails bus device offset start last value (.ok, bus') where
  invalid invalid := absurd valid invalid
  stores _ := ⟨valid, by rwa [stored, setRegister_apply_self]⟩
  frame _ _ different := by rw [stored, setRegister_apply_of_ne different]
  aborts failed := absurd rfl failed
  completes _ := ⟨fun _ => clear, fun _ => rfl⟩

end Outcomes

theorem mmdWriteRegisterField_of_invalid {start last : Int}
    (invalid : ¬ValidWrite start last value) :
    mmdWriteRegisterField fails bus mmdAddr registerOffset start last value =
      (.error, bus) := by
  rw [mmdWriteRegisterField]
  by_cases range : ValidRange start last
  · have wide : ¬value ≤ maxValue start last :=
      fun accepted => invalid ⟨range, range.le_maxValue_iff.mp accepted⟩
    rw [invalidRange_eq_false_iff.mpr range, if_neg (by decide), if_pos (BitVec.not_le.mp wide)]
  · rw [if_pos (eq_true_of_not_validRange range)]

theorem mmdWriteRegisterField_writesField (start last : Int) :
    WritesField fails bus (mmdAddr.setWidth 5) registerOffset start last value
      (mmdWriteRegisterField fails bus mmdAddr registerOffset start last value) := by
  by_cases valid : ValidWrite start last value
  · rcases id valid with ⟨range, fits⟩
    rw [mmdWriteRegisterField, invalidRange_eq_false_iff.mpr range, if_neg (by decide),
      if_neg (BitVec.not_lt.mpr (range.le_maxValue_iff.mpr fits))]
    by_cases readClear : Clear fails bus.transactions 4
    · rcases mmdReadRegister_of_clear readClear with ⟨bus', read, unchanged, later⟩
      rw [read]
      dsimp only
      rw [if_neg (by simp), range.mask_eq]
      by_cases writeClear : Clear fails bus'.transactions 4
      · rcases mmdWriteRegister_of_clear writeClear with ⟨bus'', written, stored⟩
        rw [written, if_neg (by simp)]
        rw [unchanged] at stored
        apply WritesField.of_stored valid (clear_add_iff.mpr ⟨readClear, later ▸ writeClear⟩) stored
        exact replacesField_of_masks _ _ range.fits
      · rcases mmdWriteRegister_of_not_clear writeClear with
          ⟨status, bus'', written, failed, untouched⟩
        rw [written, if_pos failed]
        apply WritesField.of_aborted valid _ (by decide) (untouched.trans unchanged)
        intro clear
        exact writeClear (later ▸ (clear_add_iff.mp clear).2)
    · rcases mmdReadRegister_of_not_clear readClear with
        ⟨status, bus', read, failed, unchanged⟩
      rw [read]
      dsimp only
      rw [if_pos failed]
      apply WritesField.of_aborted valid _ (by decide) unchanged
      intro clear
      exact readClear ((@clear_add_iff fails bus.transactions 4 4).mp clear).1
  · rw [mmdWriteRegisterField_of_invalid valid]
    exact WritesField.of_invalid valid

/-! ## Call sequences -/

/-- The calls of the register file; `value` is the value to write, or what the caller's
variable held before a read. -/
inductive Call
  | readField (mmdAddr registerOffset : BitVec 16) (start last : Int) (value : BitVec 16)
  | writeField (mmdAddr registerOffset : BitVec 16) (start last : Int) (value : BitVec 16)

/-- The driver answers every call with a status, and the caller's variable. -/
def mmdAccess (fails : Nat → Bool) : Machine Bus Call (Status × BitVec 16) :=
  fun bus call =>
    match call with
    | .readField mmdAddr registerOffset start last value =>
        mmdReadRegisterField fails bus mmdAddr registerOffset start last value
    | .writeField mmdAddr registerOffset start last value =>
        let outcome := mmdWriteRegisterField fails bus mmdAddr registerOffset start last value
        ((outcome.1, value), outcome.2)

/-- What one call must do, in the state it is made in. -/
def Refines (fails : Nat → Bool) (bus : Bus) (call : Call) : Prop :=
  let outcome := mmdAccess fails bus call
  match call with
  | .readField mmdAddr offset start last value =>
      ReadsField fails bus (mmdAddr.setWidth 5) offset start last value outcome
  | .writeField mmdAddr offset start last value =>
      WritesField fails bus (mmdAddr.setWidth 5) offset start last value
        (outcome.1.1, outcome.2)

theorem mmdAccess_refines (bus : Bus) (call : Call) : Refines fails bus call := by
  cases call with
  | readField mmdAddr offset start last value =>
      exact mmdReadRegisterField_readsField start last
  | writeField mmdAddr offset start last value =>
      exact mmdWriteRegisterField_writesField start last

/-- From every state of the PHY, for every call sequence and every pattern of failing
transactions, the MMD functions are an indexed register file of bit fields. -/
theorem mmd_access_is_register_file (fails : Nat → Bool) (bus : Bus) (calls : List Call) :
    (mmdAccess fails).Always (Refines fails) bus calls := by
  rw [Machine.always_iff_forall_split]
  intro before call after _
  exact mmdAccess_refines _ call

/-! ## The PLCA node registers -/

theorem plcaSetNodeCount_writesField (nodeCount : BitVec 8) :
    WritesField fails bus 0x1F 0xCA02 8 15 (nodeCount.setWidth 16)
      (plcaSetNodeCount fails bus nodeCount) :=
  @mmdWriteRegisterField_writesField fails bus mmdMisc miscPlcaCtrl1 _ 8 15

theorem plcaSetNodeId_writesField (id : BitVec 8) :
    WritesField fails bus 0x1F 0xCA02 0 7 (id.setWidth 16) (plcaSetNodeId fails bus id) :=
  @mmdWriteRegisterField_writesField fails bus mmdMisc miscPlcaCtrl1 _ 0 7

/-- The node count goes to the high byte and leaves the node id alone. -/
theorem plcaSetNodeCount_ok (nodeCount : BitVec 8)
    (ok : (plcaSetNodeCount fails bus nodeCount).1 = .ok) :
    (plcaSetNodeCount fails bus nodeCount).2.phy.mmd 0x1F 0xCA02 =
      nodeCount ++ (bus.phy.mmd 0x1F 0xCA02).setWidth 8 := by
  have replaces := ((plcaSetNodeCount_writesField nodeCount).stores ok).2
  apply BitVec.eq_of_getLsbD_eq
  intro i inside
  have width : fieldWidth 8 15 = 8 := rfl
  rw [replaces i inside, BitVec.getLsbD_append, width]
  by_cases low : i < 8
  · simp [low, Nat.not_le.mpr low]
  · have high : i - 8 < 16 := by omega
    simp [low, Nat.not_lt.mp low, inside, high]

/-- The node id goes to the low byte and leaves the node count alone. -/
theorem plcaSetNodeId_ok (id : BitVec 8) (ok : (plcaSetNodeId fails bus id).1 = .ok) :
    (plcaSetNodeId fails bus id).2.phy.mmd 0x1F 0xCA02 =
      (bus.phy.mmd 0x1F 0xCA02).extractLsb' 8 8 ++ id := by
  have replaces := ((plcaSetNodeId_writesField id).stores ok).2
  apply BitVec.eq_of_getLsbD_eq
  intro i inside
  have width : fieldWidth 0 7 = 8 := rfl
  rw [replaces i inside, BitVec.getLsbD_append, width]
  by_cases low : i < 8
  · simp [low, inside]
  · have high : i - 8 < 8 := by omega
    have back : 8 + (i - 8) = i := by omega
    simp [low, high, back]

end EmbeddedBase.General.Lan8670
