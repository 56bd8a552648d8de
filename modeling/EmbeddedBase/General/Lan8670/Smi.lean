import EmbeddedBase.General.Lan8670.RegisterFile
import EmbeddedBase.Data.Shift

/-!
# SMI register fields of the LAN8670

The model of `read_register_field` and `write_register_field` in `lan8670.c`.  Both admit
the whole register as a field, and the mask of that field takes an undefined shift.
-/

namespace EmbeddedBase.General.Lan8670

open EmbeddedBase.Data

/-! ## The driver -/

/-- The SMI registers, with the number of transactions so far. -/
structure SmiBus where
  registers : BitVec 32 → BitVec 32
  transactions : Nat

/-- `lan->IO.WriteReg`; the flag is set when it returns 0. -/
def smiWriteReg (fails : Nat → Bool) (bus : SmiBus) (reg data : BitVec 32) : Bool × SmiBus :=
  if fails bus.transactions then
    (false, ⟨bus.registers, bus.transactions + 1⟩)
  else
    (true, ⟨Function.update bus.registers reg data, bus.transactions + 1⟩)

/-- `lan->IO.ReadReg`, which stores what it read when it returns 0. -/
def smiReadReg (fails : Nat → Bool) (bus : SmiBus) (reg : BitVec 32) :
    Option (BitVec 32) × SmiBus :=
  if fails bus.transactions then
    (none, ⟨bus.registers, bus.transactions + 1⟩)
  else
    (some (bus.registers reg), ⟨bus.registers, bus.transactions + 1⟩)

/-- The bit range check of the field functions. -/
def smiInvalidRange (start last : Int) : Bool :=
  decide (start > last) || decide (start < 0 ∨ last > 31)

/-- `(1U << field_width) - 1`. -/
def smiMaxValue (start last : Int) : Option (BitVec 32) :=
  (checkedShiftLeft 1#32 (fieldWidth start last)).map fun high => high - 1#32

/-- `mask`. -/
def smiMask (start last : Int) : Option (BitVec 32) :=
  (smiMaxValue start last).bind fun ones => checkedShiftLeft ones start.toNat

/-- `read_register_field`; `value` is what the pointer held before the call.  There is no
result when a shift is undefined. -/
def readRegisterField (fails : Nat → Bool) (bus : SmiBus) (reg : BitVec 32)
    (start last : Int) (value : BitVec 32) : Option ((Status × BitVec 32) × SmiBus) :=
  if smiInvalidRange start last then
    some ((.error, value), bus)
  else
    let data := smiReadReg fails bus reg
    match data.1 with
    | none => some ((.readError, value), data.2)
    | some read =>
        (smiMask start last).bind fun mask =>
          (checkedShiftRight (read &&& mask) start.toNat).map fun field =>
            ((.ok, field), data.2)

/-- `write_register_field`. -/
def writeRegisterField (fails : Nat → Bool) (bus : SmiBus) (reg : BitVec 32)
    (start last : Int) (value : BitVec 32) : Option (Status × SmiBus) :=
  if smiInvalidRange start last then
    some (.error, bus)
  else
    (smiMaxValue start last).bind fun maxValue =>
      if value > maxValue then
        some (.error, bus)
      else
        let data := smiReadReg fails bus reg
        match data.1 with
        | none => some (.readError, data.2)
        | some read =>
            (smiMask start last).bind fun mask =>
              (checkedShiftLeft value start.toNat).map fun shifted =>
                let written :=
                  smiWriteReg fails data.2 reg ((read &&& ~~~mask) ||| (shifted &&& mask))
                if written.1 then (.ok, written.2) else (.writeError, written.2)

/-! ## Admitted ranges -/

/-- The bit ranges of a 32-bit register. -/
def SmiRange (start last : Int) : Prop :=
  0 ≤ start ∧ start ≤ last ∧ last ≤ 31

instance (start last : Int) : Decidable (SmiRange start last) :=
  inferInstanceAs (Decidable (_ ∧ _ ∧ _))

theorem smiInvalidRange_eq_false_iff {start last : Int} :
    smiInvalidRange start last = false ↔ SmiRange start last := by
  simp only [smiInvalidRange, Bool.or_eq_false_iff, decide_eq_false_iff_not, SmiRange]
  omega

theorem SmiRange.fits {start last : Int} (admitted : SmiRange start last) :
    start.toNat + fieldWidth start last ≤ 32 := by
  rcases admitted with ⟨nonnegative, ordered, small⟩
  rw [fieldWidth]
  omega

theorem SmiRange.start_lt {start last : Int} (admitted : SmiRange start last) :
    start.toNat < 32 := by
  rcases admitted with ⟨nonnegative, ordered, small⟩
  omega

/-- Only the whole register is as wide as the operand of the shift. -/
theorem SmiRange.fieldWidth_lt_iff {start last : Int} (admitted : SmiRange start last) :
    fieldWidth start last < 32 ↔ ¬(start = 0 ∧ last = 31) := by
  rcases admitted with ⟨nonnegative, ordered, small⟩
  rw [fieldWidth]
  omega

section

variable {start last : Int}

theorem smiMaxValue_of_lt (narrow : fieldWidth start last < 32) :
    smiMaxValue start last = some ((1#32 <<< fieldWidth start last) - 1#32) := by
  rw [smiMaxValue, checkedShiftLeft_of_lt _ narrow]
  rfl

theorem smiMaxValue_of_ge (wide : 32 ≤ fieldWidth start last) :
    smiMaxValue start last = none := by
  rw [smiMaxValue, checkedShiftLeft_of_ge _ wide]
  rfl

theorem SmiRange.smiMask_eq (admitted : SmiRange start last) (narrow : fieldWidth start last < 32) :
    smiMask start last = some (fieldMask 32 start.toNat (fieldWidth start last)) := by
  rw [smiMask, smiMaxValue_of_lt narrow]
  exact checkedShiftLeft_of_lt _ admitted.start_lt

theorem smiMask_of_ge (wide : 32 ≤ fieldWidth start last) : smiMask start last = none := by
  rw [smiMask, smiMaxValue_of_ge wide]
  rfl

end

/-! ## One access -/

section

variable {fails : Nat → Bool} {bus : SmiBus} {reg value : BitVec 32} {start last : Int}

theorem smiReadReg_of_succeeds (succeeds : fails bus.transactions = false) :
    smiReadReg fails bus reg =
      (some (bus.registers reg), ⟨bus.registers, bus.transactions + 1⟩) := by
  rw [smiReadReg, if_neg (by simp [succeeds])]

theorem smiWriteReg_of_succeeds (succeeds : fails bus.transactions = false) :
    smiWriteReg fails bus reg value =
      (true, ⟨Function.update bus.registers reg value, bus.transactions + 1⟩) := by
  rw [smiWriteReg, if_neg (by simp [succeeds])]

/-- A read that reaches the register delivers the field. -/
theorem readRegisterField_of_succeeds (admitted : SmiRange start last)
    (narrow : fieldWidth start last < 32) (succeeds : fails bus.transactions = false) :
    readRegisterField fails bus reg start last value =
      some ((.ok, ((bus.registers reg).extractLsb' start.toNat
        (fieldWidth start last)).setWidth 32), ⟨bus.registers, bus.transactions + 1⟩) := by
  rw [readRegisterField, smiInvalidRange_eq_false_iff.mpr admitted, if_neg (by decide),
    smiReadReg_of_succeeds succeeds]
  dsimp only
  rw [admitted.smiMask_eq narrow, Option.bind_some,
    checkedShiftRight_of_lt _ admitted.start_lt, Option.map_some,
    and_fieldMask_shiftRight _ admitted.fits]

/-- The value check accepts the values of the field's width. -/
theorem not_gt_smiMaxValue_iff (narrow : fieldWidth start last < 32) :
    ¬value > (1#32 <<< fieldWidth start last) - 1#32 ↔
      value.toNat < 2 ^ fieldWidth start last := by
  have one : 1 ≤ 2 ^ fieldWidth start last := Nat.one_le_two_pow
  rw [gt_iff_lt, BitVec.not_lt, BitVec.le_def, toNat_ones (Nat.le_of_lt narrow)]
  omega

/-- A value that is too large is refused before the bus is used. -/
theorem writeRegisterField_of_too_large (admitted : SmiRange start last)
    (narrow : fieldWidth start last < 32) (large : ¬value.toNat < 2 ^ fieldWidth start last) :
    writeRegisterField fails bus reg start last value = some (.error, bus) := by
  have refused := not_not.mp (mt (not_gt_smiMaxValue_iff narrow).mp large)
  rw [writeRegisterField, smiInvalidRange_eq_false_iff.mpr admitted, if_neg (by decide),
    smiMaxValue_of_lt narrow, Option.bind_some, if_pos refused]

/-- A write whose two transactions succeed replaces the field. -/
theorem writeRegisterField_of_succeeds (admitted : SmiRange start last)
    (narrow : fieldWidth start last < 32) (small : value.toNat < 2 ^ fieldWidth start last)
    (clear : Clear fails bus.transactions 2) :
    ∃ data, writeRegisterField fails bus reg start last value =
        some (.ok, ⟨Function.update bus.registers reg data, bus.transactions + 2⟩) ∧
      ReplacesField (bus.registers reg) start.toNat (fieldWidth start last) value data := by
  have first := clear 0 (by decide)
  have second := clear 1 (by decide)
  rw [Nat.add_zero] at first
  refine ⟨_, ?_, replacesField_of_masks _ _ admitted.fits⟩
  rw [writeRegisterField, smiInvalidRange_eq_false_iff.mpr admitted, if_neg (by decide),
    smiMaxValue_of_lt narrow, Option.bind_some, if_neg ((not_gt_smiMaxValue_iff narrow).mpr small),
    smiReadReg_of_succeeds first]
  dsimp only
  rw [admitted.smiMask_eq narrow, Option.bind_some,
    checkedShiftLeft_of_lt _ admitted.start_lt, Option.map_some, smiWriteReg_of_succeeds second]
  rfl

/-- The write of a whole register has no defined result. -/
theorem writeRegisterField_of_wide (admitted : SmiRange start last)
    (wide : 32 ≤ fieldWidth start last) :
    writeRegisterField fails bus reg start last value = none := by
  rw [writeRegisterField, smiInvalidRange_eq_false_iff.mpr admitted, if_neg (by decide),
    smiMaxValue_of_ge wide]
  rfl

/-- The read of a whole register has none either, once the bus has answered. -/
theorem readRegisterField_of_wide (admitted : SmiRange start last)
    (wide : 32 ≤ fieldWidth start last) (succeeds : fails bus.transactions = false) :
    readRegisterField fails bus reg start last value = none := by
  rw [readRegisterField, smiInvalidRange_eq_false_iff.mpr admitted, if_neg (by decide),
    smiReadReg_of_succeeds succeeds]
  dsimp only
  rw [smiMask_of_ge wide]
  rfl

end

/-! ## Round trips -/

/-- A value that fits the field is written, read back, and nothing else changes; one that
does not is refused without using the bus.  No shift is undefined. -/
structure FieldRoundTrip (fails : Nat → Bool) (bus : SmiBus) (reg : BitVec 32)
    (start last : Int) (value : BitVec 32) : Prop where
  stores : value.toNat < 2 ^ fieldWidth start last → ∃ written,
    writeRegisterField fails bus reg start last value = some (.ok, written) ∧
    ReplacesField (bus.registers reg) start.toNat (fieldWidth start last) value
      (written.registers reg) ∧
    (∀ other ≠ reg, written.registers other = bus.registers other) ∧
    ∀ stored, ∃ after,
      readRegisterField fails written reg start last stored = some ((.ok, value), after) ∧
        after.registers = written.registers
  refuses : ¬value.toNat < 2 ^ fieldWidth start last →
    writeRegisterField fails bus reg start last value = some (.error, bus)

/-- With three successful transactions, the fields that round trip are all the admitted
ones but the whole register. -/
theorem register_field_round_trip_iff (fails : Nat → Bool) (bus : SmiBus) (reg : BitVec 32)
    (start last : Int) (value : BitVec 32) (admitted : SmiRange start last)
    (clear : Clear fails bus.transactions 3) :
    FieldRoundTrip fails bus reg start last value ↔ ¬(start = 0 ∧ last = 31) := by
  rw [← admitted.fieldWidth_lt_iff]
  constructor
  · intro roundTrip
    by_contra wide
    have full : fieldWidth start last = 32 := by
      have fits := admitted.fits
      omega
    have small : value.toNat < 2 ^ fieldWidth start last := by
      rw [full]
      exact value.isLt
    rcases roundTrip.stores small with ⟨written, ok, -⟩
    rw [writeRegisterField_of_wide admitted (Nat.not_lt.mp wide)] at ok
    exact nomatch ok
  · intro narrow
    constructor
    · intro small
      have writing := clear_succ_iff.mp clear
      rcases @writeRegisterField_of_succeeds fails bus reg value start last admitted narrow small
        writing.1 with ⟨data, ok, replaces⟩
      refine ⟨_, ok, ?_, ?_, ?_⟩
      · dsimp only
        rwa [Function.update_self]
      · exact fun other different => Function.update_of_ne different _ _
      · intro stored
        refine ⟨⟨Function.update bus.registers reg data, bus.transactions + 3⟩, ?_, rfl⟩
        rw [readRegisterField_of_succeeds admitted narrow writing.2]
        dsimp only
        rw [Function.update_self, replaces.read_back admitted.fits small]
    · exact writeRegisterField_of_too_large admitted narrow

/-- Bits 8 to 15 of a register whose bits are all set. -/
theorem register_field_round_trip_iff_example :
    (FieldRoundTrip (fun _ => false) ⟨fun _ => 0xFFFFFFFF, 0⟩ 1 8 15 0x5A ↔
      ¬((8 : Int) = 0 ∧ (15 : Int) = 31)) :=
  register_field_round_trip_iff _ _ _ _ _ _ (by decide) fun _ _ => rfl

/-- The whole register is an admitted field, and writing zero to it shifts by 32. -/
theorem whole_register_shift_undefined :
    SmiRange 0 31 ∧ Clear (fun _ => false) 0 3 ∧
      ¬FieldRoundTrip (fun _ => false) ⟨fun _ => 0, 0⟩ 0 0 31 0 := by
  refine ⟨by decide, fun _ _ => rfl, ?_⟩
  intro roundTrip
  rcases roundTrip.stores (by decide) with ⟨written, ok, -⟩
  exact nomatch ok

end EmbeddedBase.General.Lan8670
