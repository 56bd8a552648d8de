import EmbeddedBase.Data.Shift
import EmbeddedBase.Middleware.Bitstream.Correctness
import EmbeddedBase.Transition.Faulting

/-!
# Undefined shifts and accesses of the packer

The two packing functions again, with every shift and every access to the buffer checked: a
call has no result when C leaves it undefined.  Where there is a result it is that of the
packer.  A call is safe exactly when it is refused or asks for a width the packer is meant
for, up to sums of `size_t` that wrap.
-/

namespace EmbeddedBase.Middleware.Bitstream

open EmbeddedBase.Data
open EmbeddedBase.Transition

/-! ## The checked functions -/

section

variable (w : Nat)

/-- `data[pos / 8] |= 1 << (7 - pos % 8)` in a buffer of `bytes` bytes. -/
def checkedOrBit (bytes : Nat) (data : List (BitVec 8)) (pos : Nat) :
    Option (List (BitVec 8)) := do
  let bit ← checkedShiftLeft 1#32 (7 - pos % 8)
  if pos / 8 < bytes then
    some (data.modify (pos / 8) fun byte => byte ||| bit.setWidth 8)
  else
    none

/-- The first iterations of the packing loop. -/
def checkedPackLoop (bits : BitVec 32) (numBits totalBits bytes : Nat)
    (data : List (BitVec 8)) : Nat → Option (List (BitVec 8))
  | 0 => some data
  | i + 1 => do
      let packed ← checkedPackLoop bits numBits totalBits bytes data i
      let mask ← checkedShiftLeft 1#32 (numBits - 1 - i)
      if bits &&& mask ≠ 0#32 then
        checkedOrBit bytes packed ((totalBits + i) % 2 ^ w)
      else
        some packed

/-- The common end of the two functions, after the loop. -/
def finish (bitstream : BitstreamT) (numBits : Nat) (overflow : Bool)
    (data : List (BitVec 8)) : Int × BitstreamT :=
  let packed : BitstreamT :=
    { bitstream with
      data := data
      totalBits := (bitstream.totalBits + numBits) % 2 ^ w }
  if overflow then (1, { packed with overflow := true }) else (0, packed)

/-- `bitstream_add`. -/
def checkedAdd (bitstream : BitstreamT) (value : BitVec 32) (numBits : Nat) :
    Option (Int × BitstreamT) := do
  if noSpace w bitstream numBits then
    some (-1, bitstream)
  else
    let overflow := decide (2 ^ numBits ≤ value.toNat)
    let value := if overflow then BitVec.ofNat 32 (2 ^ numBits - 1) else value
    let data ← checkedPackLoop w value numBits bitstream.totalBits bitstream.bytes
      bitstream.data numBits
    some (finish w bitstream numBits overflow data)

/-- `bitstream_add_signed`. -/
def checkedAddSigned (bitstream : BitstreamT) (value : BitVec 32) (numBits : Nat) :
    Option (Int × BitstreamT) := do
  if noSpace w bitstream numBits then
    some (-1, bitstream)
  else
    let bound ← checkedShiftLeft 1#64 ((numBits + 2 ^ w - 1) % 2 ^ w)
    let maxValue := (bound - 1#64).setWidth 32
    let minValue := (-bound).setWidth 32
    let overflow := maxValue.slt value || value.slt minValue
    let value :=
      if overflow then (if maxValue.slt value then maxValue else minValue) else value
    let mask ← checkedShiftLeft 1#32 numBits
    let data ← checkedPackLoop w (value &&& (mask - 1#32)) numBits bitstream.totalBits
      bitstream.bytes bitstream.data numBits
    some (finish w bitstream numBits overflow data)

/-- The packer with checked calls. -/
def checkedPacker : Faulting BitstreamT Call Int
  | bitstream, .add value numBits => checkedAdd w bitstream value numBits
  | bitstream, .addSigned value numBits => checkedAddSigned w bitstream value numBits

end

/-! ## Results -/

section

variable {w : Nat}

/-- A checked access is defined inside the buffer. -/
theorem checkedOrBit_eq_some_iff {bytes pos : Nat} {data packed : List (BitVec 8)} :
    checkedOrBit bytes data pos = some packed ↔ pos / 8 < bytes ∧ orBit data pos = packed := by
  have amount : 7 - pos % 8 < 8 := by omega
  have narrow : ∀ k < 8, (1#32 <<< k).setWidth 8 = 1#8 <<< k := by decide
  rw [checkedOrBit, checkedShiftLeft_of_lt _ (by omega), Option.bind_eq_bind, Option.bind_some,
    narrow _ amount]
  by_cases inside : pos / 8 < bytes
  · simp [inside, orBit]
  · simp [inside]

/-- The loop is defined when its shifts are, and every set digit falls inside the buffer. -/
theorem checkedPackLoop_eq_some_iff {bits : BitVec 32} {numBits totalBits bytes k : Nat}
    {data packed : List (BitVec 8)} :
    checkedPackLoop w bits numBits totalBits bytes data k = some packed ↔
      (∀ i < k, numBits - 1 - i < 32 ∧ (bits.getLsbD (numBits - 1 - i) = true →
        (totalBits + i) % 2 ^ w / 8 < bytes)) ∧
      packLoop w bits numBits totalBits data k = packed := by
  induction k generalizing packed with
  | zero => simp [checkedPackLoop, packLoop]
  | succ k ih =>
      have earlier : (∀ i < k + 1, numBits - 1 - i < 32 ∧ (bits.getLsbD (numBits - 1 - i) = true →
            (totalBits + i) % 2 ^ w / 8 < bytes)) ↔
          (∀ i < k, numBits - 1 - i < 32 ∧ (bits.getLsbD (numBits - 1 - i) = true →
            (totalBits + i) % 2 ^ w / 8 < bytes)) ∧
          numBits - 1 - k < 32 ∧ (bits.getLsbD (numBits - 1 - k) = true →
            (totalBits + k) % 2 ^ w / 8 < bytes) :=
        Nat.forall_lt_succ_right
      rw [earlier, checkedPackLoop, Option.bind_eq_bind, Option.bind_eq_some_iff]
      simp only [ih, packLoop, Option.bind_eq_bind, Option.bind_eq_some_iff,
        checkedShiftLeft_eq_some_iff]
      constructor
      · rintro ⟨_, ⟨before, rfl⟩, _, ⟨shift, rfl⟩, last⟩
        by_cases set : bits.getLsbD (numBits - 1 - k) = true
        · have nonzero := (and_one_shiftLeft_ne_zero_iff bits shift).mpr set
          rw [if_pos nonzero] at last ⊢
          rw [checkedOrBit_eq_some_iff] at last
          exact ⟨⟨before, shift, fun _ => last.1⟩, last.2⟩
        · have zero := mt (and_one_shiftLeft_ne_zero_iff bits shift).mp set
          rw [if_neg zero] at last ⊢
          exact ⟨⟨before, shift, fun wrong => absurd wrong set⟩, Option.some.inj last⟩
      · rintro ⟨⟨before, shift, inside⟩, last⟩
        refine ⟨_, ⟨before, rfl⟩, _, ⟨shift, rfl⟩, ?_⟩
        by_cases set : bits.getLsbD (numBits - 1 - k) = true
        · have nonzero := (and_one_shiftLeft_ne_zero_iff bits shift).mpr set
          rw [if_pos nonzero] at last ⊢
          exact checkedOrBit_eq_some_iff.mpr ⟨inside set, last⟩
        · have zero := mt (and_one_shiftLeft_ne_zero_iff bits shift).mp set
          rw [if_neg zero] at last ⊢
          exact congrArg some last

end

/-! ## One call -/

/-- Every set digit of the field falls inside the buffer. -/
def InsideBuffer (w : Nat) (bitstream : BitstreamT) (call : Call) : Prop :=
  ∀ i < call.numBits, call.word.getLsbD (call.numBits - 1 - i) = true →
    (bitstream.totalBits + i) % 2 ^ w < 8 * bitstream.bytes

section

variable {w : Nat} {bitstream : BitstreamT}

/-- The loop of a call over its whole width. -/
theorem checkedPackLoop_word_eq_some_iff {call : Call} {data packed : List (BitVec 8)}
    (width : call.numBits ≤ 32) :
    checkedPackLoop w call.word call.numBits bitstream.totalBits bitstream.bytes data
        call.numBits = some packed ↔
      InsideBuffer w bitstream call ∧
        packLoop w call.word call.numBits bitstream.totalBits data call.numBits = packed := by
  rw [checkedPackLoop_eq_some_iff]
  apply and_congr_left'
  apply forall₂_congr
  intro i below
  have shift : call.numBits - 1 - i < 32 := by omega
  rw [Nat.div_lt_iff_lt_mul (by decide), Nat.mul_comm]
  exact and_iff_right shift

/-- The shift of the bounds is defined for a field with a sign bit. -/
theorem one_le_of_shift_lt {numBits : Nat} (size : 7 ≤ w)
    (shift : (numBits + 2 ^ w - 1) % 2 ^ w < 64) : 1 ≤ numBits := by
  have large : 2 ^ 7 ≤ 2 ^ w := Nat.pow_le_pow_right (by decide) size
  by_contra none
  rw [Nat.lt_one_iff.mp (Nat.not_le.mp none), Nat.zero_add,
    Nat.mod_eq_of_lt (by omega)] at shift
  omega

/-- A call that is not refused advances by its width. -/
theorem packer_totalBits {call : Call} (space : noSpace w bitstream call.numBits = false) :
    (packer w bitstream call).2.totalBits = (bitstream.totalBits + call.numBits) % 2 ^ w := by
  cases call with
  | add value numBits =>
      change noSpace w bitstream numBits = false at space
      simp [packer, bitstreamAdd, space, Call.numBits]
  | addSigned value numBits =>
      change noSpace w bitstream numBits = false at space
      simp [packer, bitstreamAddSigned, space, Call.numBits]

theorem checkedAdd_eq_some_iff {value : BitVec 32} {numBits : Nat} {outcome : Int × BitstreamT}
    (space : noSpace w bitstream numBits = false) :
    checkedAdd w bitstream value numBits = some outcome ↔
      ((Call.add value numBits).Admissible ∧ InsideBuffer w bitstream (.add value numBits)) ∧
        bitstreamAdd w bitstream value numBits = outcome := by
  simp only [checkedAdd, bitstreamAdd, space, Bool.false_eq_true,
    if_false, Option.bind_eq_bind, Option.bind_eq_some_iff, Option.some.injEq]
  by_cases admissible : (Call.add value numBits).Admissible
  · have loop := @checkedPackLoop_word_eq_some_iff w bitstream (.add value numBits)
      bitstream.data
    simp only [add_word admissible]
    constructor
    · rintro ⟨data, defined, rfl⟩
      rcases (loop admissible).mp defined with ⟨inside, rfl⟩
      exact ⟨⟨admissible, inside⟩, rfl⟩
    · rintro ⟨⟨_, inside⟩, rfl⟩
      exact ⟨_, (loop admissible).mpr ⟨inside, rfl⟩, rfl⟩
  · constructor
    · rintro ⟨data, defined, -⟩
      have wide : 32 < numBits := Nat.not_le.mp admissible
      have shift := ((checkedPackLoop_eq_some_iff.mp defined).1 0 (by omega)).1
      omega
    · exact fun wrong => absurd wrong.1.1 admissible

theorem checkedAddSigned_eq_some_iff {value : BitVec 32} {numBits : Nat}
    {outcome : Int × BitstreamT} (size : 7 ≤ w)
    (space : noSpace w bitstream numBits = false) :
    checkedAddSigned w bitstream value numBits = some outcome ↔
      ((Call.addSigned value numBits).Admissible ∧
          InsideBuffer w bitstream (.addSigned value numBits)) ∧
        bitstreamAddSigned w bitstream value numBits = outcome := by
  simp only [checkedAddSigned, bitstreamAddSigned, space,
    Bool.false_eq_true, if_false, Option.bind_eq_bind, Option.bind_eq_some_iff,
    Option.some.injEq, checkedShiftLeft_eq_some_iff]
  have large : 2 ^ 7 ≤ 2 ^ w := Nat.pow_le_pow_right (by decide) size
  constructor
  · rintro ⟨_, ⟨shift, rfl⟩, _, ⟨width, rfl⟩, data, defined, rfl⟩
    have positive := one_le_of_shift_lt size shift
    have admissible : (Call.addSigned value numBits).Admissible := ⟨positive, by omega⟩
    have amount := signed_shift positive (show numBits < 2 ^ w by omega)
    rw [addSigned_word admissible amount] at defined ⊢
    rcases (checkedPackLoop_word_eq_some_iff admissible.numBits_le).mp defined with
      ⟨inside, rfl⟩
    exact ⟨⟨admissible, inside⟩, rfl⟩
  · rintro ⟨⟨admissible, inside⟩, rfl⟩
    have width : numBits < 32 := Nat.lt_succ_of_le admissible.2
    have amount := signed_shift admissible.1 (show numBits < 2 ^ w by omega)
    refine ⟨_, ⟨by omega, rfl⟩, _, ⟨width, rfl⟩, _, ?_, rfl⟩
    rw [addSigned_word admissible amount]
    exact (checkedPackLoop_word_eq_some_iff admissible.numBits_le).mpr ⟨inside, rfl⟩

/-- A call that is not refused is defined for the admissible widths, when its digits fall
inside the buffer; its result is that of the packer. -/
theorem checkedPacker_eq_some_iff {call : Call} {outcome : Int × BitstreamT} (size : 7 ≤ w)
    (space : noSpace w bitstream call.numBits = false) :
    checkedPacker w bitstream call = some outcome ↔
      (call.Admissible ∧ InsideBuffer w bitstream call) ∧ packer w bitstream call = outcome := by
  cases call with
  | add value numBits => exact checkedAdd_eq_some_iff space
  | addSigned value numBits => exact checkedAddSigned_eq_some_iff size space

end

/-! ## Runs with a 32-bit `size_t` -/

/-- The bits in use do not exceed the capacity the test computes. -/
def Within (bitstream : BitstreamT) : Prop :=
  bitstream.totalBits ≤ (bitstream.bytes * 8) % 2 ^ 32

/-- A call that is defined, and either refuses and changes nothing or leaves no more bits in
use than there are. -/
def SafeCall (bitstream : BitstreamT) (call : Call) : Prop :=
  ∃ ret after, checkedPacker 32 bitstream call = some (ret, after) ∧
    (ret = -1 ∧ after = bitstream ∨ after.totalBits ≤ 8 * after.bytes)

/-- The call is refused by the capacity test, or asks for a width the packer is meant for.
Where the sum in the test wraps, the digits that are set must fall inside the buffer too. -/
def Careful (bitstream : BitstreamT) (call : Call) : Prop :=
  noSpace 32 bitstream call.numBits = true ∨
    call.Admissible ∧ (bitstream.totalBits + call.numBits < 2 ^ 32 ∨
      InsideBuffer 32 bitstream call)

/-- The calls with their checks. -/
abbrev checkedCalls : Machine (Option BitstreamT) Call (Option Int) :=
  (checkedPacker 32).machine

section

variable {bitstream : BitstreamT} {call : Call}

theorem checkedPacker_of_noSpace (full : noSpace 32 bitstream call.numBits = true) :
    checkedPacker 32 bitstream call = some (-1, bitstream) ∧
      packer 32 bitstream call = (-1, bitstream) := by
  cases call with
  | add value numBits => exact ⟨if_pos full, if_pos full⟩
  | addSigned value numBits => exact ⟨if_pos full, if_pos full⟩

theorem Within.le (within : Within bitstream) :
    bitstream.totalBits ≤ 8 * bitstream.bytes := by
  have capacity := Nat.mod_le (bitstream.bytes * 8) (2 ^ 32)
  rw [Within] at within
  omega

/-- A field that passes the capacity test without a wrap falls inside the buffer. -/
theorem insideBuffer_of_noWrap (space : noSpace 32 bitstream call.numBits = false)
    (noWrap : bitstream.totalBits + call.numBits < 2 ^ 32) :
    InsideBuffer 32 bitstream call := by
  intro i below _
  rw [noSpace, decide_eq_false_iff_not, Nat.mod_eq_of_lt noWrap] at space
  have capacity := Nat.mod_le (bitstream.bytes * 8) (2 ^ 32)
  rw [Nat.mod_eq_of_lt (by omega)]
  omega

/-- After a call that is not refused the bits in use pass the capacity test. -/
theorem within_packer (within : Within bitstream) : Within (packer 32 bitstream call).2 := by
  cases full : noSpace 32 bitstream call.numBits with
  | true => rwa [(checkedPacker_of_noSpace full).2]
  | false =>
      have total := packer_totalBits full
      rw [noSpace, decide_eq_false_iff_not] at full
      rw [Within, total, packer_bytes]
      exact Nat.not_lt.mp full

/-- A careful call is defined, and its result is that of the packer. -/
theorem checkedPacker_of_careful (careful : Careful bitstream call) :
    checkedPacker 32 bitstream call = some (packer 32 bitstream call) := by
  cases full : noSpace 32 bitstream call.numBits with
  | true =>
      rcases checkedPacker_of_noSpace full with ⟨checked, unchecked⟩
      rw [checked, unchecked]
  | false =>
      rcases careful with refused | ⟨admissible, sum⟩
      · rw [full] at refused
        cases refused
      · apply (checkedPacker_eq_some_iff (by decide) full).mpr
        exact ⟨⟨admissible, sum.elim (insideBuffer_of_noWrap full) id⟩, rfl⟩

/-- A call that is defined is careful. -/
theorem careful_of_eq_some {outcome : Int × BitstreamT}
    (defined : checkedPacker 32 bitstream call = some outcome) : Careful bitstream call := by
  cases full : noSpace 32 bitstream call.numBits with
  | true => exact .inl full
  | false =>
      rcases ((checkedPacker_eq_some_iff (by decide) full).mp defined).1 with
        ⟨admissible, inside⟩
      exact .inr ⟨admissible, .inr inside⟩

theorem safeCall_of_careful (within : Within bitstream) (careful : Careful bitstream call) :
    SafeCall bitstream call := by
  refine ⟨_, _, checkedPacker_of_careful careful, .inr ?_⟩
  exact (within_packer within).le

end

/-- Careful calls run as the packer does. -/
theorem checkedPacker_simulates :
    Faulting.Simulates (checkedPacker 32) (packer 32) Careful
      fun bitstream model => bitstream = model ∧ Within bitstream := by
  rintro bitstream _ call ⟨rfl, within⟩ careful
  exact ⟨_, checkedPacker_of_careful careful, rfl, within_packer within⟩

/-- From a fresh stream every call of a sequence is safe exactly when every call is careful. -/
theorem bitstream_calls_safe_iff (data : List (BitVec 8)) (bytes : Nat) (calls : List Call) :
    (∀ before call after, calls = before ++ call :: after → ∃ bitstream,
        checkedCalls.final (some (bitstreamInit data bytes)) before = some bitstream ∧
          SafeCall bitstream call) ↔
      checkedCalls.Always (Faulting.Lift Careful) (some (bitstreamInit data bytes)) calls := by
  constructor
  · intro safe
    rw [Machine.always_iff_forall_split]
    intro before call after split bitstream reached
    rcases safe before call after split with ⟨bitstream', reached', ret, final, defined, -⟩
    cases reached.symm.trans reached'
    exact careful_of_eq_some defined
  · rintro always before call after rfl
    rcases (Machine.always_append _ _ _ _ _).mp always with ⟨first, careful, -⟩
    have fresh : Within (bitstreamInit data bytes) := Nat.zero_le _
    rcases checkedPacker_simulates.final ⟨rfl, fresh⟩ first with ⟨bitstream, reached, -, within⟩
    exact ⟨bitstream, reached, safeCall_of_careful within (careful bitstream reached)⟩

/-- A field of 33 bits shifts by 32, a signed field of 32 bits too, and a signed field of no
bits shifts by `2 ^ 32 - 1`. -/
theorem wide_field_undefined :
    ¬SafeCall (bitstreamInit (List.replicate 8 0) 8) (.add 1 33) ∧
      ¬SafeCall (bitstreamInit (List.replicate 8 0) 8) (.addSigned 1 32) ∧
      ¬SafeCall (bitstreamInit (List.replicate 8 0) 8) (.addSigned 0 0) := by
  refine ⟨?_, ?_, ?_⟩
  · rintro ⟨ret, after, defined, -⟩
    rcases careful_of_eq_some defined with full | ⟨wide, -⟩
    · exact absurd full (by decide)
    · exact absurd wide (by decide : ¬33 ≤ 32)
  · rintro ⟨ret, after, defined, -⟩
    rcases careful_of_eq_some defined with full | ⟨wide, -⟩
    · exact absurd full (by decide)
    · exact absurd wide.2 (by decide)
  · rintro ⟨ret, after, defined, -⟩
    rcases careful_of_eq_some defined with full | ⟨narrow, -⟩
    · exact absurd full (by decide)
    · exact absurd narrow.1 (by decide)

end EmbeddedBase.Middleware.Bitstream
