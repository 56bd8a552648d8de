import EmbeddedBase.Dev.Renode.Stmcan.Message
import EmbeddedBase.Platforms.Stm32f405.Filtering

/-!
# Filter banks of the emulated bxCAN

The model of `FilterBank` in `STMCAN_NER.cs`.  A bank in list mode lets a standard data
frame pass exactly when the bank of the peripheral with the same words does.
-/

namespace EmbeddedBase.Dev.Renode

open EmbeddedBase.Platforms.Stm32f405

/-- `RxFifo0` and `RxFifo1`. -/
inductive RxFifo where
  | rxFifo0
  | rxFifo1
  deriving DecidableEq

/-- `FilterBankMode`. -/
inductive FilterBankMode where
  | idMask
  | identifierList
  deriving DecidableEq

/-- `FilterBankScale`. -/
inductive FilterBankScale where
  | bits16
  | bits32
  deriving DecidableEq

/-- `Filter`. -/
structure Filter where
  stid : BitVec 32
  rtr : BitVec 32
  ide : BitVec 32
  exid : BitVec 32
  exidMask : BitVec 32
  deriving Inhabited

/-- The two words of a bank, by `regIdx`. -/
inductive RegIdx where
  | first
  | second
  deriving DecidableEq

/-- `FilterBank`. -/
structure FilterBank where
  active : Bool
  mode : FilterBankMode
  scale : FilterBankScale
  fifoAssignment : RxFifo
  fr : RegIdx → BitVec 32
  firstFilterNumber : BitVec 32
  belongsToMaster : Bool

namespace FilterBank

/-- One filter of a bank with 32-bit scale. -/
def filter32 (word : BitVec 32) : Filter where
  stid := (word >>> 21) &&& 0x7FF
  exid := (word >>> 3) &&& 0x3FFFF
  ide := (word >>> 2) &&& 0x1
  rtr := (word >>> 1) &&& 0x1
  exidMask := 0x3FFF

/-- The filter in the high half of a word. -/
def filterHigh (word : BitVec 32) : Filter where
  stid := (word >>> 21) &&& 0x7FF
  ide := (word >>> 20) &&& 0x1
  rtr := (word >>> 19) &&& 0x1
  exid := ((word >>> 16) &&& 0x7) <<< 15
  exidMask := (0x7 : BitVec 32) <<< 15

/-- The filter in the low half of a word. -/
def filterLow (word : BitVec 32) : Filter where
  stid := (word >>> 5) &&& 0x7FF
  ide := (word >>> 4) &&& 0x1
  rtr := (word >>> 3) &&& 0x1
  exid := ((word >>> 0) &&& 0x7) <<< 15
  exidMask := (0x7 : BitVec 32) <<< 15

/-- `ExtractFilters`. -/
def extractFilters (bank : FilterBank) : List Filter :=
  match bank.scale with
  | .bits32 => [filter32 (bank.fr .first), filter32 (bank.fr .second)]
  | .bits16 =>
      [filterHigh (bank.fr .first), filterLow (bank.fr .first), filterHigh (bank.fr .second),
        filterLow (bank.fr .second)]

/-- The comparison under a mask. -/
def matchesMask (filter mask : Filter) (msg : CanMessage) : Bool :=
  filter.stid &&& mask.stid = msg.stid &&& mask.stid ∧
    filter.exid &&& mask.exid &&& mask.exidMask = msg.exid &&& mask.exid &&& mask.exidMask ∧
    filter.ide &&& mask.ide = msg.ide &&& mask.ide ∧
    filter.rtr &&& mask.rtr = msg.rtr &&& mask.rtr ∧
    filter.stid &&& mask.stid = msg.stid &&& mask.stid

/-- The comparison with a listed identifier. -/
def matchesId (filter : Filter) (msg : CanMessage) : Bool :=
  filter.stid = msg.stid ∧
    filter.exid &&& filter.exidMask = msg.exid &&& filter.exidMask ∧
    filter.ide = msg.ide ∧
    filter.rtr = msg.rtr

/-- `MatchMessage`, with the FIFO that a match sets in the message. -/
def matchMessage (bank : FilterBank) (msg : CanMessage) : Option RxFifo :=
  let filters := bank.extractFilters
  let numOfFilters := match bank.scale with
    | .bits32 => 2
    | .bits16 => 4
  let matched := match bank.mode with
    | .idMask =>
        -- `i` advances by two, up to half the number of filters.
        ((List.range (numOfFilters / 2)).filter (· % 2 = 0)).any fun i =>
          matchesMask (filters.getD i default) (filters.getD (i + 1) default) msg
    | .identifierList => filters.any (matchesId · msg)
  if matched then some bank.fifoAssignment else none

/-- `NumberOfFiltersInBank`. -/
def numberOfFiltersInBank (bank : FilterBank) : BitVec 32 :=
  let numFiltersInBank := match bank.scale with
    | .bits32 => 2
    | .bits16 => 4
  match bank.mode with
  | .idMask => numFiltersInBank / 2
  | .identifierList => numFiltersInBank

/-- `CompareTo`. -/
def compareTo (bank filterBank : FilterBank) : Int :=
  if bank.scale = .bits32 ∧ filterBank.scale = .bits16 then 1
  else if bank.mode = .identifierList ∧ filterBank.mode = .idMask then 1
  else if bank.firstFilterNumber < filterBank.firstFilterNumber then 1
  else -1

/-! ## Agreement with the peripheral -/

/-- The bank of the peripheral with the words of a bank in list mode. -/
def bank (bank : FilterBank) : Bank :=
  match bank.scale with
  | .bits16 => .list16
      [(bank.fr .first).extractLsb' 16 16, (bank.fr .first).extractLsb' 0 16,
        (bank.fr .second).extractLsb' 16 16, (bank.fr .second).extractLsb' 0 16]
  | .bits32 => .list32 [bank.fr .first, bank.fr .second]

/-- The word lists an extended id, or it has the bits clear that the emulator does not
compare: the lowest one and the four highest of `EXID`. -/
def Comparable (word : BitVec 32) : Prop :=
  word.toNat / 2 ^ 2 % 2 = 1 ∨ word.toNat % 2 = 0 ∧ word.toNat / 2 ^ 17 % 2 ^ 4 = 0

instance (word : BitVec 32) : Decidable (Comparable word) :=
  inferInstanceAs (Decidable (_ ∨ _))

end FilterBank

/-- A standard data frame on the bus. -/
def standardFrame (id : BitVec 11) (data : List (BitVec 8)) : CanMessageFrame :=
  ⟨id.setWidth 32, data, false, false⟩

namespace FilterBank

section

variable {word : BitVec 32} (id : BitVec 11) (data : List (BitVec 8))

/-- The comparison of a standard data frame, in numbers. -/
theorem matchesId_standard_iff (filter : Filter) :
    matchesId filter (.ofFrame (standardFrame id data)) = true ↔
      filter.stid.toNat = id.toNat ∧ (filter.exid &&& filter.exidMask).toNat = 0 ∧
        filter.ide.toNat = 0 ∧ filter.rtr.toNat = 0 := by
  have stid : (CanMessage.ofFrame (standardFrame id data)).stid.toNat = id.toNat :=
    BitVec.toNat_setWidth_of_le (by decide)
  have none (mask : BitVec 32) : (0 &&& mask).toNat = 0 := by simp
  unfold matchesId
  rw [decide_eq_true_iff, ← BitVec.toNat_inj, ← BitVec.toNat_inj, ← BitVec.toNat_inj,
    ← BitVec.toNat_inj, stid]
  change _ ∧ _ = (0 &&& filter.exidMask).toNat ∧ _ = 0 ∧ _ = 0 ↔ _
  rw [none]

theorem toNat_layout_standard :
    (Frame.standard id false).layout16.toNat = id.toNat * 2 ^ 5 ∧
      (Frame.standard id false).layout32.toNat = id.toNat * 2 ^ 21 := by
  rw [Frame.toNat_layout16, Frame.toNat_layout32]
  constructor
  · simp [Frame.stid, Frame.exid, Frame.ide, Frame.rtr]
  · simp only [Frame.stid, Frame.exid, Frame.ide, Frame.rtr, Bool.toNat_false]
    change (id.toNat * 2 ^ 18 + 0) * 2 ^ 3 + 0 * 2 ^ 2 + 0 * 2 = _
    omega

theorem matchesId_filter32_iff (comparable : Comparable word) :
    matchesId (filter32 word) (.ofFrame (standardFrame id data)) = true ↔
      (Frame.standard id false).layout32 = word := by
  have bound := word.isLt
  have stid : (filter32 word).stid.toNat = word.toNat / 2 ^ 21 % 2 ^ 11 :=
    CanMessage.toNat_shifted_and word 21 11 (by decide)
  have exid : ((filter32 word).exid &&& (filter32 word).exidMask).toNat =
      word.toNat / 2 ^ 3 % 2 ^ 18 % 2 ^ 14 := by
    rw [BitVec.toNat_and]
    exact (Nat.and_two_pow_sub_one_eq_mod _ 14).trans
      (congrArg (· % 2 ^ 14) (CanMessage.toNat_shifted_and word 3 18 (by decide)))
  have ide : (filter32 word).ide.toNat = word.toNat / 2 ^ 2 % 2 ^ 1 :=
    CanMessage.toNat_shifted_and word 2 1 (by decide)
  have rtr : (filter32 word).rtr.toNat = word.toNat / 2 ^ 1 % 2 ^ 1 :=
    CanMessage.toNat_shifted_and word 1 1 (by decide)
  rw [matchesId_standard_iff, ← BitVec.toNat_inj, (toNat_layout_standard id).2, stid, exid, ide,
    rtr]
  unfold Comparable at comparable
  omega

theorem toNat_exid_masked (shifted : BitVec 32) :
    (((shifted &&& 0x7) <<< 15) &&& ((0x7 : BitVec 32) <<< 15)).toNat =
      shifted.toNat % 2 ^ 3 * 2 ^ 15 := by
  have low : (shifted &&& 0x7).toNat = shifted.toNat % 2 ^ 3 := by
    rw [BitVec.toNat_and]
    exact Nat.and_two_pow_sub_one_eq_mod _ 3
  rw [← BitVec.shiftLeft_and_distrib, BitVec.and_assoc, BitVec.and_self, BitVec.toNat_shiftLeft,
    low, Nat.shiftLeft_eq]
  omega

theorem matchesId_filterHigh_iff :
    matchesId (filterHigh word) (.ofFrame (standardFrame id data)) = true ↔
      (Frame.standard id false).layout16 = word.extractLsb' 16 16 := by
  have bound := word.isLt
  have half : (word.extractLsb' 16 16).toNat = word.toNat / 2 ^ 16 % 2 ^ 16 := by
    rw [BitVec.extractLsb'_toNat, Nat.shiftRight_eq_div_pow]
  have stid : (filterHigh word).stid.toNat = word.toNat / 2 ^ 21 % 2 ^ 11 :=
    CanMessage.toNat_shifted_and word 21 11 (by decide)
  have exid : ((filterHigh word).exid &&& (filterHigh word).exidMask).toNat =
      word.toNat / 2 ^ 16 % 2 ^ 3 * 2 ^ 15 := by
    rw [← Nat.shiftRight_eq_div_pow, ← BitVec.toNat_ushiftRight]
    exact toNat_exid_masked (word >>> 16)
  have ide : (filterHigh word).ide.toNat = word.toNat / 2 ^ 20 % 2 ^ 1 :=
    CanMessage.toNat_shifted_and word 20 1 (by decide)
  have rtr : (filterHigh word).rtr.toNat = word.toNat / 2 ^ 19 % 2 ^ 1 :=
    CanMessage.toNat_shifted_and word 19 1 (by decide)
  rw [matchesId_standard_iff, ← BitVec.toNat_inj, (toNat_layout_standard id).1, stid, exid, ide,
    rtr, half]
  omega

theorem matchesId_filterLow_iff :
    matchesId (filterLow word) (.ofFrame (standardFrame id data)) = true ↔
      (Frame.standard id false).layout16 = word.extractLsb' 0 16 := by
  have half : (word.extractLsb' 0 16).toNat = word.toNat / 2 ^ 0 % 2 ^ 16 := by
    rw [BitVec.extractLsb'_toNat, Nat.shiftRight_eq_div_pow]
  have stid : (filterLow word).stid.toNat = word.toNat / 2 ^ 5 % 2 ^ 11 :=
    CanMessage.toNat_shifted_and word 5 11 (by decide)
  have exid : ((filterLow word).exid &&& (filterLow word).exidMask).toNat =
      word.toNat / 2 ^ 0 % 2 ^ 3 * 2 ^ 15 := by
    rw [← Nat.shiftRight_eq_div_pow, ← BitVec.toNat_ushiftRight]
    exact toNat_exid_masked (word >>> 0)
  have ide : (filterLow word).ide.toNat = word.toNat / 2 ^ 4 % 2 ^ 1 :=
    CanMessage.toNat_shifted_and word 4 1 (by decide)
  have rtr : (filterLow word).rtr.toNat = word.toNat / 2 ^ 3 % 2 ^ 1 :=
    CanMessage.toNat_shifted_and word 3 1 (by decide)
  rw [matchesId_standard_iff, ← BitVec.toNat_inj, (toNat_layout_standard id).1, stid, exid, ide,
    rtr, half]
  omega

/-- A bank in list mode lets a standard data frame pass exactly when the bank of the
peripheral does. -/
theorem matchMessage_iff {filterBank : FilterBank} (list : filterBank.mode = .identifierList)
    (comparable : filterBank.scale = .bits32 →
      Comparable (filterBank.fr .first) ∧ Comparable (filterBank.fr .second))
    (fifo : RxFifo) :
    filterBank.matchMessage (.ofFrame (standardFrame id data)) = some fifo ↔
      filterBank.fifoAssignment = fifo ∧ filterBank.bank.Admits (.standard id false) := by
  unfold matchMessage bank extractFilters
  rw [list]
  rcases scale : filterBank.scale with - | -
  · simp only [List.any_cons, List.any_nil, Bool.or_false, Bool.or_eq_true,
      matchesId_filterHigh_iff, matchesId_filterLow_iff, Option.ite_none_right_eq_some,
      Option.some.injEq, Bank.Admits, List.mem_cons, List.not_mem_nil, or_false, and_comm]
  · have first := matchesId_filter32_iff id data (comparable scale).1
    have second := matchesId_filter32_iff id data (comparable scale).2
    simp only [List.any_cons, List.any_nil, Bool.or_false, Bool.or_eq_true, first, second,
      Option.ite_none_right_eq_some, Option.some.injEq, Bank.Admits, List.mem_cons,
      List.not_mem_nil, or_false, and_comm]

end

end FilterBank

end EmbeddedBase.Dev.Renode
