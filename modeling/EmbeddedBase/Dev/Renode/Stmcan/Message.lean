import Mathlib.Algebra.Ring.Nat
import Mathlib.Data.List.GetD

/-!
# Messages of the emulated bxCAN

The model of `CANMessage` in `STMCAN_NER.cs`: the register words of a frame from the bus,
and the frame that register words hold.
-/

namespace EmbeddedBase.Dev.Renode

/-- `CANMessageFrame` of the framework. -/
structure CanMessageFrame where
  id : BitVec 32
  data : List (BitVec 8)
  extendedFormat : Bool
  remoteFrame : Bool
  deriving DecidableEq

/-- `CANMessage`; its `Data` may be `null`. -/
structure CanMessage where
  rir : BitVec 32
  rdtr : BitVec 32
  rlr : BitVec 32
  rhr : BitVec 32
  stid : BitVec 32
  rtr : BitVec 32
  ide : BitVec 32
  exid : BitVec 32
  dlc : BitVec 32
  data : Option (List (BitVec 8))
  deriving DecidableEq

namespace CanMessage

/-- `STIDMASK`. -/
def stidMask : BitVec 32 := 0x7FF

/-- `EXIDMASK`. -/
def exidMask : BitVec 32 := 0x3FFFF

/-- `RIRMASK`. -/
def rirMask : BitVec 32 :=
  (stidMask <<< 21) ||| (exidMask <<< 3) ||| ((1 : BitVec 32) <<< 2) |||
    ((1 : BitVec 32) <<< 1)

/-- `RDTRMASK`. -/
def rdtrMask : BitVec 32 := 0xF

/-- A byte at its place in a data register; bytes behind the data are zero. -/
def placed (data : List (BitVec 8)) (first i : Nat) : BitVec 32 :=
  if first + i < data.length then (data.getD (first + i) 0).setWidth 32 <<< (8 * i) else 0

/-- One register of `GenerateDataRegisters`. -/
def generateDataRegister (data : List (BitVec 8)) (first : Nat) : BitVec 32 :=
  placed data first 0 ||| placed data first 1 ||| placed data first 2 ||| placed data first 3

/-- `GenerateRDTRRegister`; the time stamp and the filter match index are zero. -/
def generateRdtrRegister (dlc : BitVec 32) : BitVec 32 :=
  dlc &&& 0xF

/-- `CANMessage(CANMessageFrame)`. -/
def ofFrame (message : CanMessageFrame) : CanMessage :=
  let stid := message.id
  let exid : BitVec 32 := 0
  let ide : BitVec 32 := if message.extendedFormat then 1 else 0
  let rtr : BitVec 32 := if message.remoteFrame then 1 else 0
  let dlc := BitVec.ofNat 32 message.data.length
  { rir := ((stid &&& stidMask) <<< 21) ||| ((exid &&& exidMask) <<< 3) |||
      ((ide &&& 1) <<< 2) ||| ((rtr &&& 1) <<< 1)
    rdtr := generateRdtrRegister dlc
    rlr := generateDataRegister message.data 0
    rhr := generateDataRegister message.data 4
    stid, rtr, ide, exid, dlc
    data := some message.data }

/-- The bytes that `ExtractDataRegisters` takes from the data registers. -/
def extractBytes (dlc rlr rhr : BitVec 32) : List (BitVec 8) :=
  List.ofFn fun i : Fin dlc.toNat =>
    if i.val < 4 then (rlr >>> (i.val * 8)).setWidth 8
    else if i.val < 8 then (rhr >>> ((i.val - 4) * 8)).setWidth 8
    else 0

/-- `ExtractDataRegisters`: without bytes `Data` stays `null`. -/
def extractDataRegisters (dlc rlr rhr : BitVec 32) : Option (List (BitVec 8)) :=
  if 0 < dlc then some (extractBytes dlc rlr rhr) else none

/-- `CANMessage(RIR, RDTR, RLR, RHR)`. -/
def ofRegisters (rir rdtr rlr rhr : BitVec 32) : CanMessage :=
  let rir := rir &&& rirMask
  let rdtr := rdtr &&& rdtrMask
  let dlc := rdtr &&& 0xF
  { rir, rdtr, rlr, rhr
    stid := (rir >>> 21) &&& stidMask
    exid := (rir >>> 3) &&& exidMask
    ide := (rir >>> 2) &&& 1
    rtr := (rir >>> 1) &&& 1
    dlc
    data := extractDataRegisters dlc rlr rhr }

/-! ## Reading a frame back -/

theorem getLsbD_placed (data : List (BitVec 8)) (first : Nat) {other i k : Nat}
    (otherPlace : other < 4) (place : i < 4) (bit : k < 8) :
    (placed data first other).getLsbD (i * 8 + k) =
      (decide (other = i) && (data.getD (first + i) 0).getLsbD k) := by
  unfold placed
  by_cases same : other = i
  · subst same
    by_cases inside : first + other < data.length
    · have shift : other * 8 + k - 8 * other = k := by omega
      rw [if_pos inside, BitVec.getLsbD_shiftLeft, BitVec.getLsbD_setWidth, shift]
      grind
    · rw [if_neg inside, List.getD_eq_default _ _ (Nat.le_of_not_lt inside)]
      simp
  · by_cases inside : first + other < data.length
    · rw [if_pos inside, BitVec.getLsbD_shiftLeft, BitVec.getLsbD_setWidth]
      have outside : (data.getD (first + other) 0).getLsbD (i * 8 + k - 8 * other) = false ∨
          i * 8 + k < 8 * other := by
        rcases Nat.lt_or_gt_of_ne same with less | less
        · exact .inl (BitVec.getLsbD_of_ge _ _ (by omega))
        · exact .inr (by omega)
      rcases outside with outside | outside
      · rw [outside, decide_eq_false same]
        simp
      · simp [outside, same]
    · rw [if_neg inside, decide_eq_false same]
      simp

/-- A byte of a data register. -/
theorem setWidth_generateDataRegister (data : List (BitVec 8)) (first : Nat) {i : Nat}
    (place : i < 4) :
    (generateDataRegister data first >>> (i * 8)).setWidth 8 = data.getD (first + i) 0 := by
  apply BitVec.eq_of_getLsbD_eq
  intro k bit
  unfold generateDataRegister
  simp only [BitVec.getLsbD_setWidth, BitVec.getLsbD_ushiftRight, BitVec.getLsbD_or]
  rw [getLsbD_placed _ _ (by decide) place bit, getLsbD_placed _ _ (by decide) place bit,
    getLsbD_placed _ _ (by decide) place bit, getLsbD_placed _ _ (by decide) place bit]
  have places : i = 0 ∨ i = 1 ∨ i = 2 ∨ i = 3 := by omega
  rcases places with rfl | rfl | rfl | rfl <;> simp [bit]

/-- The bytes of a frame are those that its data registers hold. -/
theorem extractBytes_generate {data : List (BitVec 8)} (short : data.length ≤ 8)
    {dlc : BitVec 32} (length : dlc.toNat = data.length) :
    extractBytes dlc (generateDataRegister data 0) (generateDataRegister data 4) = data := by
  apply List.ext_getElem
  · unfold extractBytes
    rw [List.length_ofFn, length]
  · intro i left right
    simp only [extractBytes, List.getElem_ofFn]
    split
    · rename_i low
      rw [setWidth_generateDataRegister data 0 low, Nat.zero_add]
      exact List.getD_eq_getElem data 0 right
    · rename_i high
      rw [if_pos (by omega), setWidth_generateDataRegister data 4 (by omega),
        Nat.add_sub_cancel' (Nat.le_of_not_lt high)]
      exact List.getD_eq_getElem data 0 right

/-- The data extracted from the registers of a frame: its bytes, but `null` when it has
none. -/
def extractedData (data : List (BitVec 8)) : Option (List (BitVec 8)) :=
  if data = [] then none else some data

theorem extractDataRegisters_generate {data : List (BitVec 8)} (short : data.length ≤ 8)
    {dlc : BitVec 32} (length : dlc.toNat = data.length) :
    extractDataRegisters dlc (generateDataRegister data 0) (generateDataRegister data 4) =
      extractedData data := by
  have some : 0 < dlc ↔ data ≠ [] := by
    rw [BitVec.lt_def, length]
    exact List.length_pos_iff
  unfold extractDataRegisters extractedData
  rw [extractBytes_generate short length]
  by_cases empty : data = []
  · rw [if_pos empty, if_neg (some.not.mpr (not_not.mpr empty))]
  · rw [if_neg empty, if_pos (some.mpr empty)]

/-- A field of a register as a number. -/
theorem toNat_shifted_and (word : BitVec 32) (start width : Nat) (small : width < 32) :
    ((word >>> start) &&& BitVec.ofNat 32 (2 ^ width - 1)).toNat =
      word.toNat / 2 ^ start % 2 ^ width := by
  have bound : 2 ^ width - 1 < 2 ^ 32 :=
    Nat.lt_of_le_of_lt (Nat.sub_le _ 1) (Nat.pow_lt_pow_right (by decide) small)
  rw [BitVec.toNat_and, BitVec.toNat_ushiftRight, BitVec.toNat_ofNat, Nat.mod_eq_of_lt bound,
    Nat.and_two_pow_sub_one_eq_mod, Nat.shiftRight_eq_div_pow]

/-- The flags of the identifier register. -/
theorem toNat_flags : ∀ extendedFormat remoteFrame : Bool,
    (((0 : BitVec 32) &&& exidMask) <<< 3 |||
        ((((if extendedFormat then 1 else 0 : BitVec 32) &&& 1) <<< 2) |||
          (((if remoteFrame then 1 else 0 : BitVec 32) &&& 1) <<< 1))).toNat =
      extendedFormat.toNat * 4 + remoteFrame.toNat * 2 := by
  decide +kernel

/-- The identifier register as a number. -/
theorem toNat_rir (message : CanMessageFrame) :
    (ofFrame message).rir.toNat =
      message.id.toNat % 2 ^ 11 * 2 ^ 21 +
        (message.extendedFormat.toNat * 4 + message.remoteFrame.toNat * 2) := by
  have masked : (message.id &&& stidMask).toNat = message.id.toNat % 2 ^ 11 := by
    rw [BitVec.toNat_and]
    exact Nat.and_two_pow_sub_one_eq_mod _ 11
  have shifted : ((message.id &&& stidMask) <<< 21).toNat =
      (message.id.toNat % 2 ^ 11) <<< 21 := by
    rw [BitVec.toNat_shiftLeft, masked, Nat.shiftLeft_eq]
    omega
  have joined {flags : BitVec 32} {number : Nat} (same : flags.toNat = number)
      (small : number < 2 ^ 21) :
      (((message.id &&& stidMask) <<< 21) ||| flags).toNat =
        message.id.toNat % 2 ^ 11 * 2 ^ 21 + number := by
    rw [BitVec.toNat_or, shifted, same, ← Nat.shiftLeft_add_eq_or_of_lt small, Nat.shiftLeft_eq]
  rcases message with ⟨id, data, extendedFormat, remoteFrame⟩
  unfold ofFrame
  dsimp only at *
  rw [BitVec.or_assoc, BitVec.or_assoc]
  apply joined (toNat_flags extendedFormat remoteFrame)
  have extended := extendedFormat.toNat_le
  have remote := remoteFrame.toNat_le
  omega

theorem toNat_rir_even (message : CanMessageFrame) : (ofFrame message).rir.toNat % 2 = 0 := by
  rw [toNat_rir]
  omega

theorem and_rirMask {word : BitVec 32} (even : word.toNat % 2 = 0) : word &&& rirMask = word := by
  have mask : ∀ i : Fin 32, rirMask.getLsbD i = decide (0 < i.val) := by decide +kernel
  apply BitVec.eq_of_getLsbD_eq
  intro i inside
  rw [BitVec.getLsbD_and, mask ⟨i, inside⟩]
  rcases Nat.eq_zero_or_pos i with rfl | positive
  · have lowest : word.getLsbD 0 = false := by
      rw [BitVec.getLsbD, Nat.testBit_zero, even]
      rfl
    rw [lowest]
    rfl
  · rw [decide_eq_true positive, Bool.and_true]

/-- The four register words of a frame with a standard identifier and at most eight bytes hold
it: extracted again they give the same message, unless it has no bytes. -/
theorem ofRegisters_ofFrame {message : CanMessageFrame} (standard : message.id.toNat < 2 ^ 11)
    (short : message.data.length ≤ 8) :
    ofRegisters (ofFrame message).rir (ofFrame message).rdtr (ofFrame message).rlr
      (ofFrame message).rhr = { ofFrame message with data := extractedData message.data } := by
  have number := toNat_rir message
  rw [Nat.mod_eq_of_lt standard] at number
  have extended := message.extendedFormat.toNat_le
  have remote := message.remoteFrame.toNat_le
  have rir : (ofFrame message).rir &&& rirMask = (ofFrame message).rir := by
    apply and_rirMask
    exact toNat_rir_even message
  have field (start width : Nat) (small : width < 32) {value : BitVec 32}
      (same : (ofFrame message).rir.toNat / 2 ^ start % 2 ^ width = value.toNat) :
      ((ofFrame message).rir >>> start) &&& BitVec.ofNat 32 (2 ^ width - 1) = value :=
    BitVec.eq_of_toNat_eq ((toNat_shifted_and _ start width small).trans same)
  have bit (set : Bool) : (if set then 1 else 0 : BitVec 32).toNat = set.toNat := by
    cases set <;> rfl
  have stid : ((ofFrame message).rir >>> 21) &&& stidMask = message.id :=
    field 21 11 (by decide) (by omega)
  have exid : ((ofFrame message).rir >>> 3) &&& exidMask = 0 := by
    apply field 3 18 (by decide)
    change _ = 0
    omega
  have ide : ((ofFrame message).rir >>> 2) &&& 1 = if message.extendedFormat then 1 else 0 :=
    field 2 1 (by decide) (by rw [bit]; omega)
  have rtr : ((ofFrame message).rir >>> 1) &&& 1 = if message.remoteFrame then 1 else 0 :=
    field 1 1 (by decide) (by rw [bit]; omega)
  have length : (BitVec.ofNat 32 message.data.length).toNat = message.data.length := by
    rw [BitVec.toNat_ofNat]
    omega
  have dlc : BitVec.ofNat 32 message.data.length &&& 0xF = BitVec.ofNat 32 message.data.length := by
    apply BitVec.eq_of_toNat_eq
    rw [BitVec.toNat_and, length]
    exact (Nat.and_two_pow_sub_one_eq_mod _ 4).trans (Nat.mod_eq_of_lt (by omega))
  have rdtr : (ofFrame message).rdtr = BitVec.ofNat 32 message.data.length := dlc
  have data : extractDataRegisters (BitVec.ofNat 32 message.data.length) (ofFrame message).rlr
      (ofFrame message).rhr = extractedData message.data :=
    extractDataRegisters_generate short length
  unfold ofRegisters rdtrMask
  dsimp only
  rw [rir, stid, exid, ide, rtr, rdtr, dlc, dlc, data]
  unfold ofFrame generateRdtrRegister
  dsimp only

end CanMessage

end EmbeddedBase.Dev.Renode
