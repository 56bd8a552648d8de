import EmbeddedBase.Platforms.Stm32f405.FilterSet
import EmbeddedBase.Platforms.Stm32h563.Fdcan
import EmbeddedBase.Transition.SlotCounter

/-!
# Filter slots

Runs of filter additions on two platforms, whatever the HAL answers.  The STM32F405 driver
counts a bank before it asks the HAL, so a failure of the HAL costs a bank; the STM32H563
driver counts afterwards.
-/

/-! ## STM32F405 -/

namespace EmbeddedBase.Platforms.Stm32f405

open EmbeddedBase.Transition

/-- An addition, with what `HAL_CAN_ConfigFilter` returns if it is called. -/
structure Addition where
  call : FilterCall
  configured : HalStatus

/-- `HAL_CAN_ConfigFilter` with a given result, keeping the filters it was called with. -/
def recordFilter (configured : HalStatus) (filter : CanFilter) (record : List CanFilter) :
    HalStatus × List CanFilter :=
  (configured, filter :: record)

/-- The driver's part of an addition. -/
def addRecorded (can : Can (List CanFilter)) (addition : Addition) :
    HalStatus × Can (List CanFilter) :=
  match addition.call with
  | .standard canIdList => canAddFilterStandard (recordFilter addition.configured) can canIdList
  | .extended canIdList => canAddFilterExtended (recordFilter addition.configured) can canIdList

/-- Additions that answer with the status, and the bank of the filter last configured. -/
def additions : Machine (Can (List CanFilter)) Addition (HalStatus × Option Nat) :=
  fun can addition =>
    let outcome := addRecorded can addition
    ((outcome.1, outcome.2.hcan.head?.map fun filter => filter.filterBank.toNat), outcome.2)

/-- The banks. -/
def bankView : SlotView (Can (List CanFilter)) (HalStatus × Option Nat) where
  counter can := can.filterBank.toNat
  succeeded reply := reply.1 = .ok
  slot reply := reply.2

/-- No failed addition costs a bank: valid additions reach the HAL until fourteen of them
have succeeded. -/
structure NoSlotLost (start : Can (List CanFilter)) (calls : List Addition) : Prop where
  exact : bankView.Exact additions start calls
  room : ∀ before addition after, calls = before ++ addition :: after →
    (bankView.successes additions start before).length < 14 → addition.call.Valid →
    ∃ filter, (additions.final start (before ++ [addition])).hcan =
      filter :: (additions.final start before).hcan

/-- The addition does not reach the HAL, or the HAL accepts the filter. -/
def HalAccepts (can : Can (List CanFilter)) (addition : Addition) : Prop :=
  can.filterBank.toNat < 14 → addition.call.Valid → addition.configured = .ok

/-- An addition that is refused before the HAL changes nothing. -/
theorem addRecorded_of_refused {can : Can (List CanFilter)} {addition : Addition}
    (refused : ¬(can.filterBank.toNat < 14 ∧ addition.call.Valid)) :
    addRecorded can addition = (.error, can) := by
  rcases addition with ⟨call, configured⟩
  cases call with
  | standard canIdList => exact canAddFilterStandard_of_refused refused
  | extended canIdList => exact canAddFilterExtended_of_refused refused

/-- An addition that reaches the HAL counts a bank whatever the HAL returns. -/
theorem addRecorded_of_reached {can : Can (List CanFilter)} {addition : Addition}
    (room : can.filterBank.toNat < 14) (valid : addition.call.Valid) :
    ∃ filter, filter.filterBank = can.filterBank ∧ addRecorded can addition =
      (addition.configured, ⟨filter :: can.hcan, can.filterBank + 1⟩) := by
  rcases addition with ⟨call, configured⟩
  cases call with
  | standard canIdList =>
      exact ⟨_, rfl, (if_neg (Nat.not_le.mpr room)).trans (if_neg (not_exists_large valid))⟩
  | extended canIdList => exact ⟨_, rfl, if_neg (Nat.not_le.mpr room)⟩

/-- One addition keeps the banks exact when the HAL accepts it, and only then. -/
theorem takesNext_additions_iff (can : Can (List CanFilter)) (addition : Addition) :
    bankView.TakesNext additions can addition ↔ HalAccepts can addition := by
  by_cases reached : can.filterBank.toNat < 14 ∧ addition.call.Valid
  · rcases reached with ⟨room, valid⟩
    rcases addRecorded_of_reached room valid with ⟨filter, bank, outcome⟩
    have advanced : (can.filterBank + 1).toNat = can.filterBank.toNat + 1 :=
      BitVec.toNat_add_of_lt (by change can.filterBank.toNat + 1 < 2 ^ 32; omega)
    have step : additions can addition = ((addition.configured, some can.filterBank.toNat),
        ⟨filter :: can.hcan, can.filterBank + 1⟩) := by
      simp [additions, outcome, bank]
    by_cases accepted : addition.configured = .ok
    · have succeeds : bankView.succeeded (additions can addition).1 = true := by
        rw [step, accepted]
        rfl
      rw [SlotView.takesNext_of_true succeeds, step]
      exact iff_of_true ⟨rfl, advanced⟩ fun _ _ => accepted
    · have fails : bankView.succeeded (additions can addition).1 = false := by
        rw [step]
        exact decide_eq_false accepted
      rw [SlotView.takesNext_of_false fails, step]
      refine iff_of_false ?_ fun accepts => accepted (accepts room valid)
      intro kept
      exact Nat.succ_ne_self _ (advanced.symm.trans kept)
  · have step : additions can addition =
        ((.error, can.hcan.head?.map fun filter => filter.filterBank.toNat), can) := by
      simp [additions, addRecorded_of_refused reached]
    have fails : bankView.succeeded (additions can addition).1 = false := by
      rw [step]
      rfl
    rw [SlotView.takesNext_of_false fails, step]
    exact iff_of_true rfl fun room valid => absurd ⟨room, valid⟩ reached

theorem filterBank_canInit (activated started : HalStatus) (can : Can (List CanFilter)) :
    (canInit activated started can).2.filterBank = 0 := by
  unfold canInit
  split <;> rfl

/-- A run loses no bank exactly when the HAL accepts every filter it is given. -/
theorem noSlotLost_iff {start : Can (List CanFilter)} {calls : List Addition}
    (unused : start.filterBank = 0) :
    NoSlotLost start calls ↔ additions.Always HalAccepts start calls := by
  have always : bankView.Exact additions start calls ↔ additions.Always HalAccepts start calls := by
    rw [SlotView.exact_iff_always (congrArg BitVec.toNat unused)]
    simp only [Machine.always_iff_forall_split, takesNext_additions_iff]
  rw [← always]
  constructor
  · exact NoSlotLost.exact
  · intro exact
    refine ⟨exact, ?_⟩
    intro before addition after split few valid
    rw [← exact.counted before _ split] at few
    rcases addRecorded_of_reached few valid with ⟨filter, -, outcome⟩
    refine ⟨filter, ?_⟩
    rw [Machine.final_append]
    exact congrArg (fun reached => reached.2.hcan) outcome

end EmbeddedBase.Platforms.Stm32f405

/-! ## STM32H563 -/

namespace EmbeddedBase.Platforms.Stm32h563

open EmbeddedBase.Transition

/-- The ids of an addition. -/
inductive FilterIds
  | standard (canIds : BitVec 16 × BitVec 16)
  | extended (canIds : BitVec 32 × BitVec 32)

/-- The kind of filter. -/
def FilterIds.idType : FilterIds → IdType
  | .standard _ => .standard
  | .extended _ => .extended

/-- An addition, with what `HAL_FDCAN_ConfigFilter` does. -/
structure Addition where
  ids : FilterIds
  configured : HalResult

/-- The driver's part of an addition. -/
def addFilter (can : Can) (addition : Addition) : HalStatus × Can :=
  match addition.ids with
  | .standard canIds => canAddFilterStandard (fun _ => addition.configured) can canIds
  | .extended canIds => canAddFilterExtended (fun _ => addition.configured) can canIds

/-- The answer to an addition: its kind, the status, and the index of the peripheral's
newest filter. -/
structure AdditionReply where
  idType : IdType
  status : HalStatus
  slot : Option Nat

/-- Additions with their answers. -/
def additions : Machine Can Addition AdditionReply :=
  fun can addition =>
    let outcome := addFilter can addition
    ({ idType := addition.ids.idType
       status := outcome.1
       slot := outcome.2.fdcan.filters.getLast?.map fun filter => filter.filterIndex.toNat },
      outcome.2)

/-- The index that counts the filters of a kind. -/
def Can.filterIndex (can : Can) : IdType → BitVec 32
  | .standard => can.standardFilterIndex
  | .extended => can.extendedFilterIndex

/-- The slots of a kind. -/
def indexView (idType : IdType) : SlotView Can AdditionReply where
  counter can := (can.filterIndex idType).toNat
  succeeded reply := reply.idType = idType ∧ reply.status = .ok
  slot := AdditionReply.slot

/-- No failed addition costs a slot, of either kind. -/
def NoSlotLost (start : Can) (calls : List Addition) : Prop :=
  ∀ idType, (indexView idType).Exact additions start calls

/-- The addition fails, or the index has not reached its last value. -/
def IndexHasRoom (can : Can) (addition : Addition) : Prop :=
  addition.configured.status = .ok →
    (can.filterIndex addition.ids.idType).toNat + 1 < 2 ^ 32

/-- A failed addition leaves both indices alone. -/
theorem addFilter_of_fails {can : Can} {addition : Addition}
    (fails : addition.configured.status ≠ .ok) :
    addFilter can addition =
      (addition.configured.status, { can with fdcan := addition.configured.left }) := by
  rcases addition with ⟨ids, configured⟩
  cases ids <;> simp [addFilter, canAddFilterStandard, canAddFilterExtended, halCalls, fails]

/-- The filter appended, and counted by the index of its kind. -/
def Can.installed (can : Can) (filter : Filter) : Can :=
  match filter.idType with
  | .standard =>
      { can with
        fdcan := Fdcan.configFilter filter can.fdcan
        standardFilterIndex := can.standardFilterIndex + 1 }
  | .extended =>
      { can with
        fdcan := Fdcan.configFilter filter can.fdcan
        extendedFilterIndex := can.extendedFilterIndex + 1 }

theorem filters_installed (can : Can) (filter : Filter) :
    (can.installed filter).fdcan.filters = can.fdcan.filters ++ [filter] := by
  unfold Can.installed
  split <;> rfl

theorem filterIndex_installed_self (can : Can) (filter : Filter) :
    (can.installed filter).filterIndex filter.idType = can.filterIndex filter.idType + 1 := by
  unfold Can.installed
  cases filter.idType <;> rfl

theorem filterIndex_installed_of_ne (can : Can) {filter : Filter} {idType : IdType}
    (other : filter.idType ≠ idType) :
    (can.installed filter).filterIndex idType = can.filterIndex idType := by
  unfold Can.installed
  cases kind : filter.idType <;> cases idType <;> first | rfl | exact absurd kind other

/-- A successful addition installs a filter at the index of its kind. -/
theorem addFilter_of_succeeds (can : Can) {addition : Addition}
    (succeeds : addition.configured.status = .ok) :
    ∃ filter, filter.idType = addition.ids.idType ∧
      filter.filterIndex = can.filterIndex addition.ids.idType ∧
      addFilter can addition = (.ok, can.installed filter) := by
  rcases addition with ⟨ids, configured⟩
  have called (effect : Fdcan → Fdcan) :
      halCalls (fun _ => configured) 0 [effect] can.fdcan = (.ok, effect can.fdcan) :=
    if_neg (not_not_intro succeeds)
  cases ids with
  | standard canIds =>
      refine ⟨⟨.standard, can.standardFilterIndex, canIds.1.setWidth 32, canIds.2.setWidth 32⟩,
        rfl, rfl, ?_⟩
      dsimp only [addFilter]
      rw [canAddFilterStandard, called]
      exact if_neg (not_not_intro rfl)
  | extended canIds =>
      refine ⟨⟨.extended, can.extendedFilterIndex, canIds.1, canIds.2⟩, rfl, rfl, ?_⟩
      dsimp only [addFilter]
      rw [canAddFilterExtended, called]
      exact if_neg (not_not_intro rfl)

theorem toNat_add_one_eq_iff (index : BitVec 32) :
    (index + 1).toNat = index.toNat + 1 ↔ index.toNat + 1 < 2 ^ 32 := by
  have below := index.isLt
  have one : (1 : BitVec 32).toNat = 1 := rfl
  rw [BitVec.toNat_add, one]
  omega

/-- A failed addition keeps both indices exact. -/
theorem takesNext_of_fails {can : Can} {addition : Addition}
    (fails : addition.configured.status ≠ .ok) (idType : IdType) :
    (indexView idType).TakesNext additions can addition := by
  have step : (additions can addition).2 = { can with fdcan := addition.configured.left } :=
    congrArg Prod.snd (addFilter_of_fails fails)
  have status : (additions can addition).1.status = addition.configured.status :=
    congrArg Prod.fst (addFilter_of_fails fails)
  have failed : (indexView idType).succeeded (additions can addition).1 = false :=
    decide_eq_false fun both => fails (status.symm.trans both.2)
  rw [SlotView.takesNext_of_false failed, step]
  cases idType <;> rfl

section

variable {can : Can} {addition : Addition} {filter : Filter}

/-- A successful addition keeps the index of its kind exact unless it wraps. -/
theorem takesNext_own_iff (kind : filter.idType = addition.ids.idType)
    (step : additions can addition = (⟨addition.ids.idType, .ok,
      some (can.filterIndex addition.ids.idType).toNat⟩, can.installed filter)) :
    (indexView addition.ids.idType).TakesNext additions can addition ↔
      (can.filterIndex addition.ids.idType).toNat + 1 < 2 ^ 32 := by
  have counted : (indexView addition.ids.idType).succeeded (additions can addition).1 := by
    rw [step]
    exact decide_eq_true ⟨rfl, rfl⟩
  have next : (can.installed filter).filterIndex addition.ids.idType =
      can.filterIndex addition.ids.idType + 1 := by
    rw [← kind, filterIndex_installed_self]
  rw [SlotView.takesNext_of_true counted, step]
  dsimp only [indexView]
  rw [next, toNat_add_one_eq_iff]
  exact ⟨And.right, fun room => ⟨rfl, room⟩⟩

/-- It leaves the other index alone. -/
theorem takesNext_other (kind : filter.idType = addition.ids.idType)
    (step : additions can addition = (⟨addition.ids.idType, .ok,
      some (can.filterIndex addition.ids.idType).toNat⟩, can.installed filter))
    {idType : IdType} (other : addition.ids.idType ≠ idType) :
    (indexView idType).TakesNext additions can addition := by
  have passed : (indexView idType).succeeded (additions can addition).1 = false := by
    rw [step]
    exact decide_eq_false fun both => other both.1
  rw [SlotView.takesNext_of_false passed, step]
  dsimp only [indexView]
  rw [filterIndex_installed_of_ne can (by rwa [kind])]

end

/-- One addition keeps the indices exact unless the index of its kind wraps. -/
theorem forall_takesNext_iff (can : Can) (addition : Addition) :
    (∀ idType, (indexView idType).TakesNext additions can addition) ↔
      IndexHasRoom can addition := by
  by_cases succeeds : addition.configured.status = .ok
  · rcases addFilter_of_succeeds can succeeds with ⟨filter, kind, index, outcome⟩
    have step : additions can addition = (⟨addition.ids.idType, .ok,
        some (can.filterIndex addition.ids.idType).toNat⟩, can.installed filter) := by
      simp [additions, outcome, filters_installed, index]
    constructor
    · exact fun all _ => (takesNext_own_iff kind step).mp (all _)
    · intro room idType
      by_cases same : addition.ids.idType = idType
      · rw [← same]
        exact (takesNext_own_iff kind step).mpr (room succeeds)
      · exact takesNext_other kind step same
  · exact iff_of_true (takesNext_of_fails succeeds) fun ok => absurd ok succeeds

/-- A run loses no slot exactly while no index wraps. -/
theorem noSlotLost_iff {start : Can} {calls : List Addition}
    (unused : ∀ idType, start.filterIndex idType = 0) :
    NoSlotLost start calls ↔ additions.Always IndexHasRoom start calls := by
  have always (idType : IdType) : (indexView idType).Exact additions start calls ↔
      additions.Always ((indexView idType).TakesNext additions) start calls :=
    SlotView.exact_iff_always (congrArg BitVec.toNat (unused idType))
  simp only [NoSlotLost, always, Machine.always_iff_forall_split, ← forall_takesNext_iff]
  constructor
  · exact fun all before call after split idType => all idType before call after split
  · exact fun all idType before call after split => all before call after split idType

end EmbeddedBase.Platforms.Stm32h563

/-! ## Both platforms -/

namespace EmbeddedBase.Platforms

open Stm32f405 (CanFilter)

/-- After `can_init`, runs of additions lose no filter slot on the STM32F405 exactly when the
HAL accepts every filter it is given, and on the STM32H563 exactly while no index wraps. -/
theorem filter_slots_exact_iff (activated started : HalStatus)
    (can : Stm32f405.Can (List CanFilter)) (calls : List Stm32f405.Addition)
    (result : Nat → Stm32h563.HalResult) (fdcan : Stm32h563.Fdcan)
    (fdcanCalls : List Stm32h563.Addition) :
    (Stm32f405.NoSlotLost (Stm32f405.canInit activated started can).2 calls ↔
      Stm32f405.additions.Always Stm32f405.HalAccepts
        (Stm32f405.canInit activated started can).2 calls) ∧
      (Stm32h563.NoSlotLost (Stm32h563.canInit result fdcan).2 fdcanCalls ↔
        Stm32h563.additions.Always Stm32h563.IndexHasRoom
          (Stm32h563.canInit result fdcan).2 fdcanCalls) := by
  constructor
  · exact Stm32f405.noSlotLost_iff (Stm32f405.filterBank_canInit activated started can)
  · apply Stm32h563.noSlotLost_iff
    intro idType
    cases idType <;> rfl

/-- One failure of the HAL on the STM32F405 costs a bank. -/
theorem failed_filter_costs_bank :
    ¬Stm32f405.NoSlotLost
      (Stm32f405.canInit .ok .ok (⟨[], 0⟩ : Stm32f405.Can (List CanFilter))).2
      [⟨.extended fun _ => 0x800, .error⟩] := by
  intro lossless
  have counted := lossless.exact.counted [_] [] rfl
  exact absurd counted (by decide)

end EmbeddedBase.Platforms
