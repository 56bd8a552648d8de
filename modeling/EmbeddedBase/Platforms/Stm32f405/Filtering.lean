import EmbeddedBase.Data.BitField
import EmbeddedBase.Platforms.Stm32f405.FilterSet

/-!
# Exact acceptance filtering

A word programmed by `can_add_filter_standard` is the layout word of one
standard data frame only, and a word programmed by `can_add_filter_extended`
that of one extended data frame.  Over a run of calls the accepted frames are
therefore exactly those listed in the calls that succeeded.
-/

namespace EmbeddedBase.Platforms.Stm32f405

open EmbeddedBase.Data
open EmbeddedBase.Transition

/-! ## Layout words -/

namespace Frame

theorem toNat_layout16 (frame : Frame) :
    frame.layout16.toNat =
      frame.stid.toNat * 2 ^ 5 + frame.rtr.toNat * 2 ^ 4 + frame.ide.toNat * 2 ^ 3 +
        (frame.exid.extractLsb' 15 3).toNat := by
  simp only [layout16, toNat_append_eq_add, BitVec.toNat_ofBool]
  omega

theorem toNat_layout32 (frame : Frame) :
    frame.layout32.toNat =
      (frame.stid.toNat * 2 ^ 18 + frame.exid.toNat) * 2 ^ 3 + frame.ide.toNat * 2 ^ 2 +
        frame.rtr.toNat * 2 := by
  simp only [layout32, toNat_append_eq_add, BitVec.toNat_ofBool, BitVec.toNat_ofNat]
  omega

/-- The two id fields of an extended frame make up its id. -/
theorem stid_exid_extended (id : BitVec 29) (rtr : Bool) :
    (extended id rtr).stid.toNat * 2 ^ 18 + (extended id rtr).exid.toNat = id.toNat := by
  have small := id.isLt
  simp only [stid, exid, BitVec.extractLsb'_toNat, Nat.shiftRight_eq_div_pow]
  omega

end Frame

/-! ## Programmed words -/

/-- The word programmed for a standard id. -/
theorem toNat_standard_word {id : BitVec 16} (valid : id.toNat ≤ 0x7FF) :
    (((id <<< 5).setWidth 32).setWidth 16).toNat = id.toNat * 2 ^ 5 := by
  simp only [BitVec.toNat_setWidth, BitVec.toNat_shiftLeft, Nat.shiftLeft_eq]
  omega

/-- The word programmed for an extended id. -/
theorem toNat_extended_word {id : BitVec 32} (valid : id.toNat < 2 ^ 29) :
    (((id >>> 13) <<< 16) ||| (((id <<< 3) &&& 0xFFF8#32) ||| (1#32 <<< 2))).toNat =
      id.toNat * 2 ^ 3 + 2 ^ 2 := by
  have high : ((id >>> 13) <<< 16).toNat = (id.toNat / 2 ^ 13) <<< 16 := by
    simp only [BitVec.toNat_shiftLeft, BitVec.toNat_ushiftRight, Nat.shiftLeft_eq,
      Nat.shiftRight_eq_div_pow]
    omega
  have shifted : (id <<< 3).toNat = id.toNat <<< 3 := by
    simp only [BitVec.toNat_shiftLeft, Nat.shiftLeft_eq]
    omega
  have masked : ((id <<< 3) &&& 0xFFF8#32).toNat = (id.toNat % 2 ^ 13) <<< 3 := by
    rw [BitVec.toNat_and, shifted, show (0xFFF8#32).toNat = (2 ^ 13 - 1) <<< 3 from rfl,
      ← Nat.shiftLeft_and_distrib, Nat.and_two_pow_sub_one_eq_mod]
  have low : (((id <<< 3) &&& 0xFFF8#32) ||| (1#32 <<< 2)).toNat =
      (id.toNat % 2 ^ 13) <<< 3 + 2 ^ 2 := by
    rw [BitVec.toNat_or, masked, show (1#32 <<< 2).toNat = 2 ^ 2 from rfl,
      Nat.shiftLeft_add_eq_or_of_lt (by decide)]
  rw [BitVec.toNat_or, high, low, ← Nat.shiftLeft_add_eq_or_of_lt (by
    rw [Nat.shiftLeft_eq]; omega)]
  simp only [Nat.shiftLeft_eq]
  omega

/-- A standard word is the layout word of exactly the standard data frame with
that id. -/
theorem layout16_eq_standard_word_iff {id : BitVec 16} (valid : id.toNat ≤ 0x7FF)
    (frame : Frame) :
    frame.layout16 = ((id <<< 5).setWidth 32).setWidth 16 ↔
      ∃ stid, frame = .standard stid false ∧ stid.toNat = id.toNat := by
  rw [← BitVec.toNat_inj, toNat_standard_word valid, Frame.toNat_layout16]
  constructor
  · intro equal
    have exidSmall := (frame.exid.extractLsb' 15 3).isLt
    have rtrSmall := frame.rtr.toNat_lt
    have ideSmall := frame.ide.toNat_lt
    cases frame with
    | standard stid rtr =>
        cases rtr with
        | false =>
            refine ⟨stid, rfl, ?_⟩
            simp only [Frame.stid, Frame.rtr, Frame.ide, Bool.toNat_false] at equal
            omega
        | true =>
            simp only [Frame.stid, Frame.rtr, Bool.toNat_true] at equal
            omega
    | extended id rtr =>
        simp only [Frame.ide, Bool.toNat_true] at equal
        omega
  · rintro ⟨stid, rfl, same⟩
    simp [Frame.stid, Frame.exid, Frame.ide, Frame.rtr, same]

/-- An extended word is the layout word of exactly the extended data frame with
that id. -/
theorem layout32_eq_extended_word_iff {id : BitVec 32} (valid : id.toNat < 2 ^ 29)
    (frame : Frame) :
    frame.layout32 =
        ((id >>> 13) <<< 16) ||| (((id <<< 3) &&& 0xFFF8#32) ||| (1#32 <<< 2)) ↔
      ∃ extId, frame = .extended extId false ∧ extId.toNat = id.toNat := by
  rw [← BitVec.toNat_inj, toNat_extended_word valid, Frame.toNat_layout32]
  constructor
  · intro equal
    cases frame with
    | standard stid rtr =>
        have rtrSmall := rtr.toNat_lt
        simp only [Frame.ide, Frame.rtr, Bool.toNat_false] at equal
        omega
    | extended extId rtr =>
        rw [Frame.stid_exid_extended] at equal
        cases rtr with
        | false =>
            refine ⟨extId, rfl, ?_⟩
            simp only [Frame.ide, Frame.rtr, Bool.toNat_false, Bool.toNat_true] at equal
            omega
        | true =>
            simp only [Frame.ide, Frame.rtr, Bool.toNat_true] at equal
            omega
  · rintro ⟨extId, rfl, same⟩
    rw [Frame.stid_exid_extended, same]
    simp [Frame.ide, Frame.rtr]

/-! ## Runs of calls -/

/-- The filter API of the platform over the bxCAN peripheral. -/
def addFilter : Machine (Can Bxcan) FilterCall HalStatus
  | can, .standard canIdList => canAddFilterStandard halCanConfigFilter can canIdList
  | can, .extended canIdList => canAddFilterExtended halCanConfigFilter can canIdList

/-- A refused call leaves the driver and the peripheral as they are. -/
theorem addFilter_of_refused {can : Can Bxcan} {call : FilterCall}
    (refused : ¬(can.filterBank.toNat < 14 ∧ call.Valid)) :
    addFilter can call = (.error, can) := by
  cases call with
  | standard canIdList => exact canAddFilterStandard_of_refused refused
  | extended canIdList => exact canAddFilterExtended_of_refused refused

/-- An accepted call programs the next bank, with words that let through exactly
the frames it lists. -/
theorem addFilter_of_accepted {can : Can Bxcan} {call : FilterCall}
    (admissible : call.Admissible) (accepted : can.filterBank.toNat < 14 ∧ call.Valid) :
    ∃ bank : Bank, (∀ frame, bank.Admits frame ↔ call.Lists frame) ∧
      addFilter can call =
        (.ok, ⟨⟨Function.update can.hcan.banks can.filterBank.toNat (some bank)⟩,
          can.filterBank + 1⟩) := by
  have room : ¬14 ≤ can.filterBank.toNat := by omega
  cases call with
  | standard canIdList =>
      have valid : ∀ i, (canIdList i).toNat ≤ 0x7FF := accepted.2
      have none_large := not_exists_large valid
      refine ⟨_, fun frame => ?_, (if_neg room).trans (if_neg none_large)⟩
      simp only [CanFilter.bank, Bank.Admits, List.mem_cons, List.not_mem_nil, or_false,
        layout16_eq_standard_word_iff (valid _), FilterCall.Lists, Fin.exists_fin_succ,
        IsEmpty.exists_iff]
      rfl
  | extended canIdList =>
      refine ⟨_, fun frame => ?_, if_neg room⟩
      simp only [CanFilter.bank, Bank.Admits, List.mem_cons, List.not_mem_nil, or_false,
        layout32_eq_extended_word_iff (admissible _), FilterCall.Lists, Fin.exists_fin_succ,
        IsEmpty.exists_iff]
      rfl

/-- The driver's counter is the number of banks in use, and the peripheral
accepts the listed frames. -/
structure Represents (can : Can Bxcan) (set : FilterSet) : Prop where
  counted : can.filterBank.toNat = set.used
  unused : ∀ i, set.used ≤ i → can.hcan.banks i = none
  accepts_iff : ∀ frame, can.hcan.Accepts frame ↔ frame ∈ set.listed

/-- Programming an unused bank adds its frames to the accepted ones. -/
theorem accepts_update_iff {bxcan : Bxcan} {i : Nat} (unused : bxcan.banks i = none)
    (bank : Bank) (frame : Frame) :
    (Bxcan.mk (Function.update bxcan.banks i (some bank))).Accepts frame ↔
      bxcan.Accepts frame ∨ bank.Admits frame := by
  constructor
  · rintro ⟨j, other, programmed, admits⟩
    change Function.update bxcan.banks i (some bank) j = some other at programmed
    by_cases same : j = i
    · subst same
      rw [Function.update_self] at programmed
      cases programmed
      exact .inr admits
    · rw [Function.update_of_ne same] at programmed
      exact .inl ⟨j, other, programmed, admits⟩
  · rintro (⟨j, other, programmed, admits⟩ | admits)
    · have different : j ≠ i := by
        rintro rfl
        rw [unused] at programmed
        cases programmed
      exact ⟨j, other, (Function.update_of_ne different _ _).trans programmed, admits⟩
    · exact ⟨i, bank, Function.update_self _ _ _, admits⟩

/-- Call by call, the driver is the set of listed frames. -/
theorem addFilter_simulates :
    Machine.Simulates addFilter FilterSet.serve FilterCall.Admissible Represents := by
  rintro can set call represents admissible
  by_cases accepted : can.filterBank.toNat < 14 ∧ call.Valid
  · obtain ⟨bank, admits, step⟩ := addFilter_of_accepted admissible accepted
    rw [step, FilterSet.serve_of_accepted (by rwa [← represents.counted])]
    refine ⟨rfl, ?_, ?_, ?_⟩
    · have counted := represents.counted
      have next : (can.filterBank + 1).toNat = can.filterBank.toNat + 1 :=
        BitVec.toNat_add_of_lt (by change can.filterBank.toNat + 1 < 2 ^ 32; omega)
      exact next.trans (by rw [counted])
    · intro i later
      have different : i ≠ can.filterBank.toNat := by
        rw [represents.counted]
        exact Nat.ne_of_gt later
      exact (Function.update_of_ne different _ _).trans
        (represents.unused i (Nat.le_of_succ_le later))
    · intro frame
      rw [accepts_update_iff (represents.unused _ represents.counted.ge),
        represents.accepts_iff, admits]
      rfl
  · rw [addFilter_of_refused accepted,
      FilterSet.serve_of_refused (by rwa [← represents.counted])]
    exact ⟨rfl, represents⟩

/-- The peripheral out of reset. -/
def Bxcan.reset : Bxcan :=
  ⟨fun _ => none⟩

/-- `can_init` starts from an empty filter set. -/
theorem represents_canInit (activated started : HalStatus) (filterBank : BitVec 32) :
    Represents (canInit activated started ⟨.reset, filterBank⟩).2 ⟨0, ∅⟩ := by
  have cleared : (canInit activated started ⟨Bxcan.reset, filterBank⟩).2 = ⟨.reset, 0⟩ := by
    unfold canInit
    split <;> rfl
  rw [cleared]
  constructor
  · rfl
  · intro i _
    rfl
  · intro frame
    constructor
    · rintro ⟨i, bank, programmed, _⟩
      cases programmed
    · intro member
      cases member

/-- After `can_init` and any sequence of filter calls, the accepted frames are
exactly the data frames listed in the calls that returned `HAL_OK`.  A call
returns `HAL_OK` while fewer than fourteen have and its ids are valid; any other
call returns `HAL_ERROR` and changes nothing. -/
theorem can_filters_exact (activated started : HalStatus) (filterBank : BitVec 32)
    {calls : List FilterCall} (admissible : ∀ call ∈ calls, call.Admissible) :
    let start := (canInit activated started ⟨Bxcan.reset, filterBank⟩).2
    (∀ frame, (addFilter.final start calls).hcan.Accepts frame ↔
        ∃ call, (call, HalStatus.ok) ∈ calls.zip (addFilter.replies start calls) ∧
          call.Lists frame) ∧
      ∀ before call after, calls = before ++ call :: after →
        let current := addFilter.final start before
        if (addFilter.replies start before).count .ok < 14 ∧ call.Valid then
          (addFilter current call).1 = .ok
        else
          addFilter current call = (.error, current) := by
  intro start
  have represents : Represents start ⟨0, ∅⟩ :=
    represents_canInit activated started filterBank
  constructor
  · intro frame
    rw [(addFilter_simulates.final represents admissible).accepts_iff,
      FilterSet.mem_listed_final, addFilter_simulates.replies represents admissible]
    exact or_iff_right (Set.notMem_empty frame)
  · rintro before call after rfl current
    have admissibleBefore : ∀ other ∈ before, other.Admissible := fun other member =>
      admissible other (List.mem_append_left _ member)
    have used : current.filterBank.toNat = (addFilter.replies start before).count .ok := by
      rw [(addFilter_simulates.final represents admissibleBefore).counted,
        FilterSet.used_final, addFilter_simulates.replies represents admissibleBefore]
      exact Nat.zero_add _
    rw [← used]
    split
    · rename_i accepted
      rcases addFilter_of_accepted (admissible call (by simp)) accepted with ⟨bank, _, step⟩
      rw [step]
    · rename_i refused
      exact addFilter_of_refused refused

/-- Two accepted calls and a refused one: the extended frame of a number listed as
standard only is not accepted. -/
theorem can_filters_exact_example :
    let start := (canInit .ok .ok ⟨Bxcan.reset, 7⟩).2
    let calls := [.standard fun _ => 6, .extended fun _ => 5, .standard fun _ => 0x800]
    (addFilter.final start calls).hcan.Accepts (.extended 5 false) ∧
      ¬(addFilter.final start calls).hcan.Accepts (.extended 6 false) := by
  intro start calls
  have admissible : ∀ call ∈ calls, call.Admissible := by
    simp [calls, FilterCall.Admissible]
  have accepts_iff := (can_filters_exact .ok .ok 7 admissible).1
  have replies : addFilter.replies start calls = [.ok, .ok, .error] := by decide
  constructor
  · rw [accepts_iff, replies]
    exact ⟨.extended fun _ => 5, by simp [calls], 0, 5, rfl, rfl⟩
  · rw [accepts_iff, replies]
    rintro ⟨call, member, lists⟩
    simp only [calls, List.zip_cons_cons, List.mem_cons, Prod.mk.injEq] at member
    rcases member with ⟨rfl, _⟩ | ⟨rfl, _⟩ | ⟨_, impossible⟩ | none
    · obtain ⟨_, _, same, _⟩ := lists
      cases same
    · obtain ⟨_, id, same, number⟩ := lists
      cases same
      exact absurd (show 6 = 5 from number) (by decide)
    · cases impossible
    · cases none

end EmbeddedBase.Platforms.Stm32f405
