import EmbeddedBase.Platforms.Stm32f405.Bxcan
import EmbeddedBase.Transition.Machine
import Mathlib.Algebra.Ring.Nat
import Mathlib.Data.Set.Basic

/-!
# Sets of listed frames

What the filter API is for: a set of data frames, extended by every call that is
not refused, with room for fourteen calls.
-/

namespace EmbeddedBase.Platforms.Stm32f405

open EmbeddedBase.Transition

/-- A call of the filter API. -/
inductive FilterCall where
  | standard (canIdList : Fin 4 → BitVec 16)
  | extended (canIdList : Fin 2 → BitVec 32)

namespace FilterCall

/-- What the API promises to be called with: extended ids of 29 bits. -/
def Admissible : FilterCall → Prop
  | standard _ => True
  | extended canIdList => ∀ i, (canIdList i).toNat < 2 ^ 29

/-- Every listed id is an id of the call's format. -/
def Valid : FilterCall → Prop
  | standard canIdList => ∀ i, (canIdList i).toNat ≤ 0x7FF
  | extended _ => True

instance (call : FilterCall) : Decidable call.Valid := by
  cases call <;> unfold Valid <;> infer_instance

/-- The frame is a data frame of the call's format whose id is listed. -/
def Lists : FilterCall → Frame → Prop
  | standard canIdList, frame =>
      ∃ i id, frame = .standard id false ∧ id.toNat = (canIdList i).toNat
  | extended canIdList, frame =>
      ∃ i id, frame = .extended id false ∧ id.toNat = (canIdList i).toNat

end FilterCall

/-! ## Refused calls -/

section

variable {σ : Type} {configFilter : CanFilter → σ → HalStatus × σ} {can : Can σ}

/-- A call with an id that is no standard id, or without a free bank, changes nothing. -/
theorem canAddFilterStandard_of_refused {canIdList : Fin 4 → BitVec 16}
    (refused : ¬(can.filterBank.toNat < 14 ∧ (FilterCall.standard canIdList).Valid)) :
    canAddFilterStandard configFilter can canIdList = (.error, can) := by
  by_cases full : 14 ≤ can.filterBank.toNat
  · exact if_pos full
  · have invalid : ∃ i, 0x7FF < (canIdList i).toNat := by
      by_contra none_large
      apply refused
      refine ⟨Nat.not_le.mp full, fun i => ?_⟩
      exact Nat.le_of_not_lt fun large => none_large ⟨i, large⟩
    exact (if_neg full).trans (if_pos invalid)

/-- A call without a free bank changes nothing. -/
theorem canAddFilterExtended_of_refused {canIdList : Fin 2 → BitVec 32}
    (refused : ¬(can.filterBank.toNat < 14 ∧ (FilterCall.extended canIdList).Valid)) :
    canAddFilterExtended configFilter can canIdList = (.error, can) := by
  have full : 14 ≤ can.filterBank.toNat := by
    by_contra room
    exact refused ⟨Nat.not_le.mp room, trivial⟩
  exact if_pos full

/-- The ids of a valid standard call pass the check. -/
theorem not_exists_large {canIdList : Fin 4 → BitVec 16}
    (valid : (FilterCall.standard canIdList).Valid) : ¬∃ i, 0x7FF < (canIdList i).toNat := by
  rintro ⟨i, large⟩
  exact absurd (valid i) (Nat.not_le.mpr large)

end

/-! ## The set -/

/-- The number of accepted calls, and the frames they listed. -/
structure FilterSet where
  used : Nat
  listed : Set Frame

namespace FilterSet

/-- A call is accepted while there is room and its ids are valid. -/
def serve : Machine FilterSet FilterCall HalStatus := fun set call =>
  if set.used < 14 ∧ call.Valid then
    (.ok, ⟨set.used + 1, set.listed ∪ {frame | call.Lists frame}⟩)
  else
    (.error, set)

theorem serve_of_accepted {set : FilterSet} {call : FilterCall}
    (accepted : set.used < 14 ∧ call.Valid) :
    serve set call = (.ok, ⟨set.used + 1, set.listed ∪ {frame | call.Lists frame}⟩) :=
  if_pos accepted

theorem serve_of_refused {set : FilterSet} {call : FilterCall}
    (refused : ¬(set.used < 14 ∧ call.Valid)) : serve set call = (.error, set) :=
  if_neg refused

/-- The accepted calls are counted. -/
theorem used_final (set : FilterSet) (calls : List FilterCall) :
    (serve.final set calls).used = set.used + (serve.replies set calls).count .ok := by
  induction calls generalizing set with
  | nil => rfl
  | cons call calls ih =>
      rw [Machine.final_cons, Machine.replies_cons, ih]
      by_cases accepted : set.used < 14 ∧ call.Valid
      · rw [serve_of_accepted accepted, List.count_cons_self]
        exact Nat.add_right_comm _ _ _
      · rw [serve_of_refused accepted, List.count_cons_of_ne HalStatus.noConfusion]

/-- The set holds what it held, and what the accepted calls listed. -/
theorem mem_listed_final (set : FilterSet) (calls : List FilterCall) (frame : Frame) :
    frame ∈ (serve.final set calls).listed ↔
      frame ∈ set.listed ∨
        ∃ call, (call, HalStatus.ok) ∈ calls.zip (serve.replies set calls) ∧
          call.Lists frame := by
  induction calls generalizing set with
  | nil => simp
  | cons call calls ih =>
      rw [Machine.final_cons, Machine.replies_cons, ih]
      by_cases accepted : set.used < 14 ∧ call.Valid
      · rw [serve_of_accepted accepted]
        constructor
        · rintro ((held | lists) | ⟨other, member, lists⟩)
          · exact .inl held
          · exact .inr ⟨call, List.mem_cons_self, lists⟩
          · exact .inr ⟨other, List.mem_cons_of_mem _ member, lists⟩
        · rintro (held | ⟨other, member, lists⟩)
          · exact .inl (.inl held)
          · rcases List.mem_cons.mp member with same | member
            · cases same
              exact .inl (.inr lists)
            · exact .inr ⟨other, member, lists⟩
      · rw [serve_of_refused accepted]
        simp

end FilterSet

end EmbeddedBase.Platforms.Stm32f405
