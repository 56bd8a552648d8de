import EmbeddedBase.Transition.Machine
import Mathlib.Data.List.Induction

/-!
# How long ago something happened

A call with some property, and the number of counted calls after it.  A countdown that such
calls set to a limit and the counted calls take one from is above zero exactly when one of
them is less than the limit ago.
-/

namespace EmbeddedBase.Transition

universe u v w

namespace Machine

variable {σ : Type u} {ι : Type v} {ο : Type w}

/-- A call that had the property in the state it was made in was followed by so many counted
calls. -/
def Since (machine : Machine σ ι ο) (property : σ → ι → Prop) (counts : ι → Bool) (start : σ)
    (calls : List ι) (count : Nat) : Prop :=
  ∃ before call after, calls = before ++ call :: after ∧
    property (machine.final start before) call ∧ after.countP counts = count

variable {machine : Machine σ ι ο} {property : σ → ι → Prop} {counts : ι → Bool} {start : σ}
  {calls : List ι} {call : ι} {count limit : Nat}

theorem not_since_nil : ¬machine.Since property counts start [] count := by
  rintro ⟨before, call, after, split, -⟩
  exact absurd split.symm (by simp)

theorem since_concat_iff :
    machine.Since property counts start (calls ++ [call]) count ↔
      (property (machine.final start calls) call ∧ count = 0) ∨
        ∃ earlier, machine.Since property counts start calls earlier ∧
          count = earlier + [call].countP counts := by
  constructor
  · rintro ⟨before, other, after, split, holds, rfl⟩
    rcases List.eq_nil_or_concat after with rfl | ⟨after, last, rfl⟩
    · rcases List.append_inj' split rfl with ⟨rfl, same⟩
      cases same
      exact .inl ⟨holds, rfl⟩
    · rw [List.concat_eq_append, ← List.cons_append, ← List.append_assoc] at split
      rcases List.append_inj' split rfl with ⟨rfl, same⟩
      cases same
      refine .inr ⟨_, ⟨before, other, after, rfl, holds, rfl⟩, ?_⟩
      rw [List.concat_eq_append, List.countP_append]
  · rintro (⟨holds, rfl⟩ | ⟨earlier, ⟨before, other, after, rfl, holds, rfl⟩, rfl⟩)
    · exact ⟨calls, call, [], rfl, holds, rfl⟩
    · refine ⟨before, other, after ++ [call], ?_, holds, List.countP_append⟩
      rw [List.append_assoc, List.cons_append]

theorem final_concat (machine : Machine σ ι ο) (start : σ) (calls : List ι) (call : ι) :
    machine.final start (calls ++ [call]) = (machine (machine.final start calls) call).2 := by
  rw [final_append]
  rfl

/-! ## Countdowns -/

variable {I : σ → Prop} {remaining : σ → Nat}

/-- A countdown above zero has been set, and only counted calls were less than the limit
since. -/
theorem since_of_pos (keeps : ∀ state call, I state → I (machine state call).2)
    (reset : ∀ state call, I state → property state call →
      remaining (machine state call).2 ≤ limit)
    (counted : ∀ state call, I state → ¬property state call →
      remaining (machine state call).2 ≤ remaining state - [call].countP counts)
    (initial : I start) (unset : remaining start = 0) (calls : List ι)
    (positive : 0 < remaining (machine.final start calls)) :
    ∃ count, machine.Since property counts start calls count ∧
      remaining (machine.final start calls) ≤ limit - count := by
  induction calls using List.reverseRecOn with
  | nil => exact absurd unset (Nat.ne_of_gt positive)
  | append_singleton calls call ih =>
      rw [final_concat] at positive ⊢
      have before := final_of_keeps keeps initial calls
      by_cases holds : property (machine.final start calls) call
      · refine ⟨0, since_concat_iff.mpr (.inl ⟨holds, rfl⟩), ?_⟩
        exact reset _ call before holds
      · have step := counted _ call before holds
        rcases ih (by omega) with ⟨count, since, bound⟩
        exact ⟨_, since_concat_iff.mpr (.inr ⟨count, since, rfl⟩), by omega⟩

/-- A countdown that was set is not below the limit less the counted calls since. -/
theorem le_of_since (keeps : ∀ state call, I state → I (machine state call).2)
    (reset : ∀ state call, I state → property state call →
      limit ≤ remaining (machine state call).2)
    (counted : ∀ state call, I state → ¬property state call →
      remaining state - [call].countP counts ≤ remaining (machine state call).2)
    (initial : I start) {calls : List ι} {count : Nat}
    (since : machine.Since property counts start calls count) :
    limit - count ≤ remaining (machine.final start calls) := by
  induction calls using List.reverseRecOn generalizing count with
  | nil => exact absurd since not_since_nil
  | append_singleton calls call ih =>
      rw [final_concat]
      have kept := final_of_keeps keeps initial calls
      by_cases holds : property (machine.final start calls) call
      · have set := reset _ call kept holds
        omega
      · have step := counted _ call kept holds
        rcases since_concat_iff.mp since with ⟨now, -⟩ | ⟨earlier, before, rfl⟩
        · exact absurd now holds
        · have bound := ih before
          omega

end Machine

end EmbeddedBase.Transition
