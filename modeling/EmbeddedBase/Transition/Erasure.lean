import EmbeddedBase.Transition.Machine

/-!
# Erasing calls that do nothing

A component that answers a call with a list of effects.  Calls that have no effect and
leave the state where an invariant holds can be erased from a call sequence, and the
invariant is only asked for after the calls that are kept.
-/

namespace EmbeddedBase.Transition

universe u v w

namespace Machine

variable {σ : Type u} {ι : Type v} {ε : Type w}

instance decidableAlways {machine : Machine σ ι ε} {guard : σ → ι → Prop}
    [∀ state call, Decidable (guard state call)] (start : σ) :
    (calls : List ι) → Decidable (machine.Always guard start calls)
  | [] => .isTrue trivial
  | call :: calls =>
      have := @decidableAlways machine guard _ (machine start call).2 calls
      inferInstanceAs (Decidable (_ ∧ _))

/-- Where the invariant holds, a call that is not kept does nothing. -/
def Ignores (machine : Machine σ ι (List ε)) (I : σ → Prop) (keep : ι → Bool) : Prop :=
  ∀ state call, I state → keep call = false → machine state call = ([], state)

variable {machine : Machine σ ι (List ε)} {I J : σ → Prop} {keep : ι → Bool} {start : σ}
  {calls : List ι}

/-- The call sequence and the kept calls end in the same state with the same effects. -/
theorem Ignores.erase (ignores : machine.Ignores I keep) (initial : I start)
    (stays : machine.Always (fun state call => I (machine state call).2) start
      (calls.filter keep)) :
    machine.final start calls = machine.final start (calls.filter keep) ∧
      (machine.replies start calls).flatten =
        (machine.replies start (calls.filter keep)).flatten := by
  induction calls generalizing start with
  | nil => exact ⟨rfl, rfl⟩
  | cons call calls ih =>
      by_cases kept : keep call = true
      · rw [List.filter_cons_of_pos kept] at stays ⊢
        rcases ih stays.1 stays.2 with ⟨final, effects⟩
        rw [final_cons, final_cons, replies_cons, replies_cons, List.flatten_cons,
          List.flatten_cons, effects]
        exact ⟨final, rfl⟩
      · have nothing := ignores start call initial (eq_false_of_ne_true kept)
        rw [List.filter_cons_of_neg kept] at stays ⊢
        rw [final_cons, replies_cons, nothing, List.flatten_cons, List.nil_append]
        exact ih initial stays

/-- The invariant holds at the end of the whole sequence. -/
theorem Ignores.final (ignores : machine.Ignores I keep) (initial : I start)
    (stays : machine.Always (fun state call => I (machine state call).2) start
      (calls.filter keep)) : I (machine.final start calls) := by
  rw [(ignores.erase initial stays).1]
  exact Always.final (fun _ _ _ kept => kept) initial stays

/-- What is kept as long as `I` holds comes with it. -/
theorem Always.and (keeps : ∀ state call, I state → J state → J (machine state call).2)
    (first : I start) (second : J start)
    (stays : machine.Always (fun state call => I (machine state call).2) start calls) :
    machine.Always (fun state call => I (machine state call).2 ∧ J (machine state call).2)
      start calls := by
  induction calls generalizing start with
  | nil => trivial
  | cons call calls ih =>
      have next := keeps start call first second
      exact ⟨⟨stays.1, next⟩, ih stays.1 next stays.2⟩

end Machine

end EmbeddedBase.Transition
