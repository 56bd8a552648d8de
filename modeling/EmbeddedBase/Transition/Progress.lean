import EmbeddedBase.Transition.Machine

/-!
# Progress

When no call raises a rank and the counted calls lower it until a goal is reached, as many
counted calls as the rank lead to the goal, or to a rank of zero, whatever other calls come
between them.
-/

namespace EmbeddedBase.Transition

universe u v w

namespace Machine

variable {σ : Type u} {ι : Type v} {ο : Type w}

/-- One of the states that the calls go through is a goal. -/
def Reaches (machine : Machine σ ι ο) (goal : σ → Prop) (start : σ) (calls : List ι) : Prop :=
  ∃ before after, calls = before ++ after ∧ goal (machine.final start before)

/-- A guarded call keeps `I`, does not raise the rank and lowers it when it is counted, unless
it reaches the goal. -/
def Lowers (machine : Machine σ ι ο) (guard : ι → Prop) (I goal : σ → Prop) (rank : σ → Nat)
    (counts : ι → Bool) : Prop :=
  ∀ state call, I state → guard call → goal (machine state call).2 ∨
    (I (machine state call).2 ∧ rank (machine state call).2 ≤ rank state - [call].countP counts)

variable {machine : Machine σ ι ο} {guard : ι → Prop} {I goal : σ → Prop} {rank : σ → Nat}
  {counts : ι → Bool} {start : σ} {calls first second : List ι}

theorem reaches_cons {call : ι}
    (reaches : machine.Reaches goal (machine start call).2 calls) :
    machine.Reaches goal start (call :: calls) := by
  rcases reaches with ⟨before, after, rfl, reached⟩
  exact ⟨call :: before, after, rfl, reached⟩

theorem Reaches.append_right (reaches : machine.Reaches goal start first) (second : List ι) :
    machine.Reaches goal start (first ++ second) := by
  rcases reaches with ⟨before, after, rfl, reached⟩
  exact ⟨before, after ++ second, List.append_assoc before after second, reached⟩

theorem reaches_append (reaches : machine.Reaches goal (machine.final start first) second) :
    machine.Reaches goal start (first ++ second) := by
  rcases reaches with ⟨before, after, rfl, reached⟩
  refine ⟨first ++ before, after, (List.append_assoc first before after).symm, ?_⟩
  rw [final_append]
  exact reached

/-- As many counted calls as the rank reach the goal or bring the rank to zero. -/
theorem Lowers.run (lowers : machine.Lowers guard I goal rank counts) (initial : I start)
    (all : ∀ call ∈ calls, guard call) (enough : rank start ≤ calls.countP counts) :
    machine.Reaches goal start calls ∨
      (I (machine.final start calls) ∧ rank (machine.final start calls) = 0) := by
  induction calls generalizing start with
  | nil => exact .inr ⟨initial, Nat.le_zero.mp enough⟩
  | cons call calls ih =>
      rcases lowers start call initial (all call List.mem_cons_self) with reached | ⟨kept, lower⟩
      · exact .inl ⟨[call], calls, rfl, reached⟩
      · rw [← List.singleton_append, List.countP_append] at enough
        have rest : rank (machine start call).2 ≤ calls.countP counts := by omega
        rcases ih kept (fun other member => all other (List.mem_cons_of_mem call member)) rest with
          reaches | ended
        · exact .inl (reaches_cons reaches)
        · exact .inr ended

end Machine

end EmbeddedBase.Transition
