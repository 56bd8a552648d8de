import EmbeddedBase.Transition.Machine
import Mathlib.Tactic.Common

/-!
# Queues that report what they lose

A component reports the items that enter one of its queues and those that leave it, and has
a flag for losses.  When each step keeps the order of the items, so does each run; when each
step that loses an item leaves the flag set and none clears it, a run that ends with the
flag clear has lost nothing.
-/

namespace EmbeddedBase.Transition

universe u v w x

/-- A queue of a component: what it holds, how much it may hold, the effects with which an
item enters and leaves it, and the flag. -/
structure Flow (σ : Type u) (ε : Type v) (α : Type w) where
  contents : σ → List α
  capacity : Nat
  enters : ε → Option α
  leaves : ε → Option α
  lost : σ → Bool

namespace Flow

variable {σ : Type u} {ε : Type v} {α : Type w} {ι : Type x} {flow : Flow σ ε α}
  {state middle final : σ} {effects others : List ε}

/-- What left and what is left is what was there and what entered. -/
def Conserves (flow : Flow σ ε α) (state : σ) (effects : List ε) (final : σ) : Prop :=
  effects.filterMap flow.leaves ++ flow.contents final =
    flow.contents state ++ effects.filterMap flow.enters

/-- What left and what is left is, in order, part of what was there and what entered, and the
queue stays within its capacity. -/
structure Keeps (flow : Flow σ ε α) (state : σ) (effects : List ε) (final : σ) : Prop where
  inOrder : (effects.filterMap flow.leaves ++ flow.contents final).Sublist
    (flow.contents state ++ effects.filterMap flow.enters)
  within : (flow.contents state).length ≤ flow.capacity →
    (flow.contents final).length ≤ flow.capacity

/-- The flag stays set, and it is set when an item was lost. -/
structure Reports (flow : Flow σ ε α) (state : σ) (effects : List ε) (final : σ) : Prop
    extends flow.Keeps state effects final where
  stays : flow.lost state = true → flow.lost final = true
  conserves : flow.lost final = false → flow.Conserves state effects final

theorem Conserves.trans (first : flow.Conserves state effects middle)
    (second : flow.Conserves middle others final) :
    flow.Conserves state (effects ++ others) final := by
  unfold Conserves at *
  rw [List.filterMap_append, List.filterMap_append, List.append_assoc, second,
    ← List.append_assoc, first, List.append_assoc]

theorem Keeps.trans (first : flow.Keeps state effects middle)
    (second : flow.Keeps middle others final) : flow.Keeps state (effects ++ others) final where
  inOrder := by
    rw [List.filterMap_append, List.filterMap_append, List.append_assoc,
      ← List.append_assoc (flow.contents state)]
    have later := second.inOrder.append_left (effects.filterMap flow.leaves)
    rw [← List.append_assoc (effects.filterMap flow.leaves) (flow.contents middle)] at later
    exact later.trans (first.inOrder.append_right (others.filterMap flow.enters))
  within inside := second.within (first.within inside)

theorem Reports.trans (first : flow.Reports state effects middle)
    (second : flow.Reports middle others final) :
    flow.Reports state (effects ++ others) final where
  toKeeps := first.toKeeps.trans second.toKeeps
  stays set := second.stays (first.stays set)
  conserves clear := by
    have earlier : flow.lost middle = false := by
      rcases set : flow.lost middle with - | -
      · rfl
      · exact (second.stays set).symm.trans clear
    exact (first.conserves earlier).trans (second.conserves clear)

/-- Nothing enters, leaves or is lost. -/
theorem reports_of_same (contents : flow.contents final = flow.contents state)
    (lost : flow.lost final = flow.lost state) (enters : effects.filterMap flow.enters = [])
    (leaves : effects.filterMap flow.leaves = []) : flow.Reports state effects final where
  inOrder := by
    rw [contents, enters, leaves, List.nil_append, List.append_nil]
  within inside := by rwa [contents]
  stays set := lost.trans set
  conserves _ := by
    unfold Conserves
    rw [contents, enters, leaves, List.nil_append, List.append_nil]

/-- Nothing is lost. -/
theorem reports_of_conserves (conserves : flow.Conserves state effects final)
    (within : (flow.contents state).length ≤ flow.capacity →
      (flow.contents final).length ≤ flow.capacity)
    (lost : flow.lost final = flow.lost state) : flow.Reports state effects final where
  inOrder := by
    unfold Conserves at conserves
    rw [conserves]
  within := within
  stays set := lost.trans set
  conserves _ := conserves

theorem keeps_run {machine : Machine σ ι (List ε)}
    (steps : ∀ state call, flow.Keeps state (machine state call).1 (machine state call).2)
    (state : σ) (calls : List ι) :
    flow.Keeps state (machine.replies state calls).flatten (machine.final state calls) := by
  induction calls generalizing state with
  | nil => exact (reports_of_same rfl rfl rfl rfl).toKeeps
  | cons call calls ih => exact (steps state call).trans (ih _)

theorem reports_run {machine : Machine σ ι (List ε)} {guard : ι → Prop}
    (steps : ∀ state call, guard call →
      flow.Reports state (machine state call).1 (machine state call).2)
    (state : σ) {calls : List ι} (all : ∀ call ∈ calls, guard call) :
    flow.Reports state (machine.replies state calls).flatten (machine.final state calls) := by
  induction calls generalizing state with
  | nil => exact reports_of_same rfl rfl rfl rfl
  | cons call calls ih =>
      exact (steps state call (all call List.mem_cons_self)).trans
        (ih _ fun other member => all other (List.mem_cons_of_mem call member))

end Flow

end EmbeddedBase.Transition
