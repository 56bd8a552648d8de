import EmbeddedBase.Transition.Core
import Mathlib.Tactic.Common

/-!
# Bounded first-in first-out queues

The queue as a step relation on its contents, and its law: over any run, what came
out followed by what is left is what was there followed by what went in.
-/

namespace EmbeddedBase.Transition

universe u

/-- What can happen to a queue. -/
inductive FifoEvent (α : Type u) where
  | push (item : α)
  | pop (item : α)
  | skip

namespace FifoEvent

variable {α : Type u}

/-- The items pushed, in order. -/
def pushed : List (FifoEvent α) → List α
  | [] => []
  | push item :: events => item :: pushed events
  | _ :: events => pushed events

/-- The items popped, in order. -/
def popped : List (FifoEvent α) → List α
  | [] => []
  | pop item :: events => item :: popped events
  | _ :: events => popped events

end FifoEvent

variable {α : Type u} [DecidableEq α] {capacity : Nat}

/-- A bounded queue; its contents are listed from the front. -/
def fifo (capacity : Nat) : Step (List α) (FifoEvent α)
  | contents, .push item =>
      if contents.length < capacity then some (contents ++ [item]) else none
  | front :: contents, .pop item => if front = item then some contents else none
  | [], .pop _ => none
  | contents, .skip => some contents

/-- Nothing is lost, duplicated or reordered. -/
theorem fifo_run_conserves {contents final : List α} {events : List (FifoEvent α)}
    (executed : run (fifo capacity) contents events = some final) :
    contents ++ FifoEvent.pushed events = FifoEvent.popped events ++ final := by
  induction events generalizing contents with
  | nil =>
      cases executed
      exact List.append_nil _
  | cons event events ih =>
      rcases run_cons_eq_some_iff.mp executed with ⟨middle, step, rest⟩
      have conserved := ih rest
      cases event with
      | push item =>
          rcases Option.ite_none_right_eq_some.mp step with ⟨_, appended⟩
          cases appended
          rw [List.append_assoc] at conserved
          exact conserved
      | pop item =>
          cases contents with
          | nil => cases step
          | cons front contents =>
              rcases Option.ite_none_right_eq_some.mp step with ⟨same, removed⟩
              cases removed
              rw [same]
              exact congrArg (List.cons item) conserved
      | skip =>
          cases step
          exact conserved

/-- The bound holds throughout. -/
theorem fifo_run_bounded {contents final : List α} {events : List (FifoEvent α)}
    (within : contents.length ≤ capacity)
    (executed : run (fifo capacity) contents events = some final) :
    final.length ≤ capacity := by
  have preserves : Preserves (fifo capacity) fun contents : List α =>
      contents.length ≤ capacity := by
    rintro contents event next within step
    cases event with
    | push item =>
        rcases Option.ite_none_right_eq_some.mp step with ⟨room, appended⟩
        cases appended
        rw [List.length_append]
        exact room
    | pop item =>
        cases contents with
        | nil => cases step
        | cons front contents =>
            rcases Option.ite_none_right_eq_some.mp step with ⟨_, removed⟩
            cases removed
            exact Nat.le_of_succ_le within
    | skip =>
        cases step
        exact within
  exact preserves.run within executed

end EmbeddedBase.Transition
