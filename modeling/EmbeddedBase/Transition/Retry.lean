import Mathlib.Order.Basic
import Mathlib.Tactic.Common

/-!
# Retry loops

A loop that repeats an attempt until one succeeds or the attempts run out.
-/

namespace EmbeddedBase.Transition

universe u

variable {σ : Type u}

/-- Repeat `body` while `again` holds, at most `fuel` times. -/
def repeatWhile (again : σ → Prop) [DecidablePred again] (body : σ → σ) : Nat → σ → σ
  | 0, state => state
  | fuel + 1, state =>
      if again state then repeatWhile again body fuel (body state) else state

theorem repeatWhile_of_not {again : σ → Prop} [DecidablePred again] {body : σ → σ}
    {state : σ} (stop : ¬again state) (fuel : Nat) :
    repeatWhile again body fuel state = state := by
  cases fuel with
  | zero => rfl
  | succ fuel => exact if_neg stop

/-- Attempt `k` is the first of `limit` attempts that succeeds. -/
structure FirstSuccess (succeeds : Nat → Prop) (limit k : Nat) : Prop where
  within : k < limit
  success : succeeds k
  earlier : ∀ j < k, ¬succeeds j

theorem FirstSuccess.unique {succeeds : Nat → Prop} {limit j k : Nat}
    (first : FirstSuccess succeeds limit j) (other : FirstSuccess succeeds limit k) :
    j = k := by
  rcases Nat.lt_trichotomy j k with before | same | after
  · exact absurd first.success (other.earlier j before)
  · exact same
  · exact absurd other.success (first.earlier k after)

/-- A loop that tries attempts `0`, `1`, … below `limit` and stops after the first
success.  `trying k` describes the states before attempt `k`, and `done k` those after
attempt `k` succeeded. -/
theorem repeatWhile_retries {again : σ → Prop} [DecidablePred again] {body : σ → σ}
    {succeeds : Nat → Prop} {limit : Nat} {trying done : Nat → σ → Prop}
    (continues : ∀ k state, trying k state → (again state ↔ k < limit))
    (stops : ∀ k state, done k state → ¬again state)
    (success : ∀ k state, trying k state → k < limit → succeeds k → done k (body state))
    (failure : ∀ k state, trying k state → k < limit → ¬succeeds k →
      trying (k + 1) (body state))
    {fuel : Nat} {state : σ} (enough : limit ≤ fuel) (initial : trying 0 state) :
    ¬again (repeatWhile again body fuel state) ∧
      ((∃ k, FirstSuccess succeeds limit k ∧ done k (repeatWhile again body fuel state)) ∨
        (∀ k < limit, ¬succeeds k) ∧ trying limit (repeatWhile again body fuel state)) := by
  -- The induction is on the fuel, from the state before any attempt `k`.
  suffices general : ∀ fuel k state, k ≤ limit → limit ≤ k + fuel → trying k state →
      (∀ j < k, ¬succeeds j) →
      ¬again (repeatWhile again body fuel state) ∧
        ((∃ k, FirstSuccess succeeds limit k ∧
            done k (repeatWhile again body fuel state)) ∨
          (∀ k < limit, ¬succeeds k) ∧
            trying limit (repeatWhile again body fuel state)) from
    general fuel 0 state (Nat.zero_le _) (by omega) initial fun j none => absurd none (by omega)
  clear initial enough
  intro fuel
  induction fuel with
  | zero =>
      intro k state below enough tried failed
      have all : k = limit := by omega
      rw [all] at tried failed
      refine ⟨fun more => ?_, .inr ⟨failed, tried⟩⟩
      exact absurd ((continues limit state tried).mp more) (Nat.lt_irrefl limit)
  | succ fuel ih =>
      intro k state below enough tried failed
      by_cases within : k < limit
      · have step : repeatWhile again body (fuel + 1) state =
            repeatWhile again body fuel (body state) :=
          if_pos ((continues k state tried).mpr within)
        rw [step]
        by_cases succeeded : succeeds k
        · have finished := success k state tried within succeeded
          have stop := stops k _ finished
          rw [repeatWhile_of_not stop]
          exact ⟨stop, .inl ⟨k, ⟨within, succeeded, failed⟩, finished⟩⟩
        · refine ih (k + 1) (body state) within (by omega)
            (failure k state tried within succeeded) ?_
          intro j before
          rcases Nat.lt_succ_iff_lt_or_eq.mp before with earlier | rfl
          · exact failed j earlier
          · exact succeeded
      · have stop : ¬again state := fun more => within ((continues k state tried).mp more)
        have all : k = limit := by omega
        rw [all] at tried failed
        rw [repeatWhile_of_not stop]
        exact ⟨stop, .inr ⟨failed, tried⟩⟩

end EmbeddedBase.Transition
