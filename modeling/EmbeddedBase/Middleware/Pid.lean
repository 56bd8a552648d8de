import EmbeddedBase.Transition.Faulting
import Mathlib.Algebra.Order.Field.Rat
import Mathlib.Data.List.Chain
import Mathlib.Tactic.NormNum

/-!
# The PID controller

The model of `pid_init` and `pid_calculate` in `pid.c`, with `float` as the rationals and a
division that has no result when the divisor is zero.  The divisor of the derivative term is
the difference of two readings of a clock that ticks in milliseconds.
-/

namespace EmbeddedBase.Middleware.Pid

open EmbeddedBase.Transition

/-! ## The controller -/

/-- `pid_t`. -/
structure PidT where
  kP : ℚ
  kI : ℚ
  kD : ℚ
  errTol : ℚ
  err : ℚ
  prevErr : ℚ
  prevTime : ℚ
  minOut : ℚ
  maxOut : ℚ
  integralSum : ℚ

/-- `(float)HAL_GetTick() / 1000`. -/
def seconds (tick : Nat) : ℚ :=
  (tick : ℚ) / 1000

/-- A division of the controller. -/
def divide (dividend divisor : ℚ) : Option ℚ :=
  if divisor = 0 then none else some (dividend / divisor)

/-- `pid_init`; `tick` is what `HAL_GetTick` returns. -/
def pidInit (kP kI kD errTol minOut maxOut : ℚ) (tick : Nat) : PidT :=
  { kP := kP
    kI := kI
    kD := kD
    errTol := errTol
    err := 0
    prevErr := 0
    prevTime := seconds tick
    minOut := minOut
    maxOut := maxOut
    integralSum := 0 }

/-- The arguments of a call, with what `HAL_GetTick` returns in it. -/
structure Sample where
  setpoint : ℚ
  measurement : ℚ
  tick : Nat

/-- The time step `period` of a call, and the controller with its `prev_time`. -/
def pidPeriod (pid : PidT) (tick : Nat) : ℚ × PidT :=
  if pid.kI > 0 ∨ pid.kD > 0 then
    let currTime := seconds tick
    (currTime - pid.prevTime, { pid with prevTime := currTime })
  else
    (0, pid)

/-- The Riemann sum. -/
def pidIntegrate (pid : PidT) (period : ℚ) : PidT :=
  if pid.kI > 0 then { pid with integralSum := pid.integralSum + pid.err * period } else pid

/-- The proportional and the integral term. -/
def pidTerms (pid : PidT) : ℚ :=
  let output := if pid.kP > 0 then 0 + pid.kP * pid.err else 0
  if pid.kI > 0 then output + pid.kI * pid.integralSum else output

/-- The output clamped to `min_out` and `max_out`. -/
def pidClamp (pid : PidT) (output : ℚ) : ℚ :=
  if output < pid.minOut then pid.minOut
  else if output > pid.maxOut then pid.maxOut
  else output

/-- `pid_calculate`. -/
def pidCalculate (pid : PidT) (sample : Sample) : Option (ℚ × PidT) :=
  let pid := { pid with err := sample.setpoint - sample.measurement }
  let timed := pidPeriod pid sample.tick
  let pid := pidIntegrate timed.2 timed.1
  let output := pidTerms pid
  if pid.kD > 0 then
    (divide (pid.err - pid.prevErr) timed.1).map fun derivative =>
      (pidClamp pid (output + pid.kD * derivative), { pid with prevErr := pid.err })
  else
    some (pidClamp pid output, pid)

/-- The time step that a call uses. -/
def timeStep (pid : PidT) (sample : Sample) : ℚ :=
  (pidPeriod { pid with err := sample.setpoint - sample.measurement } sample.tick).1

/-! ## One call -/

theorem pidClamp_mem {pid : PidT} (limits : pid.minOut ≤ pid.maxOut) (output : ℚ) :
    pid.minOut ≤ pidClamp pid output ∧ pidClamp pid output ≤ pid.maxOut := by
  unfold pidClamp
  split
  · exact ⟨le_rfl, limits⟩
  · rename_i large
    split
    · exact ⟨limits, le_rfl⟩
    · rename_i small
      exact ⟨not_lt.mp large, not_lt.mp small⟩

theorem seconds_le_iff {first second : Nat} : seconds first ≤ seconds second ↔ first ≤ second := by
  rw [seconds, seconds, div_le_div_iff_of_pos_right (by norm_num), Nat.cast_le]

theorem seconds_lt_iff {first second : Nat} : seconds first < seconds second ↔ first < second := by
  rw [seconds, seconds, div_lt_div_iff_of_pos_right (by norm_num), Nat.cast_lt]

/-- The settings of `pid_init` that decide what a call does. -/
structure SameSettings (pid pid' : PidT) : Prop where
  kI : pid'.kI = pid.kI
  kD : pid'.kD = pid.kD
  minOut : pid'.minOut = pid.minOut
  maxOut : pid'.maxOut = pid.maxOut

theorem SameSettings.trans {first second third : PidT} (before : SameSettings first second)
    (after : SameSettings second third) : SameSettings first third :=
  ⟨after.kI.trans before.kI, after.kD.trans before.kD, after.minOut.trans before.minOut,
    after.maxOut.trans before.maxOut⟩

/-- The controller measures the time step from the reading `last`. -/
def TimedFrom (pid : PidT) (last : Nat) : Prop :=
  pid.kI > 0 ∨ pid.kD > 0 → pid.prevTime = seconds last

theorem sameSettings_pidPeriod (pid : PidT) (tick : Nat) :
    SameSettings pid (pidPeriod pid tick).2 := by
  unfold pidPeriod
  split <;> exact ⟨rfl, rfl, rfl, rfl⟩

theorem timedFrom_pidPeriod (pid : PidT) (tick : Nat) : TimedFrom (pidPeriod pid tick).2 tick := by
  intro used
  rw [(sameSettings_pidPeriod pid tick).kI, (sameSettings_pidPeriod pid tick).kD] at used
  rw [pidPeriod, if_pos used]

theorem sameSettings_pidIntegrate (pid : PidT) (period : ℚ) :
    SameSettings pid (pidIntegrate pid period) := by
  unfold pidIntegrate
  split <;> exact ⟨rfl, rfl, rfl, rfl⟩

theorem prevTime_pidIntegrate (pid : PidT) (period : ℚ) :
    (pidIntegrate pid period).prevTime = pid.prevTime := by
  unfold pidIntegrate
  split <;> rfl

/-- A time step that is used is the time since the last reading. -/
theorem timeStep_of_timedFrom {pid : PidT} {last : Nat} (timed : TimedFrom pid last)
    (used : pid.kI > 0 ∨ pid.kD > 0) (sample : Sample) :
    timeStep pid sample = seconds sample.tick - seconds last := by
  rw [← timed used]
  exact congrArg Prod.fst (if_pos used)

theorem divide_eq_none_iff {dividend divisor : ℚ} :
    divide dividend divisor = none ↔ divisor = 0 := by
  simp [divide]

/-- What a call leaves before the derivative term. -/
theorem before_derivative (pid : PidT) (sample : Sample) :
    let timed := pidPeriod { pid with err := sample.setpoint - sample.measurement } sample.tick
    SameSettings pid (pidIntegrate timed.2 timed.1) ∧
      TimedFrom (pidIntegrate timed.2 timed.1) sample.tick := by
  intro timed
  have integrated := sameSettings_pidIntegrate timed.2 timed.1
  have begun : SameSettings pid { pid with err := sample.setpoint - sample.measurement } :=
    ⟨rfl, rfl, rfl, rfl⟩
  constructor
  · exact (begun.trans (sameSettings_pidPeriod _ _)).trans integrated
  · intro used
    rw [integrated.kI, integrated.kD] at used
    rw [prevTime_pidIntegrate]
    exact timedFrom_pidPeriod _ _ used

/-- A call faults exactly when it derives over a time step of zero. -/
theorem pidCalculate_eq_none_iff {pid : PidT} {sample : Sample} :
    pidCalculate pid sample = none ↔ pid.kD > 0 ∧ timeStep pid sample = 0 := by
  rw [pidCalculate, timeStep, (before_derivative pid sample).1.kD]
  by_cases derives : pid.kD > 0
  · rw [if_pos derives, Option.map_eq_none_iff, divide_eq_none_iff]
    exact ⟨fun zero => ⟨derives, zero⟩, fun both => both.2⟩
  · rw [if_neg derives]
    exact iff_of_false (nomatch ·) fun both => derives both.1

/-- A call that returns keeps the settings and notes the time, and its output is clamped. -/
theorem pidCalculate_eq_some {pid pid' : PidT} {sample : Sample} {output : ℚ}
    (limits : pid.minOut ≤ pid.maxOut)
    (returned : pidCalculate pid sample = some (output, pid')) :
    SameSettings pid pid' ∧ TimedFrom pid' sample.tick ∧
      pid.minOut ≤ output ∧ output ≤ pid.maxOut := by
  rcases before_derivative pid sample with ⟨settings, timed⟩
  have clamped (raw : ℚ) := pidClamp_mem
    (by rw [settings.minOut, settings.maxOut]; exact limits) raw
  rw [settings.minOut, settings.maxOut] at clamped
  rw [pidCalculate] at returned
  split at returned
  · rcases Option.map_eq_some_iff.mp returned with ⟨derivative, -, equal⟩
    cases equal
    exact ⟨⟨settings.kI, settings.kD, settings.minOut, settings.maxOut⟩, timed, clamped _⟩
  · cases returned
    exact ⟨settings, timed, clamped _⟩

/-! ## Runs -/

/-- The calls on a controller, with the reading of the clock before the next call. -/
def pidLoop : Faulting (PidT × Nat) Sample ℚ :=
  fun running sample =>
    (pidCalculate running.1 sample).map fun outcome => (outcome.1, (outcome.2, sample.tick))

/-- A call on a controller of the given settings: it divides by no zero, its output is within
the limits, and its time step is the time since the last reading. -/
structure Safe (settings pid : PidT) (last : Nat) (sample : Sample) : Prop where
  withinLimits : ∃ output pid', pidCalculate pid sample = some (output, pid') ∧
    settings.minOut ≤ output ∧ output ≤ settings.maxOut
  elapsed : settings.kI > 0 ∨ settings.kD > 0 →
    timeStep pid sample = seconds sample.tick - seconds last ∧ 0 ≤ timeStep pid sample
  positive : settings.kD > 0 → 0 < timeStep pid sample

/-- No call has faulted, and the next one is safe. -/
def SafeCall (settings : PidT) (state : Option (PidT × Nat)) (sample : Sample) : Prop :=
  ∃ pid last, state = some (pid, last) ∧ Safe settings pid last sample

/-- A call is safe when it does not derive or the clock has moved on. -/
theorem safe_iff {settings pid : PidT} {last : Nat} {sample : Sample}
    (limits : settings.minOut ≤ settings.maxOut) (same : SameSettings settings pid)
    (timed : TimedFrom pid last) (ordered : last ≤ sample.tick) :
    Safe settings pid last sample ↔ (settings.kD > 0 → last < sample.tick) := by
  have step (used : settings.kI > 0 ∨ settings.kD > 0) :
      timeStep pid sample = seconds sample.tick - seconds last :=
    timeStep_of_timedFrom timed (by rwa [same.kI, same.kD]) sample
  constructor
  · intro safe derives
    have moved := safe.positive derives
    rw [step (.inr derives), sub_pos, seconds_lt_iff] at moved
    exact moved
  · intro moves
    constructor
    · cases outcome : pidCalculate pid sample with
      | none =>
          rcases pidCalculate_eq_none_iff.mp outcome with ⟨derives, zero⟩
          rw [same.kD] at derives
          rw [step (.inr derives), sub_eq_zero] at zero
          exact absurd zero (seconds_lt_iff.mpr (moves derives)).ne'
      | some returned =>
          have ended := pidCalculate_eq_some
            (by rw [same.minOut, same.maxOut]; exact limits) outcome
          rw [same.minOut, same.maxOut] at ended
          exact ⟨_, _, rfl, ended.2.2⟩
    · intro used
      rw [step used]
      exact ⟨rfl, sub_nonneg.mpr (seconds_le_iff.mpr ordered)⟩
    · intro derives
      rw [step (.inr derives), sub_pos]
      exact seconds_lt_iff.mpr (moves derives)

/-- The calls of a run are safe when it does not derive or every reading is later than the one
before. -/
theorem always_safeCall_iff {settings pid : PidT} {last : Nat} {samples : List Sample}
    (limits : settings.minOut ≤ settings.maxOut) (same : SameSettings settings pid)
    (timed : TimedFrom pid last)
    (ordered : List.IsChain (· ≤ ·) (last :: samples.map Sample.tick)) :
    pidLoop.machine.Always (SafeCall settings) (some (pid, last)) samples ↔
      (settings.kD > 0 → List.IsChain (· < ·) (last :: samples.map Sample.tick)) := by
  induction samples generalizing pid last with
  | nil => simp
  | cons sample samples ih =>
      rw [List.map_cons, List.isChain_cons_cons] at ordered
      have here : SafeCall settings (some (pid, last)) sample ↔
          (settings.kD > 0 → last < sample.tick) := by
        rw [← safe_iff limits same timed ordered.1]
        constructor
        · rintro ⟨_, _, equal, safe⟩
          cases equal
          exact safe
        · exact fun safe => ⟨pid, last, rfl, safe⟩
      have later (moves : settings.kD > 0 → last < sample.tick) :
          pidLoop.machine.Always (SafeCall settings) (pidLoop.machine (some (pid, last)) sample).2
              samples ↔
            (settings.kD > 0 → List.IsChain (· < ·) (sample.tick :: samples.map Sample.tick)) := by
        rcases (safe_iff limits same timed ordered.1).mpr moves with
          ⟨⟨output, pid', returned, -⟩, -, -⟩
        have ended := pidCalculate_eq_some
          (by rw [same.minOut, same.maxOut]; exact limits) returned
        have step : pidLoop (pid, last) sample = some (output, (pid', sample.tick)) := by
          rw [pidLoop, returned]
          rfl
        rw [Faulting.machine_of_eq_some step]
        exact ih (same.trans ended.1) ended.2.1 ordered.2
      rw [Machine.always_cons, here, List.map_cons, List.isChain_cons_cons]
      constructor
      · intro both derives
        exact ⟨both.1 derives, (later both.1).mp both.2 derives⟩
      · intro chain
        have moves : settings.kD > 0 → last < sample.tick := fun derives => (chain derives).1
        exact ⟨moves, (later moves).mpr fun derives => (chain derives).2⟩

/-- From `pid_init`, with any gains and any readings that do not go back, all calls are safe
exactly when the derivative gain is off or every reading is later than the one before. -/
theorem pid_run_safe_iff (kP kI kD errTol minOut maxOut : ℚ) (start : Nat)
    (samples : List Sample) (limits : minOut ≤ maxOut)
    (ordered : List.IsChain (· ≤ ·) (start :: samples.map Sample.tick)) :
    pidLoop.machine.Always (SafeCall (pidInit kP kI kD errTol minOut maxOut start))
        (some (pidInit kP kI kD errTol minOut maxOut start, start)) samples ↔
      kD ≤ 0 ∨ List.IsChain (· < ·) (start :: samples.map Sample.tick) := by
  have settings : (pidInit kP kI kD errTol minOut maxOut start).minOut ≤
      (pidInit kP kI kD errTol minOut maxOut start).maxOut := limits
  rw [always_safeCall_iff settings ⟨rfl, rfl, rfl, rfl⟩ (fun _ => rfl) ordered]
  by_cases derives : kD > 0
  · exact ⟨fun chain => .inr (chain derives), fun either _ =>
      either.resolve_left (not_le.mpr derives)⟩
  · exact iff_of_true (fun on => absurd on derives) (.inl (not_lt.mp derives))

/-- Two calls, a millisecond apart, with a derivative gain. -/
theorem pid_run_safe_iff_example :
    pidLoop.machine.Always (SafeCall (pidInit 1 0 1 0 (-1) 1 5))
        (some (pidInit 1 0 1 0 (-1) 1 5, 5)) [⟨1, 0, 6⟩, ⟨1, 0, 7⟩] ↔
      (1 : ℚ) ≤ 0 ∨ List.IsChain (· < ·) [5, 6, 7] :=
  pid_run_safe_iff 1 0 1 0 (-1) 1 5 [⟨1, 0, 6⟩, ⟨1, 0, 7⟩] (by decide) (by decide)

/-- A call within the millisecond of `pid_init` divides by zero. -/
theorem call_within_millisecond_divides_by_zero :
    ¬pidLoop.machine.Always (SafeCall (pidInit 0 0 1 0 (-1) 1 5))
      (some (pidInit 0 0 1 0 (-1) 1 5, 5)) [⟨1, 0, 5⟩] := by
  intro safe
  rcases safe.1 with ⟨pid, last, equal, here⟩
  cases equal
  have timed : TimedFrom (pidInit 0 0 1 0 (-1) 1 5) 5 := fun _ => rfl
  have positive := here.positive (by decide)
  rw [timeStep_of_timedFrom timed (.inr (by decide)), sub_self] at positive
  exact lt_irrefl 0 positive

end EmbeddedBase.Middleware.Pid
