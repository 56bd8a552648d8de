import EmbeddedBase.Transition.Machine
import Mathlib.Algebra.Ring.Nat

/-!
# Timers

The model of `timer.c`.  The end of a timer is a sum modulo `2^32`, compared with a tick
that wraps as well, so a timer expires on time exactly while both have wrapped or neither
has.
-/

namespace EmbeddedBase.Middleware.Timer

open EmbeddedBase.Transition

/-- `nertimer_t`. -/
structure Nertimer where
  startTime : BitVec 32
  endTime : BitVec 32
  active : Bool
  completed : Bool
  deriving DecidableEq

/-- `start_timer` at a tick; every field is written. -/
def startTimer (now duration : BitVec 32) : Nertimer where
  startTime := now
  endTime := now + duration
  active := true
  completed := false

/-- `cancel_timer`. -/
def cancelTimer (timer : Nertimer) : Nertimer :=
  { timer with active := false, completed := false }

/-- `is_timer_expired` at a tick. -/
def isTimerExpired (timer : Nertimer) (now : BitVec 32) : Bool × Nertimer :=
  let polled :=
    if timer.active ∧ now ≥ timer.endTime then { timer with active := false, completed := true }
    else timer
  (polled.completed, polled)

/-- `is_timer_active`. -/
def isTimerActive (timer : Nertimer) : Bool :=
  timer.active

/-! ## Polls -/

/-- The result of a poll of a running timer. -/
theorem isTimerExpired_of_active {timer : Nertimer} {now : BitVec 32}
    (active : timer.active = true) (pending : timer.completed = false) :
    (isTimerExpired timer now).1 = decide (timer.endTime ≤ now) := by
  by_cases due : timer.endTime ≤ now
  · simp [isTimerExpired, active, due]
  · simp [isTimerExpired, active, pending, due]

theorem isTimerExpired_of_lt {timer : Nertimer} {now : BitVec 32}
    (early : ¬timer.endTime ≤ now) : (isTimerExpired timer now).2 = timer := by
  simp [isTimerExpired, early]

theorem isTimerExpired_of_le {timer : Nertimer} {now : BitVec 32}
    (active : timer.active = true) (due : timer.endTime ≤ now) :
    (isTimerExpired timer now).2 = { timer with active := false, completed := true } := by
  simp [isTimerExpired, active, due]

/-- A timer that has expired stays so. -/
theorem isTimerExpired_of_completed {timer : Nertimer} {now : BitVec 32}
    (inactive : timer.active = false) (completed : timer.completed = true) :
    isTimerExpired timer now = (true, timer) := by
  simp [isTimerExpired, inactive, completed]

/-- `HAL_GetTick`, `elapsed` milliseconds after the tick `start`. -/
def tickAfter (start : BitVec 32) (elapsed : Nat) : BitVec 32 :=
  start + BitVec.ofNat 32 elapsed

/-- Polls of a timer at the given times after its start. -/
def polls (start : BitVec 32) : Machine Nertimer Nat Bool :=
  fun timer elapsed => isTimerExpired timer (tickAfter start elapsed)

theorem replies_of_completed {timer : Nertimer} (start : BitVec 32)
    (inactive : timer.active = false) (completed : timer.completed = true)
    (times : List Nat) : (polls start).replies timer times = times.map fun _ => true := by
  induction times with
  | nil => rfl
  | cons elapsed times ih =>
      rw [Machine.replies_cons, polls, isTimerExpired_of_completed inactive completed,
        List.map_cons]
      exact congrArg _ ih

theorem final_of_completed {timer : Nertimer} (start : BitVec 32)
    (inactive : timer.active = false) (completed : timer.completed = true)
    (times : List Nat) : (polls start).final timer times = timer := by
  induction times with
  | nil => rfl
  | cons elapsed times ih =>
      rw [Machine.final_cons, polls, isTimerExpired_of_completed inactive completed]
      exact ih

/-- A started timer is active until a poll returns true. -/
theorem active_iff_not_mem_replies {timer : Nertimer} (start : BitVec 32)
    (active : timer.active = true) (pending : timer.completed = false) (times : List Nat) :
    isTimerActive ((polls start).final timer times) = true ↔
      true ∉ (polls start).replies timer times := by
  induction times with
  | nil => simp [isTimerActive, active]
  | cons elapsed times ih =>
      rw [Machine.final_cons, Machine.replies_cons, List.mem_cons]
      by_cases due : timer.endTime ≤ tickAfter start elapsed
      · have reply : ((polls start) timer elapsed).1 = true := by
          rw [polls, isTimerExpired_of_active active pending, decide_eq_true due]
        rw [reply, polls, isTimerExpired_of_le active due, final_of_completed _ rfl rfl]
        simp [isTimerActive]
      · have reply : ((polls start) timer elapsed).1 = false := by
          rw [polls, isTimerExpired_of_active active pending, decide_eq_false due]
        rw [reply, polls, isTimerExpired_of_lt due]
        simpa using ih

/-! ## Wrapping -/

/-- The comparison of two wrapped times is right exactly when both wrapped or neither. -/
theorem le_tickAfter_iff (start duration : BitVec 32) {elapsed : Nat}
    (bounded : elapsed < 2 ^ 32) :
    (start + duration ≤ tickAfter start elapsed ↔ duration.toNat ≤ elapsed) ↔
      (2 ^ 32 ≤ start.toNat + elapsed ↔ 2 ^ 32 ≤ start.toNat + duration.toNat) := by
  have startBound := start.isLt
  have durationBound := duration.isLt
  rw [BitVec.le_def, tickAfter, BitVec.toNat_add, BitVec.toNat_add, BitVec.toNat_ofNat,
    Nat.mod_eq_of_lt bounded]
  omega

/-- At every poll up to the first one that should return true, the tick has wrapped since
the start if and only if the end has. -/
def WrapsTogether (start duration : BitVec 32) (times : List Nat) : Prop :=
  ∀ before elapsed after, times = before ++ elapsed :: after →
    (∀ earlier ∈ before, earlier < duration.toNat) →
    (2 ^ 32 ≤ start.toNat + elapsed ↔ 2 ^ 32 ≤ start.toNat + duration.toNat)

theorem wrapsTogether_cons_iff {start duration : BitVec 32} {elapsed : Nat}
    {times : List Nat} :
    WrapsTogether start duration (elapsed :: times) ↔
      (2 ^ 32 ≤ start.toNat + elapsed ↔ 2 ^ 32 ≤ start.toNat + duration.toNat) ∧
        (elapsed < duration.toNat → WrapsTogether start duration times) := by
  constructor
  · intro together
    constructor
    · exact together [] elapsed times rfl fun _ member => absurd member List.not_mem_nil
    · intro early before other after split others
      apply together (elapsed :: before) other after (by rw [split]; rfl)
      intro earlier member
      rcases List.mem_cons.mp member with rfl | later
      · exact early
      · exact others earlier later
  · rintro ⟨first, rest⟩ before other after split others
    cases before with
    | nil =>
        cases split
        exact first
    | cons earlier before =>
        cases split
        apply rest (others elapsed List.mem_cons_self) before other after rfl
        exact fun later member => others later (List.mem_cons_of_mem _ member)

/-- A poll returns true exactly from the duration on, and the timer is active exactly until
the first poll that returns true. -/
structure ExpiresOnTime (start duration : BitVec 32) (times : List Nat) : Prop where
  replies_eq : (polls start).replies (startTimer start duration) times =
    times.map fun elapsed => decide (duration.toNat ≤ elapsed)
  active_iff : ∀ before after, times = before ++ after →
    (isTimerActive ((polls start).final (startTimer start duration) before) = true ↔
      true ∉ (polls start).replies (startTimer start duration) before)

/-- The replies of a running timer are right exactly when the wraps agree. -/
theorem replies_eq_iff {start duration : BitVec 32} {timer : Nertimer}
    (active : timer.active = true) (pending : timer.completed = false)
    (ends : timer.endTime = start + duration) {times : List Nat}
    (sorted : times.Pairwise (· ≤ ·)) (bounded : ∀ elapsed ∈ times, elapsed < 2 ^ 32) :
    (polls start).replies timer times =
        (times.map fun elapsed => decide (duration.toNat ≤ elapsed)) ↔
      WrapsTogether start duration times := by
  induction times with
  | nil =>
      simp [WrapsTogether]
  | cons elapsed times ih =>
      rcases List.pairwise_cons.mp sorted with ⟨first, rest⟩
      have compare := le_tickAfter_iff start duration (bounded elapsed List.mem_cons_self)
      have reply : ((polls start) timer elapsed).1 =
          decide (start + duration ≤ tickAfter start elapsed) := by
        rw [polls, isTimerExpired_of_active active pending, ends]
      rw [wrapsTogether_cons_iff, ← compare, Machine.replies_cons, List.map_cons, reply,
        List.cons_eq_cons, decide_eq_decide]
      apply and_congr_right
      intro right
      by_cases due : duration.toNat ≤ elapsed
      · have expired : timer.endTime ≤ tickAfter start elapsed := by
          rw [ends]
          exact right.mpr due
        have all : (times.map fun elapsed => decide (duration.toNat ≤ elapsed)) =
            times.map fun _ => true := by
          apply List.map_congr_left
          intro later member
          exact decide_eq_true (Nat.le_trans due (first later member))
        rw [polls, isTimerExpired_of_le active expired, all,
          replies_of_completed _ rfl rfl]
        exact ⟨fun _ early => absurd early (Nat.not_lt.mpr due), fun _ => rfl⟩
      · have early : ¬timer.endTime ≤ tickAfter start elapsed := by
          rw [ends]
          exact fun expired => due (right.mp expired)
        rw [polls, isTimerExpired_of_lt early,
          ih rest fun later member => bounded later (List.mem_cons_of_mem _ member)]
        exact ⟨fun together _ => together, fun together => together (Nat.not_le.mp due)⟩

/-- A timer expires on time exactly when the tick and its end wrap together. -/
theorem timer_expires_on_time_iff (start duration : BitVec 32) (times : List Nat)
    (sorted : times.Pairwise (· ≤ ·)) (bounded : ∀ elapsed ∈ times, elapsed < 2 ^ 32) :
    ExpiresOnTime start duration times ↔ WrapsTogether start duration times := by
  have running := @replies_eq_iff start duration (startTimer start duration) rfl rfl rfl times
    sorted bounded
  rw [← running]
  constructor
  · exact fun onTime => onTime.replies_eq
  · intro replies
    exact ⟨replies, fun before _ _ => active_iff_not_mem_replies start rfl rfl before⟩

/-- One tick before the counter wraps, a timer of 20 ms that is first polled after the wrap. -/
theorem timer_expires_on_time_iff_example :
    ExpiresOnTime 4294967295 20 [3, 10, 20, 25] := by
  apply (timer_expires_on_time_iff 4294967295 20 [3, 10, 20, 25] (by decide) (by decide)).mpr
  intro before elapsed after split _
  have late : ∀ elapsed ∈ [3, 10, 20, 25], 1 ≤ elapsed := by decide
  have wrapped : 1 ≤ elapsed := late elapsed (by rw [split]; simp)
  have start : (4294967295 : BitVec 32).toNat = 4294967295 := rfl
  have duration : (20 : BitVec 32).toNat = 20 := rfl
  omega

/-- Ten ticks before the counter wraps, a timer of 20 ms expires at once; one of 5 ms that is
polled after the wrap has not expired after 15 ms. -/
theorem timer_not_on_time :
    ¬ExpiresOnTime 4294967286 20 [0] ∧ ¬ExpiresOnTime 4294967286 5 [15] := by
  constructor
  · intro onTime
    have replies := onTime.replies_eq
    revert replies
    decide
  · intro onTime
    have replies := onTime.replies_eq
    revert replies
    decide

end EmbeddedBase.Middleware.Timer
