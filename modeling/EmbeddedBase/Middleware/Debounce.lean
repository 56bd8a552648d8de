import EmbeddedBase.Middleware.Timer
import Mathlib.Data.Nat.Find

/-!
# Debouncing

The model of `debounce.c`.  A run of high polls splits into segments, and the callback is
invoked at the first poll of a segment that comes a period after the segment's first.
-/

namespace EmbeddedBase.Middleware.Debounce

open EmbeddedBase.Middleware.Timer
open EmbeddedBase.Transition

/-- `debounce` at a tick; the flag tells whether `cb` was invoked. -/
def debounce (input : Bool) (timer : Nertimer) (period now : BitVec 32) : Bool × Nertimer :=
  if input && !isTimerActive timer then
    (false, startTimer now period)
  else if !input && isTimerActive timer then
    (false, cancelTimer timer)
  else if input then
    isTimerExpired timer now
  else
    (false, timer)

/-- One call: the input and the tick. -/
structure Poll where
  input : Bool
  tick : BitVec 32
  deriving DecidableEq

/-- A timer used only through `debounce`, with a fixed period. -/
def debouncer (period : BitVec 32) : Machine Nertimer Poll Bool :=
  fun timer poll => debounce poll.input timer period poll.tick

/-! ## The polls of a run -/

/-- The input was high at poll `k`. -/
def High (polls : List Poll) (k : Nat) : Prop :=
  polls[k]?.any Poll.input = true

/-- The tick of poll `k`. -/
def tickAt (polls : List Poll) (k : Nat) : Nat :=
  (polls[k]?.map fun poll => poll.tick.toNat).getD 0

/-- Poll `k` comes a period after poll `j`. -/
def Due (period : BitVec 32) (polls : List Poll) (j k : Nat) : Prop :=
  tickAt polls j + period.toNat ≤ tickAt polls k

section Runs

variable (period : BitVec 32) (timer : Nertimer) (polls : List Poll)

/-- Poll `k` invoked the callback. -/
def Invoked (k : Nat) : Prop :=
  ((debouncer period).replies timer polls)[k]? = some true

/-- A segment begins at the first poll of a run of high polls, and right after a poll that
invoked the callback. -/
def SegmentStart (j : Nat) : Prop :=
  High polls j ∧ ∀ i, j = i + 1 → ¬High polls i ∨ Invoked period timer polls i

/-- Poll `k` is in the segment that begins at poll `j`. -/
def InSegment (j k : Nat) : Prop :=
  j ≤ k ∧ SegmentStart period timer polls j ∧
    ∀ i, j < i → i ≤ k → High polls i ∧ ¬SegmentStart period timer polls i

/-- Poll `k` is the first of its segment that comes a period after the beginning. -/
def FirstDue (k : Nat) : Prop :=
  ∃ j < k, InSegment period timer polls j k ∧ Due period polls j k ∧
    ∀ i, j < i → i < k → ¬Due period polls j i

end Runs

/-- The conditions on the ticks. -/
structure Timely (period : BitVec 32) (polls : List Poll) : Prop where
  nondecreasing : ∀ j < polls.length, ∀ i ≤ j, tickAt polls i ≤ tickAt polls j
  bounded : ∀ k < polls.length, tickAt polls k + period.toNat < 2 ^ 32

/-! ## One poll -/

theorem debounce_start {timer : Nertimer} {period now : BitVec 32}
    (inactive : timer.active = false) :
    debounce true timer period now = (false, startTimer now period) := by
  simp [debounce, isTimerActive, inactive]

theorem debounce_cancel {timer : Nertimer} {period now : BitVec 32}
    (active : timer.active = true) :
    debounce false timer period now = (false, cancelTimer timer) := by
  simp [debounce, isTimerActive, active]

theorem debounce_rest {timer : Nertimer} {period now : BitVec 32}
    (inactive : timer.active = false) :
    debounce false timer period now = (false, timer) := by
  simp [debounce, isTimerActive, inactive]

theorem debounce_wait {timer : Nertimer} {period now : BitVec 32}
    (active : timer.active = true) :
    debounce true timer period now = isTimerExpired timer now := by
  simp [debounce, isTimerActive, active]

section Runs

variable {period : BitVec 32} {timer : Nertimer} {polls : List Poll} {j k : Nat} {poll : Poll}

theorem high_iff (at_k : polls[k]? = some poll) : High polls k ↔ poll.input = true := by
  rw [High, at_k, Option.any_some]

theorem tickAt_eq (at_k : polls[k]? = some poll) : tickAt polls k = poll.tick.toNat := by
  rw [tickAt, at_k]
  rfl

theorem invoked_iff (at_k : polls[k]? = some poll) :
    Invoked period timer polls k ↔
      (debounce poll.input ((debouncer period).final timer (polls.take k)) period
        poll.tick).1 = true := by
  rw [Invoked, Machine.getElem?_replies, at_k, Option.map_some, Option.some_inj]
  rfl

theorem final_succ (at_k : polls[k]? = some poll) :
    (debouncer period).final timer (polls.take (k + 1)) =
      (debounce poll.input ((debouncer period).final timer (polls.take k)) period
        poll.tick).2 :=
  Machine.final_take_succ _ _ at_k

/-! ## Segments -/

theorem InSegment.high (segment : InSegment period timer polls j k) : High polls k := by
  rcases segment with ⟨before, start, later⟩
  rcases Nat.lt_or_eq_of_le before with earlier | rfl
  · exact (later k earlier (Nat.le_refl k)).1
  · exact start.1

theorem InSegment.of_le (segment : InSegment period timer polls j k) {i : Nat} (after : j ≤ i)
    (before : i ≤ k) : InSegment period timer polls j i :=
  ⟨after, segment.2.1, fun m above below => segment.2.2 m above (Nat.le_trans below before)⟩

/-- A poll is in one segment only. -/
theorem InSegment.unique {other : Nat} (segment : InSegment period timer polls j k)
    (same : InSegment period timer polls other k) : j = other := by
  rcases Nat.lt_trichotomy j other with before | equal | after
  · exact absurd same.2.1 (segment.2.2 other before same.1).2
  · exact equal
  · exact absurd segment.2.1 (same.2.2 j after segment.1).2

/-- An invocation ends the segment. -/
theorem InSegment.not_invoked (segment : InSegment period timer polls j k) {i : Nat}
    (after : j ≤ i) (before : i < k) : ¬Invoked period timer polls i := by
  intro invoked
  have next := segment.2.2 (i + 1) (Nat.lt_succ_of_le after) before
  apply next.2
  refine ⟨next.1, fun m equal => ?_⟩
  cases equal
  exact Or.inr invoked

/-- The next poll stays in the segment if it is high and the callback was not invoked. -/
theorem InSegment.succ (segment : InSegment period timer polls j k)
    (high : High polls (k + 1)) (quiet : ¬Invoked period timer polls k) :
    InSegment period timer polls j (k + 1) := by
  refine ⟨Nat.le_succ_of_le segment.1, segment.2.1, fun i after before => ?_⟩
  rcases Nat.lt_or_eq_of_le before with earlier | rfl
  · exact segment.2.2 i after (Nat.le_of_lt_succ earlier)
  · refine ⟨high, fun start => ?_⟩
    rcases start.2 k rfl with low | invoked
    · exact low segment.high
    · exact quiet invoked

/-- High polls without an invocation stay in the segment. -/
theorem InSegment.extend {first : Nat} (segment : InSegment period timer polls j first)
    (after : first ≤ k) (high : ∀ i, first ≤ i → i ≤ k → High polls i)
    (quiet : ∀ i, first ≤ i → i < k → ¬Invoked period timer polls i) :
    InSegment period timer polls j k := by
  induction k, after using Nat.le_induction with
  | base => exact segment
  | succ k after ih =>
      have whole := ih (fun i above below => high i above (Nat.le_succ_of_le below))
        fun i above below => quiet i above (Nat.lt_succ_of_lt below)
      exact whole.succ (high (k + 1) (Nat.le_succ_of_le after) (Nat.le_refl _))
        (quiet k after (Nat.lt_succ_self k))

/-- A segment with a due poll has a first one. -/
theorem InSegment.exists_firstDue {last : Nat} (segment : InSegment period timer polls j last)
    (before : j < last) (late : Due period polls j last) :
    ∃ k, j < k ∧ k ≤ last ∧ FirstDue period timer polls k := by
  classical
  have due : ∃ i, j < i ∧ Due period polls j i := ⟨last, before, late⟩
  have found := Nat.find_spec due
  have least : Nat.find due ≤ last := Nat.find_min' due ⟨before, late⟩
  refine ⟨Nat.find due, found.1, least, j, found.1,
    segment.of_le (Nat.le_of_lt found.1) least, found.2, fun i after earlier early => ?_⟩
  exact Nat.find_min due earlier ⟨after, early⟩

/-! ## The timer -/

/-- The timer is inactive, and a high poll would begin a segment. -/
def Resting (period : BitVec 32) (timer : Nertimer) (polls : List Poll) (k : Nat)
    (now : Nertimer) : Prop :=
  now.active = false ∧ ∀ i, k = i + 1 → ¬High polls i ∨ Invoked period timer polls i

/-- The timer runs since the beginning of the segment of the last poll. -/
def Waiting (period : BitVec 32) (timer : Nertimer) (polls : List Poll) (k : Nat)
    (now : Nertimer) : Prop :=
  now.active = true ∧ now.completed = false ∧ ∃ j i, k = i + 1 ∧
    InSegment period timer polls j i ∧ ¬Invoked period timer polls i ∧
    now.endTime.toNat = tickAt polls j + period.toNat ∧
    ∀ m, j < m → m ≤ i → ¬Due period polls j m

/-- Either of the two. -/
def Tracks (period : BitVec 32) (timer : Nertimer) (polls : List Poll) (k : Nat)
    (now : Nertimer) : Prop :=
  Resting period timer polls k now ∨ Waiting period timer polls k now

theorem not_firstDue_of_low (low : ¬High polls k) : ¬FirstDue period timer polls k := by
  rintro ⟨j, _, segment, _⟩
  exact low segment.high

theorem not_firstDue_of_start (start : SegmentStart period timer polls k) :
    ¬FirstDue period timer polls k := by
  rintro ⟨j, before, segment, _⟩
  exact (segment.2.2 k before (Nat.le_refl k)).2 start

/-- A poll while the timer rests. -/
theorem Resting.step (timely : Timely period polls) (at_k : polls[k]? = some poll)
    (resting : Resting period timer polls k ((debouncer period).final timer (polls.take k))) :
    (Invoked period timer polls k ↔ FirstDue period timer polls k) ∧
      Tracks period timer polls (k + 1)
        ((debouncer period).final timer (polls.take (k + 1))) := by
  rcases resting with ⟨inactive, fresh⟩
  rw [invoked_iff at_k, final_succ at_k]
  have inside : k < polls.length := (List.getElem?_eq_some_iff.mp at_k).1
  cases input : poll.input with
  | false =>
      have low : ¬High polls k := by rw [high_iff at_k, input]; decide
      rw [debounce_rest inactive]
      refine ⟨⟨fun invoked => (nomatch invoked), fun due => absurd due (not_firstDue_of_low low)⟩,
        Or.inl ⟨inactive, ?_⟩⟩
      rintro i equal
      cases equal
      exact Or.inl low
  | true =>
      have high : High polls k := by rw [high_iff at_k, input]
      have start : SegmentStart period timer polls k := ⟨high, fresh⟩
      have quiet : ¬Invoked period timer polls k := by
        rw [invoked_iff at_k, input, debounce_start inactive]
        exact Bool.false_ne_true
      rw [debounce_start inactive]
      refine ⟨⟨fun invoked => (nomatch invoked),
        fun due => absurd due (not_firstDue_of_start start)⟩, Or.inr ⟨rfl, rfl, k, k, rfl, ?_⟩⟩
      refine ⟨⟨Nat.le_refl k, start, fun i after before => absurd after (Nat.not_lt.mpr before)⟩,
        quiet, ?_, fun i after before => absurd after (Nat.not_lt.mpr before)⟩
      have bounded := timely.bounded k inside
      rw [tickAt_eq at_k] at bounded ⊢
      exact BitVec.toNat_add_of_lt bounded

/-- A poll while the timer runs. -/
theorem Waiting.step (at_k : polls[k]? = some poll)
    (waiting : Waiting period timer polls k ((debouncer period).final timer (polls.take k))) :
    (Invoked period timer polls k ↔ FirstDue period timer polls k) ∧
      Tracks period timer polls (k + 1)
        ((debouncer period).final timer (polls.take (k + 1))) := by
  rcases waiting with ⟨active, pending, j, i, rfl, segment, quiet, ends, notDue⟩
  rw [final_succ at_k]
  cases input : poll.input with
  | false =>
      have low : ¬High polls (i + 1) := by rw [high_iff at_k, input]; decide
      rw [invoked_iff at_k, input, debounce_cancel active]
      refine ⟨⟨fun invoked => (nomatch invoked), fun due => absurd due (not_firstDue_of_low low)⟩,
        Or.inl ⟨rfl, ?_⟩⟩
      rintro m equal
      cases equal
      exact Or.inl low
  | true =>
      have high : High polls (i + 1) := by rw [high_iff at_k, input]
      have next := segment.succ high quiet
      have compare : ((debouncer period).final timer (polls.take (i + 1))).endTime ≤ poll.tick ↔
          Due period polls j (i + 1) := by
        rw [BitVec.le_def, ends, Due, tickAt_eq at_k]
      have invoked : Invoked period timer polls (i + 1) ↔ Due period polls j (i + 1) := by
        rw [invoked_iff at_k, input, debounce_wait active,
          isTimerExpired_of_active active pending, decide_eq_true_eq, compare]
      have firstDue : FirstDue period timer polls (i + 1) ↔ Due period polls j (i + 1) := by
        constructor
        · rintro ⟨other, _, same, due, _⟩
          rwa [next.unique same]
        · intro due
          refine ⟨j, Nat.lt_succ_of_le segment.1, next, due, fun m after before => ?_⟩
          exact notDue m after (Nat.le_of_lt_succ before)
      refine ⟨invoked.trans firstDue.symm, ?_⟩
      rw [debounce_wait active]
      by_cases due : Due period polls j (i + 1)
      · rw [isTimerExpired_of_le active (compare.mpr due)]
        refine Or.inl ⟨rfl, ?_⟩
        rintro m equal
        cases equal
        exact Or.inr (invoked.mpr due)
      · rw [isTimerExpired_of_lt fun early => due (compare.mp early)]
        refine Or.inr ⟨active, pending, j, i + 1, rfl, next, fun fired => due (invoked.mp fired),
          ends, fun m after before => ?_⟩
        rcases Nat.lt_or_eq_of_le before with earlier | rfl
        · exact notDue m after (Nat.le_of_lt_succ earlier)
        · exact due

theorem tracks (inactive : timer.active = false) (timely : Timely period polls)
    (within : k ≤ polls.length) :
    Tracks period timer polls k ((debouncer period).final timer (polls.take k)) := by
  induction k with
  | zero =>
      exact Or.inl ⟨inactive, fun i equal => absurd equal (Nat.succ_ne_zero i).symm⟩
  | succ k ih =>
      have at_k : polls[k]? = some polls[k] := List.getElem?_eq_getElem within
      rcases ih (Nat.le_of_lt within) with resting | waiting
      · exact (resting.step timely at_k).2
      · exact (waiting.step at_k).2

/-- The callback is invoked exactly at the first due poll of each segment. -/
theorem invoked_iff_firstDue (inactive : timer.active = false) (timely : Timely period polls)
    (inside : k < polls.length) :
    Invoked period timer polls k ↔ FirstDue period timer polls k := by
  have at_k : polls[k]? = some polls[k] := List.getElem?_eq_getElem inside
  rcases tracks inactive timely (Nat.le_of_lt inside) with resting | waiting
  · exact (resting.step timely at_k).1
  · exact (waiting.step at_k).1

theorem lt_length_of_high (high : High polls k) : k < polls.length := by
  by_contra outside
  rw [High, List.getElem?_eq_none (Nat.not_lt.mp outside)] at high
  cases high

/-- Every high poll is in a segment. -/
theorem exists_inSegment (high : High polls k) : ∃ j, InSegment period timer polls j k := by
  induction k with
  | zero =>
      refine ⟨0, Nat.le_refl 0, ⟨high, fun i equal => absurd equal (Nat.succ_ne_zero i).symm⟩, ?_⟩
      exact fun i after before => absurd after (Nat.not_lt.mpr before)
  | succ k ih =>
      by_cases start : SegmentStart period timer polls (k + 1)
      · exact ⟨k + 1, Nat.le_refl _, start,
          fun i after before => absurd after (Nat.not_lt.mpr before)⟩
      · have previous : High polls k ∧ ¬Invoked period timer polls k := by
          by_contra broken
          apply start
          refine ⟨high, fun i equal => ?_⟩
          cases equal
          by_cases before : High polls k
          · right
            by_contra quiet
            exact broken ⟨before, quiet⟩
          · exact Or.inl before
        rcases ih previous.1 with ⟨j, segment⟩
        exact ⟨j, segment.succ high previous.2⟩

/-! ## Consequences -/

/-- Between an invocation and the beginning of its segment the input was high throughout,
over at least a period. -/
theorem FirstDue.high_throughout (due : FirstDue period timer polls k) :
    ∃ j < k, Due period polls j k ∧ ∀ i, j ≤ i → i ≤ k → High polls i := by
  rcases due with ⟨j, before, segment, late, _⟩
  exact ⟨j, before, late, fun i after within => (segment.of_le after within).high⟩

variable (inactive : timer.active = false) (timely : Timely period polls)

include inactive timely

/-- After a low poll the wait begins anew. -/
theorem invoked_after_low {low : Nat} (released : ¬High polls low) (before : low < k)
    (inside : k < polls.length) (invoked : Invoked period timer polls k) :
    ∃ j, low < j ∧ j < k ∧ Due period polls j k ∧ ∀ i, j ≤ i → i ≤ k → High polls i := by
  have due := (invoked_iff_firstDue inactive timely inside).mp invoked
  rcases due.high_throughout with ⟨j, earlier, late, high⟩
  refine ⟨j, ?_, earlier, late, high⟩
  by_contra after
  exact released (high low (Nat.not_lt.mp after) (Nat.le_of_lt before))

/-- Two invocations are at least a period apart. -/
theorem invoked_apart {later : Nat} (order : k < later) (inside : later < polls.length)
    (first : Invoked period timer polls k) (second : Invoked period timer polls later) :
    Due period polls k later := by
  have due := (invoked_iff_firstDue inactive timely inside).mp second
  rcases due with ⟨j, before, segment, late, _⟩
  have after : k < j := by
    by_contra within
    exact segment.not_invoked (Nat.not_lt.mp within) order first
  have order' := timely.nondecreasing j (Nat.lt_trans before inside) k (Nat.le_of_lt after)
  exact Nat.le_trans (Nat.add_le_add_right order' _) late

/-- An input that is high at polls over a period invokes the callback at one of them. -/
theorem invoked_of_high {first last : Nat} (order : first < last)
    (high : ∀ i, first ≤ i → i ≤ last → High polls i) (long : Due period polls first last) :
    ∃ k, first ≤ k ∧ k ≤ last ∧ Invoked period timer polls k := by
  by_contra missed
  have quiet : ∀ i, first ≤ i → i ≤ last → ¬Invoked period timer polls i :=
    fun i after before fired => missed ⟨i, after, before, fired⟩
  rcases exists_inSegment (high first (Nat.le_refl first) (Nat.le_of_lt order)) with
    ⟨j, segment⟩
  have length := lt_length_of_high (high last (Nat.le_of_lt order) (Nat.le_refl last))
  have whole := segment.extend (Nat.le_of_lt order) high
    fun i after before => quiet i after (Nat.le_of_lt before)
  have begun : tickAt polls j ≤ tickAt polls first :=
    timely.nondecreasing first (Nat.lt_trans order length) j segment.1
  rcases whole.exists_firstDue (Nat.lt_of_le_of_lt segment.1 order)
    (Nat.le_trans (Nat.add_le_add_right begun _) long) with ⟨k, after, within, firstDue⟩
  have invoked : Invoked period timer polls k :=
    (invoked_iff_firstDue inactive timely (Nat.lt_of_le_of_lt within length)).mpr firstDue
  by_cases late : first ≤ k
  · exact quiet k late within invoked
  · exact segment.not_invoked (Nat.le_of_lt after) (Nat.not_le.mp late) invoked

end Runs

/-- What debouncing promises for a sequence of polls. -/
structure Debounces (period : BitVec 32) (timer : Nertimer) (polls : List Poll) : Prop where
  invoked_iff : ∀ k < polls.length,
    (Invoked period timer polls k ↔ FirstDue period timer polls k)
  high_throughout : ∀ k < polls.length, Invoked period timer polls k →
    ∃ j < k, Due period polls j k ∧ ∀ i, j ≤ i → i ≤ k → High polls i
  restarts : ∀ low k, ¬High polls low → low < k → k < polls.length →
    Invoked period timer polls k →
    ∃ j, low < j ∧ j < k ∧ Due period polls j k ∧ ∀ i, j ≤ i → i ≤ k → High polls i
  apart : ∀ k later, k < later → later < polls.length → Invoked period timer polls k →
    Invoked period timer polls later → Due period polls k later
  not_missed : ∀ first last, first < last →
    (∀ i, first ≤ i → i ≤ last → High polls i) → Due period polls first last →
    ∃ k, first ≤ k ∧ k ≤ last ∧ Invoked period timer polls k

/-- Debouncing fires exactly when it should. -/
theorem debounce_fires_exactly (period : BitVec 32) (timer : Nertimer) (polls : List Poll)
    (inactive : timer.active = false) (timely : Timely period polls) :
    Debounces period timer polls where
  invoked_iff _ := invoked_iff_firstDue inactive timely
  high_throughout _ inside invoked :=
    ((invoked_iff_firstDue inactive timely inside).mp invoked).high_throughout
  restarts _ _ := invoked_after_low inactive timely
  apart _ _ := invoked_apart inactive timely
  not_missed _ _ := invoked_of_high inactive timely

/-- A high input over three polls, ten milliseconds apart. -/
theorem debounce_fires_exactly_example :
    Debounces 15 ⟨0, 0, false, false⟩ [⟨true, 100⟩, ⟨true, 110⟩, ⟨true, 120⟩] :=
  debounce_fires_exactly 15 ⟨0, 0, false, false⟩ [⟨true, 100⟩, ⟨true, 110⟩, ⟨true, 120⟩] rfl
    ⟨by decide, by decide⟩

example : (debouncer 15).replies ⟨0, 0, false, false⟩
    [⟨true, 100⟩, ⟨true, 110⟩, ⟨true, 120⟩, ⟨true, 130⟩] = [false, false, true, false] := by
  decide

end EmbeddedBase.Middleware.Debounce
