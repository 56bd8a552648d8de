import EmbeddedBase.NetX.Rtc
import EmbeddedBase.Transition.Machine

/-!
# The PTP clock as a settable clock

An abstract clock is a number of nanoseconds modulo `2^32` seconds.  The callback keeps
the hardware time equal to it over every sequence of operations that starts with an
initialisation: each operation leaves `MACSTSUR` zero, and no operation reads the
add-or-subtract bit that an earlier one left.
-/

namespace EmbeddedBase.NetX

open EmbeddedBase.Data
open EmbeddedBase.Transition

/-- One call of the callback: how far the clock advances before it, and its arguments. -/
structure ClockCall where
  elapsed : Nat
  operation : PtpOperation
  time : PtpTime

/-- The operations on the clock, with the values the client passes: `clockSet` with the
nanoseconds below a second, and `clockAdjust` with less than a second in either
direction. -/
def ClockCall.Admissible (call : ClockCall) : Prop :=
  match call.operation with
  | .clockInit | .clockGet | .softTimerUpdate => True
  | .clockSet => call.time.nanosecond.toNat < 1000000000
  | .clockAdjust => call.time.nanosecond.toInt.natAbs < 1000000000
  | .packetTsExtract | .packetTsPrepare => False

instance (call : ClockCall) : Decidable call.Admissible := by
  unfold ClockCall.Admissible
  split <;> infer_instance

/-- The callback over the registers, replying the time it leaves at `time_ptr`. -/
def hardClock : Machine Mac ClockCall PtpTime := fun mac call =>
  let result :=
    nxPtpClientHardClockCallback id call.operation call.time (mac.advance call.elapsed)
  (result.time, result.mac)

/-! ## The abstract clock -/

/-- A time in nanoseconds, below `2^32` seconds. -/
structure Clock where
  count : Nat
  inside : count < Timestamp.span

namespace Clock

/-- The clock that shows a count, modulo `2^32` seconds. -/
def ofInt (count : Int) : Clock where
  count := (count % Timestamp.span).toNat
  inside := by
    unfold Timestamp.span
    omega

/-- The seconds and nanoseconds shown. -/
def shown (clock : Clock) : Timestamp :=
  .ofTotal clock.count

/-- The settable clock: initialisation assigns `10^9` seconds, setting assigns the
argument, adjusting adds the signed nanoseconds, and getting shows the time. -/
def settable : Machine Clock ClockCall PtpTime := fun clock call =>
  let clock := ofInt (clock.count + call.elapsed)
  match call.operation with
  | .clockInit => (call.time, ofInt (1000000000 * 1000000000))
  | .clockSet =>
      (call.time,
        ofInt (call.time.secondLow.toNat * 1000000000 + call.time.nanosecond.toNat))
  | .clockAdjust => (call.time, ofInt (clock.count + call.time.nanosecond.toInt))
  | .clockGet => (⟨0, clock.shown.seconds, clock.shown.nanoseconds⟩, clock)
  | .softTimerUpdate | .packetTsExtract | .packetTsPrepare => (call.time, clock)

end Clock

/-- The hardware shows the time of the clock, and the seconds register is cleared. -/
def Shows (mac : Mac) (clock : Clock) : Prop :=
  mac.macstsur = 0 ∧ mac.time = clock.shown

/-! ## One operation -/

section

variable {mac : Mac} {clock : Clock}

theorem Clock.count_ofInt (count : Int) :
    ((Clock.ofInt count).count : Int) = count % Timestamp.span := by
  apply Int.toNat_of_nonneg
  apply Int.emod_nonneg
  decide

theorem Clock.total_shown (clock : Clock) : clock.shown.total = clock.count :=
  (Timestamp.total_ofTotal _).trans (Nat.mod_eq_of_lt clock.inside)

theorem Clock.valid_shown (clock : Clock) : clock.shown.Valid :=
  Timestamp.valid_ofTotal _

/-- A valid time with the total of a count is what the clock of the count shows. -/
theorem Clock.eq_shown_ofInt {time : Timestamp} {count : Int} (valid : time.Valid)
    (total : (time.total : Int) = count % Timestamp.span) :
    time = (Clock.ofInt count).shown := by
  apply Timestamp.ext_total valid (Timestamp.valid_ofTotal _)
  apply Int.ofNat.inj
  change (time.total : Int) = ((Clock.ofInt count).shown.total : Int)
  rw [Clock.total_shown, Clock.count_ofInt, total]

theorem shows_advance (elapsed : Nat) (shows : Shows mac clock) :
    Shows (mac.advance elapsed) (Clock.ofInt (clock.count + elapsed)) := by
  rcases shows with ⟨cleared, same⟩
  refine ⟨(Mac.macstsur_advance elapsed mac).trans cleared,
    Clock.eq_shown_ofInt (Mac.valid_advance elapsed mac) ?_⟩
  rw [Mac.total_advance, same, Clock.total_shown]
  exact Int.natCast_emod _ _

/-- Nanoseconds below a second survive the mask of `ADDSUB`. -/
theorem and_mask {nanoseconds : BitVec 32} (small : nanoseconds.toNat < 2 ^ 31) :
    nanoseconds &&& 0x7FFFFFFF = nanoseconds := by
  apply BitVec.eq_of_toNat_eq
  rw [BitVec.toNat_and]
  exact Nat.and_two_pow_sub_one_of_lt_two_pow small

theorem tsinit_time {seconds nanoseconds : BitVec 32} (small : nanoseconds.toNat < 1000000000)
    (high : mac.macstsur = seconds) (low : mac.macstnur = nanoseconds) :
    mac.tsinit.time = (Clock.ofInt (seconds.toNat * 1000000000 + nanoseconds.toNat)).shown := by
  have loaded : mac.tsinit.time = ⟨seconds, nanoseconds⟩ := by
    rw [Mac.tsinit, high, low, and_mask (by omega)]
  have bound := seconds.isLt
  rw [loaded]
  apply Clock.eq_shown_ofInt
  · unfold Timestamp.Valid
    exact small
  · unfold Timestamp.total Timestamp.span
    dsimp only
    omega

/-- Nanoseconds below a second leave `ADDSUB` clear. -/
theorem and_addsub {nanoseconds : BitVec 32} (small : nanoseconds.toNat < 2 ^ 31) :
    nanoseconds &&& Mac.addsub = 0 := by
  rw [← and_mask small, BitVec.and_assoc]
  exact BitVec.and_zero

theorem tsupdt_add {nanoseconds : BitVec 32} (small : nanoseconds.toNat < 2 ^ 31)
    (load : mac.macstnur = nanoseconds) :
    mac.tsupdt.time = mac.time.add mac.macstsur nanoseconds := by
  simp only [Mac.tsupdt, load, and_addsub small, and_mask small, ne_eq, not_true_eq_false,
    if_false]

theorem tsupdt_sub {complement : BitVec 32} (small : complement.toNat < 2 ^ 31)
    (load : mac.macstnur = complement ||| Mac.addsub) :
    mac.tsupdt.time = mac.time.sub (0 - mac.macstsur) (1000000000 - complement) := by
  have bit : (complement ||| Mac.addsub) &&& Mac.addsub ≠ 0 := by
    rw [BitVec.and_or_distrib_right, and_addsub small]
    decide
  have value : (complement ||| Mac.addsub) &&& 0x7FFFFFFF = complement := by
    rw [BitVec.and_or_distrib_right, and_mask small]
    exact BitVec.or_zero
  simp only [Mac.tsupdt, load, bit, value, ne_eq, not_false_eq_true, if_true]

theorem macstsur_tsupdt (mac : Mac) : mac.tsupdt.macstsur = mac.macstsur := by
  unfold Mac.tsupdt
  dsimp only
  split <;> rfl

/-- Adding nanoseconds below a second, with the seconds register cleared. -/
theorem shows_add {nanoseconds : BitVec 32} (shows : Shows mac clock)
    (small : nanoseconds.toNat < 1000000000) (load : mac.macstnur = nanoseconds) :
    Shows mac.tsupdt (Clock.ofInt (clock.count + nanoseconds.toNat)) := by
  rcases shows with ⟨cleared, same⟩
  rcases Timestamp.add_spec clock.valid_shown 0 small with ⟨valid, total⟩
  refine ⟨(macstsur_tsupdt mac).trans cleared, ?_⟩
  rw [tsupdt_add (by omega) load, cleared, same]
  apply Clock.eq_shown_ofInt valid
  have none : (0 : BitVec 32).toNat = 0 := rfl
  rw [total, Clock.total_shown, none, Nat.zero_mul, Nat.add_zero]
  exact Int.natCast_emod _ _

/-- Subtracting less than a second of nanoseconds, given by their complement. -/
theorem shows_sub {amount : BitVec 32} (shows : Shows mac clock)
    (positive : 0 < amount.toNat) (small : amount.toNat < 1000000000)
    (load : mac.macstnur = (1000000000 - amount) ||| Mac.addsub) :
    Shows mac.tsupdt (Clock.ofInt (clock.count - amount.toNat)) := by
  rcases shows with ⟨cleared, same⟩
  have complement : (1000000000 - amount).toNat = 1000000000 - amount.toNat :=
    BitVec.toNat_sub_of_le (BitVec.le_def.mpr (Nat.le_of_lt small))
  have taken : 1000000000 - (1000000000 - amount) = amount := by
    apply BitVec.eq_of_toNat_eq
    rw [BitVec.toNat_sub_of_le (BitVec.le_def.mpr (by rw [complement]; exact Nat.sub_le _ _)),
      complement]
    exact Nat.sub_sub_self (Nat.le_of_lt small)
  rcases Timestamp.sub_spec clock.valid_shown 0 (Nat.le_of_lt small) with ⟨valid, total⟩
  refine ⟨(macstsur_tsupdt mac).trans cleared, ?_⟩
  rw [tsupdt_sub (by omega) load, cleared, same, taken]
  apply Clock.eq_shown_ofInt valid
  have none : (0 : BitVec 32).toNat = 0 := rfl
  apply total.trans
  rw [Clock.total_shown, none]
  simp only [Int.natCast_zero, Int.zero_mul, Int.sub_zero]

end

/-! ## Sequences of operations -/

variable {mac : Mac} {clock : Clock} {time : PtpTime}

theorem shows_clockSet (mac : Mac) (small : time.nanosecond.toNat < 1000000000) :
    Shows (nxPtpClientHardClockCallback id .clockSet time mac).mac
      (Clock.ofInt (time.secondLow.toNat * 1000000000 + time.nanosecond.toNat)) := by
  refine ⟨rfl, ?_⟩
  unfold nxPtpClientHardClockCallback
  dsimp only
  exact tsinit_time small rfl rfl

/-- An initialisation shows `10^9` seconds whatever the registers held. -/
theorem shows_clockInit (time : PtpTime) (mac : Mac) :
    Shows (nxPtpClientHardClockCallback id .clockInit time mac).mac
      (Clock.ofInt (1000000000 * 1000000000)) := by
  have count : (1000000000 * 1000000000 : Int) =
      (1000000000 : BitVec 32).toNat * 1000000000 + (0 : BitVec 32).toNat := by
    decide
  refine ⟨rfl, ?_⟩
  rw [count]
  unfold nxPtpClientHardClockCallback
  dsimp only
  exact tsinit_time (by decide) rfl rfl

theorem shows_load (nanoseconds : BitVec 32) (shows : Shows mac clock) :
    Shows { mac with macstnur := nanoseconds } clock := by
  rcases shows with ⟨cleared, same⟩
  exact ⟨cleared, same⟩

theorem natAbs_toInt (nanoseconds : BitVec 32) :
    nanoseconds.abs.toNat = nanoseconds.toInt.natAbs := by
  have bound := nanoseconds.isLt
  rw [BitVec.toNat_abs, BitVec.toInt_eq_msb_cond]
  split
  · omega
  · exact (Int.natAbs_natCast _).symm

theorem shows_clockAdjust (shows : Shows mac clock)
    (small : time.nanosecond.toInt.natAbs < 1000000000) :
    Shows (nxPtpClientHardClockCallback id .clockAdjust time mac).mac
      (Clock.ofInt (clock.count + time.nanosecond.toInt)) := by
  have magnitude := natAbs_toInt time.nanosecond
  unfold nxPtpClientHardClockCallback
  dsimp only
  by_cases positive : 0 ≤ time.nanosecond.toInt
  · rw [if_pos positive]
    have value : time.nanosecond.toInt = time.nanosecond.toNat := by
      have bound := time.nanosecond.isLt
      have signed := BitVec.toInt_eq_msb_cond time.nanosecond
      split at signed
      · omega
      · exact signed
    rw [value]
    exact shows_add (shows_load _ shows) (by omega) rfl
  · rw [if_neg positive]
    have value : time.nanosecond.toInt = -(time.nanosecond.abs.toNat : Int) := by
      omega
    rw [value]
    exact shows_sub (shows_load _ shows) (by omega) (by omega) rfl

/-- The callback simulates the settable clock. -/
theorem hardClock_simulates :
    Machine.Simulates hardClock Clock.settable ClockCall.Admissible Shows := by
  rintro mac clock ⟨elapsed, operation, time⟩ shows admissible
  have before := shows_advance elapsed shows
  cases operation with
  | clockInit => exact ⟨rfl, shows_clockInit time _⟩
  | clockSet => exact ⟨rfl, shows_clockSet _ admissible⟩
  | clockGet =>
      exact ⟨congrArg (fun shown : Timestamp => PtpTime.mk 0 shown.seconds shown.nanoseconds)
        before.2, before⟩
  | clockAdjust => exact ⟨rfl, shows_clockAdjust before admissible⟩
  | packetTsExtract => exact absurd admissible id
  | packetTsPrepare => exact absurd admissible id
  | softTimerUpdate => exact ⟨rfl, before⟩

/-- After every sequence of operations that starts with an initialisation, from any
registers, the hardware time is that of the settable clock, and every call has left at
`time_ptr` what the clock replies. -/
theorem ptp_clock_settable (mac : Mac) (clock : Clock) (elapsed : Nat) (time : PtpTime)
    (calls : List ClockCall) (admissible : ∀ call ∈ calls, call.Admissible) :
    let sequence := ⟨elapsed, .clockInit, time⟩ :: calls
    (hardClock.final mac sequence).time = (Clock.settable.final clock sequence).shown ∧
      hardClock.replies mac sequence = Clock.settable.replies clock sequence := by
  have start : Shows (hardClock mac ⟨elapsed, .clockInit, time⟩).2
      (Clock.settable clock ⟨elapsed, .clockInit, time⟩).2 :=
    shows_clockInit time _
  refine ⟨(hardClock_simulates.final start admissible).2, ?_⟩
  exact congrArg (time :: ·) (hardClock_simulates.replies start admissible)

/-- A second is borrowed, then carried back. -/
theorem ptp_clock_settable_borrow :
    let sequence : List ClockCall := [⟨7, .clockInit, ⟨0, 0, 0⟩⟩, ⟨0, .clockSet, ⟨0, 5, 3⟩⟩,
      ⟨0, .clockAdjust, ⟨0, 0, BitVec.ofInt 32 (-10)⟩⟩, ⟨0, .clockGet, ⟨0, 0, 0⟩⟩,
      ⟨0, .clockAdjust, ⟨0, 0, 8⟩⟩]
    hardClock.replies ⟨⟨1, 2⟩, 3, 0x80000004⟩ sequence =
        [⟨0, 0, 0⟩, ⟨0, 5, 3⟩, ⟨0, 0, BitVec.ofInt 32 (-10)⟩, ⟨0, 4, 999999993⟩, ⟨0, 0, 8⟩] ∧
      (hardClock.final ⟨⟨1, 2⟩, 3, 0x80000004⟩ sequence).time = ⟨5, 1⟩ := by
  have settled := ptp_clock_settable ⟨⟨1, 2⟩, 3, 0x80000004⟩ (Clock.ofInt 0) 7 ⟨0, 0, 0⟩
    [⟨0, .clockSet, ⟨0, 5, 3⟩⟩, ⟨0, .clockAdjust, ⟨0, 0, BitVec.ofInt 32 (-10)⟩⟩,
      ⟨0, .clockGet, ⟨0, 0, 0⟩⟩, ⟨0, .clockAdjust, ⟨0, 0, 8⟩⟩] (by decide)
  exact ⟨settled.2.trans (by decide), settled.1.trans (by decide)⟩

/-- A second initialisation does change the time: it assigns `10^9` seconds again. -/
theorem clockInit_assigns :
    let mac : Mac := ⟨⟨0, 0⟩, 0, 0⟩
    let calls : List ClockCall := [⟨0, .clockInit, ⟨0, 0, 0⟩⟩, ⟨0, .clockSet, ⟨0, 5, 0⟩⟩]
    (hardClock.final mac calls).time = ⟨5, 0⟩ ∧
      (hardClock.final mac (calls ++ [⟨0, .clockInit, ⟨0, 0, 0⟩⟩])).time = ⟨1000000000, 0⟩ := by
  decide

end EmbeddedBase.NetX
