import EmbeddedBase.NetX.PtpClient.Time
import EmbeddedBase.NetX.PtpClock

/-!
# The clock of the PTP client

The software clock of `nxd_ptp_client.c`, and the function that applies a measured offset
through a clock callback.  The software clock is a count of nanoseconds under every
sequence of operations; an offset is added to the count whichever of its two ways the
function takes, over the software clock and over the hardware clock alike.
-/

namespace EmbeddedBase.NetX

open EmbeddedBase.Data
open EmbeddedBase.Transition

/-! ## Clock callbacks -/

/-- What a clock callback leaves: the time at `time_ptr`, the time passed to
`_nx_ptp_client_packet_timestamp_notify`, and the clock. -/
structure ClockResult (κ : Type) where
  time : PtpTime
  notified : Option PtpTime
  clock : κ

/-- `NX_PTP_CLIENT_CLOCK_CALLBACK`, over the time at `time_ptr` and a clock. -/
abbrev ClockCallback (κ : Type) :=
  PtpOperation → PtpTime → κ → ClockResult κ

/-- `_nx_ptp_client_soft_clock_adjust`. -/
def nxPtpClientSoftClockAdjust (offsetNs : BitVec 32) (softClock : PtpTime) : PtpTime :=
  let offsetNs :=
    if 1000000000 < offsetNs.toInt then
      nanosecondsPerSec
    else if offsetNs.toInt < -1000000000 then
      -nanosecondsPerSec
    else
      offsetNs
  let nanosecond := softClock.nanosecond + offsetNs
  if 1000000000 ≤ nanosecond.toInt then
    .ofWords (nxPtpClientUtilityInc64 softClock.words) (nanosecond - nanosecondsPerSec)
  else if nanosecond.toInt < 0 then
    .ofWords (nxPtpClientUtilityDec64 softClock.words) (nanosecond + nanosecondsPerSec)
  else
    .ofWords softClock.words nanosecond

/-- `NX_PTP_NANOSECONDS_PER_SEC / NX_PTP_CLIENT_TIMER_TICKS_PER_SECOND`. -/
def nanosecondsPerTick : BitVec 32 := 10000000

/-- The branch of `NX_PTP_CLIENT_CLOCK_SOFT_TIMER_UPDATE`. -/
def softTimerUpdate (time : PtpTime) : PtpTime :=
  let nanosecond := time.nanosecond + nanosecondsPerTick
  if 1000000000 ≤ nanosecond.toInt then
    .ofWords (nxPtpClientUtilityInc64 time.words) (nanosecond - nanosecondsPerSec)
  else
    .ofWords time.words nanosecond

/-- `_nx_ptp_client_soft_clock_callback`. -/
def nxPtpClientSoftClockCallback : ClockCallback PtpTime := fun operation time softClock =>
  match operation with
  | .clockInit => ⟨time, none, softClock⟩
  | .clockSet => ⟨time, none, time⟩
  | .packetTsExtract | .clockGet => ⟨softClock, none, softClock⟩
  | .clockAdjust => ⟨time, none, nxPtpClientSoftClockAdjust time.nanosecond softClock⟩
  | .packetTsPrepare => ⟨time, some softClock, softClock⟩
  | .softTimerUpdate => ⟨softTimerUpdate time, none, softClock⟩

/-- The callback made by `_nx_ptp_client_timer_handler`, with the software clock at
`time_ptr`. -/
def nxPtpClientTimerHandler (softClock : PtpTime) : PtpTime :=
  (nxPtpClientSoftClockCallback .softTimerUpdate softClock softClock).time

/-- The new clock value of `_nx_ptp_client_clock_adjust`: the nanoseconds of the offset,
"in range 0-999999999", then its seconds. -/
def addOffset (current offset : PtpTime) : PtpTime :=
  let nanosecond := current.nanosecond + offset.nanosecond
  let (seconds, nanosecond) :=
    if nanosecond.toInt < 0 then
      (nxPtpClientUtilityDec64 current.words, nanosecond + nanosecondsPerSec)
    else if 1000000000 ≤ nanosecond.toInt then
      (nxPtpClientUtilityInc64 current.words, nanosecond - nanosecondsPerSec)
    else
      (current.words, nanosecond)
  .ofWords (nxPtpClientUtilityAdd64 seconds offset.secondHigh offset.secondLow) nanosecond

/-- `_nx_ptp_client_clock_adjust`.  `current` is the uninitialised local, and `meanwhile`
what the clock does between the two calls of the second way. -/
def nxPtpClientClockAdjust {κ : Type} (callback : ClockCallback κ) (current : PtpTime)
    (meanwhile : κ → κ) (offset : PtpTime) (clock : κ) : κ :=
  if offset.secondHigh = 0 ∧ offset.secondLow = 0 then
    (callback .clockAdjust offset clock).clock
  else
    let result := callback .clockGet current clock
    (callback .clockSet (addOffset result.time offset) (meanwhile result.clock)).clock

/-! ## Counts -/

/-- The time a count of nanoseconds shows, the seconds modulo `2^64`. -/
def PtpTime.shown (count : Int) : PtpTime :=
  .ofWords (DoubleWord.ofInt (count / 1000000000)) (BitVec.ofInt 32 (count % 1000000000))

/-- The nanoseconds of a clock: below a second, and not negative. -/
def PtpTime.OfClock (time : PtpTime) : Prop :=
  0 ≤ time.nanosecond.toInt ∧ time.nanosecond.toInt < 1000000000

instance (time : PtpTime) : Decidable time.OfClock :=
  inferInstanceAs (Decidable (_ ∧ _))

section

variable {ns : BitVec 32}

theorem nanosecond_shown (count : Int) :
    (PtpTime.shown count).nanosecond.toInt = count % 1000000000 := by
  apply PtpTime.toInt_ofInt_small <;> omega

theorem words_shown (count : Int) :
    (PtpTime.shown count).words = .ofInt (count / 1000000000) :=
  rfl

theorem ofClock_shown (count : Int) : (PtpTime.shown count).OfClock := by
  unfold PtpTime.OfClock
  rw [nanosecond_shown]
  omega

/-- The words of a number of seconds with nanoseconds below a second show the count. -/
theorem ofWords_eq_shown (number : Int) (low : 0 ≤ ns.toInt) (high : ns.toInt < 1000000000) :
    PtpTime.ofWords (.ofInt number) ns = .shown (number * 1000000000 + ns.toInt) := by
  have quotient : (number * 1000000000 + ns.toInt) / 1000000000 = number := by omega
  have remainder : (number * 1000000000 + ns.toInt) % 1000000000 = ns.toInt := by omega
  rw [PtpTime.shown, quotient, remainder, BitVec.ofInt_toInt]

/-- A carry into the seconds. -/
theorem carry_eq_shown (number : Int) (low : 1000000000 ≤ ns.toInt)
    (high : ns.toInt < 2000000000) :
    PtpTime.ofWords (nxPtpClientUtilityInc64 (.ofInt number)) (ns - nanosecondsPerSec) =
      .shown (number * 1000000000 + ns.toInt) := by
  have rest := toInt_sub_second ns (by omega)
  have same : number * 1000000000 + ns.toInt =
      (number + 1) * 1000000000 + (ns - nanosecondsPerSec).toInt := by
    omega
  rw [inc64_ofInt, same]
  exact ofWords_eq_shown (number + 1) (by omega) (by omega)

/-- A borrow from the seconds. -/
theorem borrow_eq_shown (number : Int) (low : -1000000000 ≤ ns.toInt) (high : ns.toInt < 0) :
    PtpTime.ofWords (nxPtpClientUtilityDec64 (.ofInt number)) (ns + nanosecondsPerSec) =
      .shown (number * 1000000000 + ns.toInt) := by
  have sum := toInt_add_second ns high
  have same : number * 1000000000 + ns.toInt =
      (number - 1) * 1000000000 + (ns + nanosecondsPerSec).toInt := by
    omega
  rw [dec64_ofInt, same]
  exact ofWords_eq_shown (number - 1) (by omega) (by omega)

end

/-! ## The software clock -/

/-- The largest adjustment, in either direction, is a second. -/
def clamp (offset : Int) : Int :=
  max (-1000000000) (min 1000000000 offset)

theorem softClockAdjust_shown (offsetNs : BitVec 32) (count : Int) :
    nxPtpClientSoftClockAdjust offsetNs (.shown count) = .shown (count + clamp offsetNs.toInt) := by
  have bounds := toInt_bounds offsetNs
  have second : nanosecondsPerSec.toInt = 1000000000 := by decide
  have minus : (-nanosecondsPerSec).toInt = -1000000000 := by decide
  have clamped : (if 1000000000 < offsetNs.toInt then nanosecondsPerSec
      else if offsetNs.toInt < -1000000000 then -nanosecondsPerSec else offsetNs).toInt =
      clamp offsetNs.toInt := by
    unfold clamp
    split
    · omega
    · split <;> omega
  unfold nxPtpClientSoftClockAdjust
  dsimp only
  generalize (if 1000000000 < offsetNs.toInt then nanosecondsPerSec
      else if offsetNs.toInt < -1000000000 then -nanosecondsPerSec else offsetNs) = used at *
  have limits : -1000000000 ≤ clamp offsetNs.toInt ∧ clamp offsetNs.toInt ≤ 1000000000 := by
    unfold clamp
    omega
  have nanosecond := nanosecond_shown count
  have sum : ((PtpTime.shown count).nanosecond + used).toInt =
      count % 1000000000 + clamp offsetNs.toInt := by
    rw [← nanosecond, ← clamped]
    apply toInt_add_eq <;> omega
  have total : count + clamp offsetNs.toInt = count / 1000000000 * 1000000000 +
      ((PtpTime.shown count).nanosecond + used).toInt := by
    omega
  rw [words_shown, total]
  by_cases carry : 1000000000 ≤ ((PtpTime.shown count).nanosecond + used).toInt
  · rw [if_pos carry]
    exact carry_eq_shown _ carry (by omega)
  · rw [if_neg carry]
    by_cases borrow : ((PtpTime.shown count).nanosecond + used).toInt < 0
    · rw [if_pos borrow]
      exact borrow_eq_shown _ (by omega) borrow
    · rw [if_neg borrow]
      exact ofWords_eq_shown _ (by omega) (by omega)

/-- One use of the software clock: the callback on a time, or the timer handler. -/
inductive SoftCall where
  | callback (operation : PtpOperation) (time : PtpTime)
  | timer

/-- The operations of the client: it sets the times of a clock, and leaves the timer update
to the handler. -/
def SoftCall.Admissible : SoftCall → Prop
  | .callback .clockSet time => time.OfClock
  | .callback .softTimerUpdate _ => False
  | .callback _ _ | .timer => True

instance : DecidablePred SoftCall.Admissible := fun call => by
  unfold SoftCall.Admissible
  split <;> infer_instance

/-- The software clock, replying the time left at `time_ptr` and the one that is notified. -/
def softClock : Machine PtpTime SoftCall (PtpTime × Option PtpTime) := fun clock call =>
  match call with
  | .callback operation time =>
      let result := nxPtpClientSoftClockCallback operation time clock
      ((result.time, result.notified), result.clock)
  | .timer => ((nxPtpClientTimerHandler clock, none), nxPtpClientTimerHandler clock)

/-- What a clock callback has to do for the client, with `R` for the counts a clock
shows, up to whole periods: read a count, assign one, and add less than a second. -/
structure KeepsTime {κ : Type} (callback : ClockCallback κ) (reading : Int → Int) (period : Int)
    (R : κ → Int → Prop) : Prop where
  get : ∀ {clock count} (time : PtpTime), R clock count →
    ∃ turns, (callback .clockGet time clock).time = .shown (reading count + turns * period)
  set : ∀ (clock : κ) (count : Int), R (callback .clockSet (.shown count) clock).clock count
  adjust : ∀ {clock count} (offset : PtpTime), R clock count →
    -1000000000 < offset.nanosecond.toInt → offset.nanosecond.toInt < 1000000000 →
    R (callback .clockAdjust offset clock).clock (count + offset.nanosecond.toInt)
  turn : ∀ {clock} {count : Int} (turns : Int), R clock (count + turns * period) → R clock count

/-- The offset is below a second: its seconds are zero. -/
abbrev PtpTime.BelowSecond (offset : PtpTime) : Prop :=
  offset.secondHigh = 0 ∧ offset.secondLow = 0

theorem addOffset_shown (count : Int) {offset : PtpTime} (carried : offset.Carried) :
    addOffset (.shown count) offset = .shown (count + offset.total) := by
  rcases carried with ⟨lower, upper⟩
  have nanosecond := nanosecond_shown count
  have sum : ((PtpTime.shown count).nanosecond + offset.nanosecond).toInt =
      count % 1000000000 + offset.nanosecond.toInt := by
    rw [← nanosecond]
    apply toInt_add_eq <;> omega
  have seconds (number : Int) :
      nxPtpClientUtilityAdd64 (.ofInt number) offset.secondHigh offset.secondLow =
        .ofInt (number + offset.words.value) := by
    rw [← add64_ofInt, DoubleWord.ofInt_value]
    rfl
  have total : offset.total = offset.words.value * 1000000000 + offset.nanosecond.toInt := rfl
  unfold addOffset
  dsimp only
  rw [words_shown]
  by_cases borrow : ((PtpTime.shown count).nanosecond + offset.nanosecond).toInt < 0
  · have rest := toInt_add_second _ borrow
    rw [if_pos borrow]
    dsimp only
    rw [dec64_ofInt, seconds, ofWords_eq_shown _ (by omega) (by omega), rest, sum]
    apply congrArg
    omega
  · rw [if_neg borrow]
    by_cases carry : 1000000000 ≤ ((PtpTime.shown count).nanosecond + offset.nanosecond).toInt
    · have rest := toInt_sub_second _ (Int.lt_of_lt_of_le (by decide) carry)
      rw [if_pos carry]
      dsimp only
      rw [inc64_ofInt, seconds, ofWords_eq_shown _ (by omega) (by omega), rest, sum]
      apply congrArg
      omega
    · rw [if_neg carry]
      dsimp only
      rw [seconds, ofWords_eq_shown _ (by omega) (by omega), sum]
      apply congrArg
      omega

theorem total_of_belowSecond {offset : PtpTime} (small : offset.BelowSecond) :
    offset.total = offset.nanosecond.toInt := by
  have none : offset.words.value = 0 := by
    unfold PtpTime.words DoubleWord.value
    rw [small.1, small.2]
    rfl
  unfold PtpTime.total
  omega

/-- The function adds the offset to the clock, or to what it read of it. -/
theorem clockAdjust_adds {κ : Type} {callback : ClockCallback κ} {reading : Int → Int}
    {period : Int} {R : κ → Int → Prop} (keeps : KeepsTime callback reading period R) {clock : κ}
    {count : Int} (shows : R clock count) (current : PtpTime) (meanwhile : κ → κ)
    {offset : PtpTime} (carried : offset.Carried) :
    R (nxPtpClientClockAdjust callback current meanwhile offset clock)
      ((if offset.BelowSecond then count else reading count) + offset.total) := by
  unfold nxPtpClientClockAdjust
  by_cases small : offset.BelowSecond
  · rw [if_pos small, if_pos small, total_of_belowSecond small]
    exact keeps.adjust offset shows carried.1 carried.2
  · rcases keeps.get current shows with ⟨turns, same⟩
    have order : reading count + turns * period + offset.total =
        reading count + offset.total + turns * period := by
      omega
    rw [if_neg small, if_neg small]
    apply keeps.turn turns
    dsimp only
    rw [same, addOffset_shown _ carried, order]
    exact keeps.set _ _

/-- The software clock keeps time. -/
theorem softClock_keepsTime :
    KeepsTime nxPtpClientSoftClockCallback id 0 fun clock count => clock = .shown count where
  get := by
    rintro _ count time rfl
    exact ⟨0, congrArg PtpTime.shown (Int.add_zero count).symm⟩
  set := fun clock count => rfl
  adjust := by
    rintro _ count offset rfl lower upper
    have within : clamp offset.nanosecond.toInt = offset.nanosecond.toInt := by
      unfold clamp
      omega
    have adjusted := softClockAdjust_shown offset.nanosecond count
    rwa [within] at adjusted
  turn := by
    rintro _ count turns rfl
    rw [Int.mul_zero, Int.add_zero]

/-- The callback over the hardware clock, with the time that passes between the two register
reads. -/
def hardClockCallback (elapsed : Nat) : ClockCallback Mac := fun operation time mac =>
  let result := nxPtpClientHardClockCallback (Mac.advance elapsed) operation time mac
  ⟨result.time, result.notified, result.mac⟩

/-- What is read of the hardware clock: the nanoseconds of the first register read with the
seconds of the second. -/
def hardReading (elapsed : Nat) (count : Int) : Int :=
  (count + elapsed) / 1000000000 * 1000000000 + count % 1000000000

/-- While no second begins between the register reads, the first one counts. -/
theorem hardReading_eq {elapsed : Nat} {count : Int}
    (within : count % 1000000000 + elapsed < 1000000000) : hardReading elapsed count = count := by
  unfold hardReading
  omega

theorem Clock.ofInt_congr {count other : Int}
    (same : count % Timestamp.span = other % Timestamp.span) :
    Clock.ofInt count = Clock.ofInt other := by
  unfold Clock.ofInt
  congr 2

/-- The clock advances. -/
theorem shows_advance_ofInt {mac : Mac} {count : Int} (elapsed : Nat)
    (shows : Shows mac (.ofInt count)) :
    Shows (mac.advance elapsed) (.ofInt (count + elapsed)) := by
  have same : Clock.ofInt ((Clock.ofInt count).count + elapsed) = .ofInt (count + elapsed) := by
    apply Clock.ofInt_congr
    rw [Clock.count_ofInt]
    exact Int.emod_add_emod count Timestamp.span elapsed
  rw [← same]
  exact shows_advance elapsed shows

/-- What the callback reads is what a count below `2^32` seconds shows. -/
theorem shown_of_lt {count : Nat} (inside : count < Timestamp.span) :
    (⟨0, (Timestamp.ofTotal count).seconds, (Timestamp.ofTotal count).nanoseconds⟩ : PtpTime) =
      .shown count := by
  unfold Timestamp.span at inside
  have high : (count : Int) / 1000000000 / 4294967296 = 0 := by omega
  unfold PtpTime.shown PtpTime.ofWords DoubleWord.ofInt Timestamp.ofTotal
  dsimp only
  rw [high]
  rfl

theorem toNat_shown (count : Int) :
    ((PtpTime.shown count).secondLow.toNat : Int) = count / 1000000000 % 4294967296 ∧
      ((PtpTime.shown count).nanosecond.toNat : Int) = count % 1000000000 := by
  unfold PtpTime.shown PtpTime.ofWords DoubleWord.ofInt
  dsimp only
  rw [BitVec.toNat_ofInt, BitVec.toNat_ofInt, Int.toNat_of_nonneg, Int.toNat_of_nonneg]
  · omega
  · omega
  · omega

/-- What the callback reads from the hardware clock. -/
theorem hardClockCallback_get (elapsed : Nat) {mac : Mac} {count : Int} (time : PtpTime)
    (shows : Shows mac (.ofInt count)) :
    ∃ turns, (hardClockCallback elapsed .clockGet time mac).time =
      .shown (hardReading elapsed count + turns * Timestamp.span) := by
  have first := Clock.count_ofInt count
  have second := Clock.count_ofInt (count + elapsed)
  have inside := (Clock.ofInt (count + elapsed)).inside
  have read : (hardClockCallback elapsed .clockGet time mac).time =
      ⟨0, (Clock.ofInt (count + elapsed)).shown.seconds,
        (Clock.ofInt count).shown.nanoseconds⟩ := by
    rw [← shows.2, ← (shows_advance_ofInt elapsed shows).2]
    rfl
  rw [read]
  unfold Clock.shown
  generalize (Clock.ofInt count).count = low at *
  generalize (Clock.ofInt (count + elapsed)).count = high at *
  have small : high / 1000000000 * 1000000000 + low % 1000000000 < Timestamp.span := by
    unfold Timestamp.span at *
    omega
  have seconds : (high / 1000000000 * 1000000000 + low % 1000000000) / 1000000000 =
      high / 1000000000 := by
    omega
  have nanoseconds : (high / 1000000000 * 1000000000 + low % 1000000000) % 1000000000 =
      low % 1000000000 := by
    omega
  have pair := shown_of_lt small
  unfold Timestamp.ofTotal at pair ⊢
  rw [seconds, nanoseconds] at pair
  refine ⟨-((count + elapsed) / Timestamp.span), pair.trans (congrArg PtpTime.shown ?_)⟩
  unfold hardReading Timestamp.span at *
  omega

/-- The hardware clock keeps time, modulo `2^32` seconds. -/
theorem hardClock_keepsTime (elapsed : Nat) :
    KeepsTime (hardClockCallback elapsed) (hardReading elapsed) Timestamp.span
      fun mac count => Shows mac (.ofInt count) where
  get := hardClockCallback_get elapsed
  set := by
    intro mac count
    rcases toNat_shown count with ⟨seconds, nanoseconds⟩
    have small : (PtpTime.shown count).nanosecond.toNat < 1000000000 := by omega
    have same : Clock.ofInt ((PtpTime.shown count).secondLow.toNat * 1000000000 +
        (PtpTime.shown count).nanosecond.toNat) = .ofInt count := by
      apply Clock.ofInt_congr
      rw [seconds, nanoseconds]
      unfold Timestamp.span
      omega
    rw [← same]
    exact shows_clockSet mac small
  adjust := by
    rintro mac count offset shows lower upper
    have same : Clock.ofInt ((Clock.ofInt count).count + offset.nanosecond.toInt) =
        .ofInt (count + offset.nanosecond.toInt) := by
      apply Clock.ofInt_congr
      rw [Clock.count_ofInt]
      exact Int.emod_add_emod count Timestamp.span offset.nanosecond.toInt
    rw [← same]
    exact shows_clockAdjust shows (by omega)
  turn := by
    rintro mac count turns shows
    have same : Clock.ofInt (count + turns * Timestamp.span) = .ofInt count :=
      Clock.ofInt_congr (Int.add_mul_emod_self_right count turns Timestamp.span)
    rwa [same] at shows

/-- A measured offset is added to the software clock exactly, whether it is below a second and
goes through the adjustment or not and goes through reading and setting.  To the hardware clock,
modulo `2^32` seconds, the first way adds it exactly; the second sets the clock to what was read
of it with the offset, so that a second that begins between the two register reads is gained, and
what passes until the clock is set is lost. -/
theorem ptp_clock_adjust_adds (count : Int) (current : PtpTime) {offset : PtpTime}
    (carried : offset.Carried) :
    (∀ meanwhile : PtpTime → PtpTime,
        nxPtpClientClockAdjust nxPtpClientSoftClockCallback current meanwhile offset
          (.shown count) = .shown (count + offset.total)) ∧
      ∀ (mac : Mac) (elapsed : Nat) (meanwhile : Mac → Mac), Shows mac (.ofInt count) →
        Shows (nxPtpClientClockAdjust (hardClockCallback elapsed) current meanwhile offset mac)
          (.ofInt ((if offset.BelowSecond then count else hardReading elapsed count) +
            offset.total)) := by
  constructor
  · intro meanwhile
    have added := @clockAdjust_adds _ _ _ _ _ softClock_keepsTime (.shown count) count rfl current
      meanwhile offset carried
    rwa [id, ite_self] at added
  · intro mac elapsed meanwhile shows
    exact clockAdjust_adds (hardClock_keepsTime elapsed) shows current meanwhile carried

/-- Two seconds less a nanosecond, over the software clock, and over the hardware clock with a
second that begins between the register reads. -/
theorem ptp_clock_adjust_adds_two :
    nxPtpClientClockAdjust nxPtpClientSoftClockCallback ⟨7, 7, 7⟩ id ⟨0, 1, 999999999⟩
        (.shown 5999999999) = .shown (5999999999 + 1999999999) ∧
      Shows (nxPtpClientClockAdjust (hardClockCallback 4) ⟨7, 7, 7⟩ (Mac.advance 100)
        ⟨0, 1, 999999999⟩ ⟨⟨5, 999999999⟩, 0, 0⟩) (.ofInt (6999999999 + 1999999999)) :=
  have adds := @ptp_clock_adjust_adds 5999999999 ⟨7, 7, 7⟩ ⟨0, 1, 999999999⟩ (by decide)
  ⟨adds.1 id, adds.2 ⟨⟨5, 999999999⟩, 0, 0⟩ 4 (Mac.advance 100) ⟨rfl, by decide⟩⟩

end EmbeddedBase.NetX
