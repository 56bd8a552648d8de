import EmbeddedBase.NetX.Rtc
import EmbeddedBase.Transition.Machine

/-!
# Reading the PTP clock

The callback reads the nanoseconds first and the seconds second.  The pair it stores is
a value the clock had in between exactly when the nanoseconds do not carry into the
seconds between the two reads; from such reads come microseconds that never go back.
-/

namespace EmbeddedBase.NetX

open EmbeddedBase.Data
open EmbeddedBase.Transition

/-- The pair `(second_low, nanosecond)`. -/
def PtpTime.stamp (time : PtpTime) : Timestamp :=
  ⟨time.secondLow, time.nanosecond⟩

/-- The operations that read the clock. -/
def PtpOperation.ReadsClock : PtpOperation → Prop
  | clockGet | packetTsExtract | packetTsPrepare => True
  | _ => False

/-- A value of the clock while it advances by `elapsed` in steps of `period`. -/
def Had (period elapsed : Nat) (mac : Mac) (stamp : Timestamp) : Prop :=
  ∃ steps, steps * period ≤ elapsed ∧ stamp = (mac.advance (steps * period)).time

/-- The part of `elapsed` below a second does not carry the nanoseconds into the next
second. -/
def Unwrapped (elapsed : Nat) (mac : Mac) : Prop :=
  mac.macstnr.toNat + elapsed % 1000000000 < 1000000000

instance (elapsed : Nat) (mac : Mac) : Decidable (Unwrapped elapsed mac) :=
  inferInstanceAs (Decidable (_ < _))

/-! ## One read -/

theorem callback_stamp {operation : PtpOperation} (reads : operation.ReadsClock)
    (elapse : Mac → Mac) (time : PtpTime) (mac : Mac) :
    (nxPtpClientHardClockCallback elapse operation time mac).time.stamp =
      ⟨(elapse mac).macstsr, mac.macstnr⟩ := by
  cases operation <;> first | rfl | exact absurd reads id

section

variable {mac : Mac} {elapsed : Nat}

/-- The total of the stored pair: the seconds of the second read with the nanoseconds
of the first. -/
theorem stamp_eq_ofTotal (valid : mac.time.Valid)
    (inside : mac.time.total + elapsed < Timestamp.span) :
    (⟨(mac.advance elapsed).macstsr, mac.macstnr⟩ : Timestamp) =
      .ofTotal ((mac.time.total + elapsed) / 1000000000 * 1000000000 +
        mac.time.total % 1000000000) := by
  have nanoseconds := Timestamp.nanoseconds_eq valid
  have seconds : (mac.advance elapsed).macstsr.toNat =
      (mac.time.total + elapsed) / 1000000000 := by
    refine (Timestamp.ofTotal_seconds _).trans (Nat.mod_eq_of_lt ?_)
    unfold Timestamp.span at inside
    omega
  apply Timestamp.ext_total
  · unfold Timestamp.Valid at valid ⊢
    dsimp only
    exact valid
  · exact Timestamp.valid_ofTotal _
  · rw [Timestamp.total_ofTotal, Nat.mod_eq_of_lt]
    · change (mac.advance elapsed).macstsr.toNat * 1000000000 + mac.time.nanoseconds.toNat = _
      rw [seconds, nanoseconds]
    · unfold Timestamp.span at inside ⊢
      omega

/-- The stored pair is a value the clock had exactly when the nanoseconds did not fall
between the reads. -/
theorem had_iff_unwrapped {period : Nat} (divides : period ∣ 1000000000)
    (valid : mac.time.Valid) (inside : mac.time.total + elapsed < Timestamp.span) :
    Had period elapsed mac ⟨(mac.advance elapsed).macstsr, mac.macstnr⟩ ↔
      Unwrapped elapsed mac := by
  have nanoseconds : mac.macstnr.toNat = mac.time.total % 1000000000 :=
    Timestamp.nanoseconds_eq valid
  rw [stamp_eq_ofTotal valid inside, Unwrapped, nanoseconds]
  unfold Timestamp.span at inside
  constructor
  · rintro ⟨steps, within, same⟩
    have totals := (Timestamp.ofTotal_inj (by unfold Timestamp.span; omega)
      (by unfold Timestamp.span; omega)).mp same
    omega
  · intro unwrapped
    rcases divides with ⟨frequency, whole⟩
    refine ⟨((mac.time.total + elapsed) / 1000000000 - mac.time.total / 1000000000) * frequency,
      ?_, congrArg Timestamp.ofTotal ?_⟩
    all_goals rw [Nat.mul_assoc, Nat.mul_comm frequency, ← whole]
    all_goals omega

/-- The microseconds computed from a valid pair. -/
theorem toNat_microseconds {stamp : Timestamp} (valid : stamp.Valid) :
    (stamp.seconds.setWidth 64 * 1000000 +
      (stamp.nanoseconds.sdiv 1000).signExtend 64).toNat = stamp.total / 1000 := by
  have seconds := stamp.seconds.isLt
  unfold Timestamp.Valid at valid
  have positive : stamp.nanoseconds.msb = false :=
    BitVec.msb_eq_false_iff_two_mul_lt.mpr (by omega)
  have quotient : (stamp.nanoseconds.sdiv 1000).toNat = stamp.nanoseconds.toNat / 1000 := by
    rw [BitVec.sdiv_eq, positive]
    exact BitVec.toNat_udiv
  have quotientPositive : (stamp.nanoseconds.sdiv 1000).msb = false :=
    BitVec.msb_eq_false_iff_two_mul_lt.mpr (by omega)
  have low : ((stamp.nanoseconds.sdiv 1000).signExtend 64).toNat =
      stamp.nanoseconds.toNat / 1000 := by
    rw [BitVec.signExtend_eq_setWidth_of_msb_false quotientPositive, BitVec.toNat_setWidth,
      quotient]
    omega
  have high : (stamp.seconds.setWidth 64 * 1000000).toNat = stamp.seconds.toNat * 1000000 := by
    rw [BitVec.toNat_mul, BitVec.toNat_setWidth]
    change stamp.seconds.toNat % 18446744073709551616 * 1000000 % 18446744073709551616 = _
    omega
  rw [BitVec.toNat_add, high, low]
  unfold Timestamp.total
  omega

end

/-! ## Runs of reads -/

/-- How far the clock advances before a call, and between its two register reads. -/
structure Read where
  gap : Nat
  elapsed : Nat

/-- One call of `ethernet_ptp_get_unix_microseconds` on the initialised device. -/
def readMicroseconds (time : PtpTime) (buffer : BitVec 64) :
    Machine Mac Read (Status × BitVec 64) := fun mac read =>
  ethernetPtpGetUnixMicroseconds (Mac.advance read.elapsed) true time buffer
    (mac.advance read.gap)

/-- The nanoseconds do not fall between the two register reads of the call. -/
def UnwrappedRead (mac : Mac) (read : Read) : Prop :=
  Unwrapped read.elapsed (mac.advance read.gap)

instance (mac : Mac) (read : Read) : Decidable (UnwrappedRead mac read) :=
  inferInstanceAs (Decidable (Unwrapped _ _))

/-- The time a sequence of calls takes. -/
def duration (reads : List Read) : Nat :=
  (reads.map fun read => read.gap + read.elapsed).sum

variable {time : PtpTime} {buffer : BitVec 64} {mac : Mac}

theorem total_advance_of_lt {elapsed : Nat}
    (inside : mac.time.total + elapsed < Timestamp.span) :
    (mac.advance elapsed).time.total = mac.time.total + elapsed :=
  (Mac.total_advance elapsed mac).trans (Nat.mod_eq_of_lt inside)

/-- A call whose nanoseconds do not fall succeeds, and returns the microseconds of a
time between its two register reads. -/
theorem readMicroseconds_spec {read : Read}
    (inside : mac.time.total + (read.gap + read.elapsed) < Timestamp.span)
    (unwrapped : UnwrappedRead mac read) :
    let reply := (readMicroseconds time buffer mac read).1
    reply.1 = .success ∧
      ∃ moment, mac.time.total + read.gap ≤ moment ∧
        moment ≤ mac.time.total + (read.gap + read.elapsed) ∧
          reply.2.toNat = moment / 1000 := by
  have startTotal : (mac.advance read.gap).time.total = mac.time.total + read.gap :=
    total_advance_of_lt (by omega)
  have startValid := Mac.valid_advance read.gap mac
  have within : (mac.advance read.gap).time.total + read.elapsed < Timestamp.span := by
    rw [startTotal]
    omega
  obtain ⟨steps, before, stamp⟩ :=
    (had_iff_unwrapped (Nat.one_dvd _) startValid within).mpr unwrapped
  rw [Nat.mul_one] at before stamp
  have moment : ((mac.advance read.gap).advance steps).time.total =
      mac.time.total + read.gap + steps := by
    rw [total_advance_of_lt (by omega), startTotal]
  refine ⟨rfl, mac.time.total + read.gap + steps, by omega, by omega, ?_⟩
  have value := toNat_microseconds (Mac.valid_advance steps (mac.advance read.gap))
  rw [moment] at value
  rw [← value, ← stamp]
  rfl

theorem mac_readMicroseconds (read : Read) :
    (readMicroseconds time buffer mac read).2 = (mac.advance read.gap).advance read.elapsed :=
  rfl

theorem total_readMicroseconds {read : Read}
    (inside : mac.time.total + (read.gap + read.elapsed) < Timestamp.span) :
    (readMicroseconds time buffer mac read).2.time.total =
      mac.time.total + (read.gap + read.elapsed) := by
  have start : (mac.advance read.gap).time.total = mac.time.total + read.gap :=
    total_advance_of_lt (by omega)
  have within : (mac.advance read.gap).time.total + read.elapsed < Timestamp.span := by
    rw [start]
    omega
  rw [mac_readMicroseconds, total_advance_of_lt within, start, Nat.add_assoc]

theorem duration_cons (read : Read) (reads : List Read) :
    duration (read :: reads) = read.gap + read.elapsed + duration reads :=
  List.sum_cons

theorem duration_append (first second : List Read) :
    duration (first ++ second) = duration first + duration second := by
  simp [duration]

/-- The clock after a run of calls. -/
theorem total_final {reads : List Read}
    (inside : mac.time.total + duration reads < Timestamp.span) :
    ((readMicroseconds time buffer).final mac reads).time.total =
      mac.time.total + duration reads := by
  induction reads generalizing mac with
  | nil => simp [duration]
  | cons read reads ih =>
      rw [duration_cons] at inside ⊢
      have next := @total_readMicroseconds time buffer mac read (by omega)
      rw [Machine.final_cons, ih (by omega), next]
      omega

/-- The replies of a run, each at least the microseconds of the starting time, never go
back. -/
theorem replies_ascend {reads : List Read}
    (inside : mac.time.total + duration reads < Timestamp.span)
    (unwrapped : (readMicroseconds time buffer).Always UnwrappedRead mac reads) :
    let replies := (readMicroseconds time buffer).replies mac reads
    (∀ reply ∈ replies, mac.time.total / 1000 ≤ reply.2.toNat) ∧
      replies.Pairwise fun earlier later => earlier.2.toNat ≤ later.2.toNat := by
  induction reads generalizing mac with
  | nil => simp
  | cons read reads ih =>
      rw [duration_cons] at inside
      have next := @total_readMicroseconds time buffer mac read (by omega)
      obtain ⟨-, moment, started, stopped, value⟩ :=
        @readMicroseconds_spec time buffer mac read (by omega) unwrapped.1
      rcases ih (by omega) unwrapped.2 with ⟨later, ascend⟩
      have head : ((readMicroseconds time buffer mac read).2.time.total) / 1000 ≥
          (readMicroseconds time buffer mac read).1.2.toNat := by
        rw [next, value]
        omega
      constructor
      · intro reply member
        rcases List.mem_cons.mp member with rfl | member
        · rw [value]
          omega
        · have bound := later reply member
          omega
      · refine List.Pairwise.cons ?_ ascend
        intro reply member
        exact Nat.le_trans head (later reply member)

/-- Each reply is within the duration of its own read and a microsecond of every time
the clock had during the read. -/
def Accurate (time : PtpTime) (buffer : BitVec 64) (mac : Mac) (reads : List Read) : Prop :=
  ∀ before read after, reads = before ++ read :: after →
    let machine := readMicroseconds time buffer
    let start := (machine.final mac before).advance read.gap
    let reply := (machine (machine.final mac before) read).1
    reply.1 = .success ∧
      ∀ moment : Nat, start.time.total ≤ moment →
        moment ≤ (start.advance read.elapsed).time.total →
          ((reply.2.toNat * 1000 : Int) - moment).natAbs < read.elapsed + 1000

theorem replies_accurate {reads : List Read}
    (inside : mac.time.total + duration reads < Timestamp.span)
    (unwrapped : (readMicroseconds time buffer).Always UnwrappedRead mac reads) :
    Accurate time buffer mac reads := by
  rintro before read after rfl
  have guarded := Machine.always_iff_forall_split.mp unwrapped before read after rfl
  have split : duration (before ++ read :: after) =
      duration before + (read.gap + read.elapsed + duration after) := by
    rw [duration_append, duration_cons]
  have reached := @total_final time buffer mac before (by omega)
  obtain ⟨success, moment, started, stopped, value⟩ :=
    @readMicroseconds_spec time buffer _ read (by rw [reached]; omega) guarded
  have first := @total_advance_of_lt ((readMicroseconds time buffer).final mac before) read.gap
    (by rw [reached]; omega)
  have second := @total_advance_of_lt
    (((readMicroseconds time buffer).final mac before).advance read.gap) read.elapsed
    (by rw [first, reached]; omega)
  refine ⟨success, fun other lower upper => ?_⟩
  rw [second, first] at upper
  rw [first] at lower
  rw [value]
  omega

/-! ## Main result -/

/-- A stored pair is a value the clock had between the two register reads exactly when
the nanoseconds did not carry in between, whatever unit of the second the clock counts
in.  From runs of such reads come accurate microseconds that never go back. -/
theorem ptp_read_untorn_iff {period : Nat} (divides : period ∣ 1000000000) :
    (∀ (operation : PtpOperation) (time : PtpTime) (mac : Mac) (elapsed : Nat),
      operation.ReadsClock → mac.time.Valid → mac.time.total + elapsed < Timestamp.span →
        (Had period elapsed mac
            (nxPtpClientHardClockCallback (Mac.advance elapsed) operation time mac).time.stamp ↔
          Unwrapped elapsed mac)) ∧
      ∀ (time : PtpTime) (buffer : BitVec 64) (mac : Mac) (reads : List Read),
        mac.time.total + duration reads < Timestamp.span →
          (readMicroseconds time buffer).Always UnwrappedRead mac reads →
            Accurate time buffer mac reads ∧
              ((readMicroseconds time buffer).replies mac reads).Pairwise
                fun earlier later => earlier.2.toNat ≤ later.2.toNat := by
  constructor
  · intro operation time mac elapsed reads valid inside
    rw [callback_stamp reads]
    exact had_iff_unwrapped divides valid inside
  · intro time buffer mac reads inside unwrapped
    exact ⟨replies_accurate inside unwrapped, (replies_ascend inside unwrapped).2⟩

/-- On a clock that counts in fours of nanoseconds, a read across no boundary, and a run
of two calls within one second. -/
theorem ptp_read_untorn_at_fours :
    let mac : Mac := ⟨⟨5, 999999992⟩, 0, 0⟩
    Had 4 4 mac
        (nxPtpClientHardClockCallback (Mac.advance 4) .packetTsPrepare ⟨0, 0, 0⟩ mac).time.stamp ∧
      Accurate ⟨0, 0, 0⟩ 0 mac [⟨0, 4⟩, ⟨8, 4⟩] := by
  have divides : 4 ∣ 1000000000 := by decide
  constructor
  · exact ((ptp_read_untorn_iff divides).1 .packetTsPrepare _ _ _ trivial (by decide)
      (by decide)).mpr (by decide)
  · exact ((ptp_read_untorn_iff divides).2 ⟨0, 0, 0⟩ 0 ⟨⟨5, 999999992⟩, 0, 0⟩ [⟨0, 4⟩, ⟨8, 4⟩]
      (by decide) ⟨by decide, by decide, trivial⟩).1

/-- The second starts between the two register reads: the pair is almost a second ahead
of every value the clock had, and the next call goes back. -/
theorem ptp_read_torn :
    let mac : Mac := ⟨⟨0, 999999996⟩, 0, 0⟩
    (∀ operation : PtpOperation, operation.ReadsClock →
      (nxPtpClientHardClockCallback (Mac.advance 4) operation ⟨0, 0, 0⟩ mac).time.stamp =
        ⟨1, 999999996⟩) ∧
      ¬ Had 4 4 mac ⟨1, 999999996⟩ ∧
      (readMicroseconds ⟨0, 0, 0⟩ 0).replies mac [⟨0, 4⟩, ⟨0, 0⟩] =
        [(.success, 1999999), (.success, 1000000)] := by
  refine ⟨?_, ?_, by decide⟩
  · intro operation reads
    rw [callback_stamp reads]
    decide
  · rintro ⟨steps, within, same⟩
    have few : steps = 0 ∨ steps = 1 := by omega
    rcases few with rfl | rfl
    · exact absurd same (by decide)
    · exact absurd same (by decide)

end EmbeddedBase.NetX
