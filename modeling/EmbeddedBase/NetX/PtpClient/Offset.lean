import EmbeddedBase.NetX.PtpClient.Client

/-!
# The measured offset

What the client computes from the times of a Sync and of a request and its response, as
numbers of nanoseconds: half the difference of the two ways, rounded to zero.
-/

namespace EmbeddedBase.NetX

open EmbeddedBase.Data

/-- Times that a clock shows: not negative, and below `2^59` seconds. -/
def PtpTime.Ranged (total : Int) : Prop :=
  0 ≤ total ∧ total < 576460752303423488000000000

instance (total : Int) : Decidable (PtpTime.Ranged total) :=
  inferInstanceAs (Decidable (_ ∧ _))

/-- A time that the client computes with exactly. -/
def PtpTime.Measured (time : PtpTime) : Prop :=
  time.Carried ∧ Ranged time.total

theorem PtpTime.Ranged.moderate {total : Int} (ranged : Ranged total) : Moderate total := by
  rcases ranged with ⟨lower, upper⟩
  unfold Moderate
  omega

theorem PtpTime.Measured.moderate {time : PtpTime} (measured : time.Measured) :
    Moderate time.total :=
  measured.2.moderate

/-! ## Times of the clock -/

theorem total_shown {count : Int} (ranged : PtpTime.Ranged count) :
    (PtpTime.shown count).total = count := by
  rcases ranged with ⟨lower, upper⟩
  have seconds : (PtpTime.shown count).words.value = count / 1000000000 := by
    rw [words_shown]
    apply DoubleWord.value_ofInt
    unfold DoubleWord.InRange
    omega
  have nanosecond := nanosecond_shown count
  unfold PtpTime.total
  omega

theorem measured_shown {count : Int} (ranged : PtpTime.Ranged count) :
    (PtpTime.shown count).Measured := by
  have total := total_shown ranged
  rcases ofClock_shown count with ⟨lower, upper⟩
  refine ⟨⟨by omega, upper⟩, ?_⟩
  rw [total]
  exact ranged

/-! ## Times of a message -/

/-- The seconds of a timestamp have 48 bits. -/
theorem parseTimestamp_seconds {ptr rest : List UChar} {time : PtpTime}
    (read : nxPtpMsgParseTimestamp ptr = some (time, rest)) :
    0 ≤ time.words.value ∧ time.words.value < 281474976710656 := by
  have returns : Reader.Returns (fun time : PtpTime => 0 ≤ time.words.value ∧
      time.words.value < 281474976710656) nxPtpMsgParseTimestamp := by
    refine Reader.returns_bind fun secondHigh => Reader.returns_bind fun secondLow =>
      Reader.returns_bind fun nanoseconds => Reader.returns_pure ?_
    have bound := secondHigh.isLt
    have low := secondLow.isLt
    have high : (secondHigh.setWidth 32).toInt = secondHigh.toNat := by
      rw [BitVec.toInt_setWidth]
      exact Int.bmod_eq_of_le (by omega) (by omega)
    unfold PtpTime.words DoubleWord.value
    dsimp only
    rw [high]
    omega
  exact returns ptr time rest read

theorem measured_of_wire {ptr rest : List UChar} {time : PtpTime}
    (read : nxPtpMsgParseTimestamp ptr = some (time, rest)) (valid : time.OfClock) :
    time.Aligned ∧ 0 ≤ time.total ∧ time.total < 281474976710656000000000 := by
  have seconds := parseTimestamp_seconds read
  rcases valid with ⟨lower, upper⟩
  unfold PtpTime.Aligned PtpTime.Carried PtpTime.total
  omega

/-- The nanoseconds that the client takes for the correction of a Sync. -/
def correction (hdr : PtpMsgHeader) : Nat :=
  (hdr.cFieldHigh <<< 16 ||| hdr.cFieldLow >>> 16).toNat

/-- The whole nanoseconds of the correction of a message, whose field counts `2^-16` of them. -/
def correctionField (hdr : PtpMsgHeader) : Int :=
  (hdr.cFieldHigh ++ hdr.cFieldLow).toInt / 65536

/-- The client takes the correction for what it is while it is not negative and has 32 bits. -/
theorem correction_eq {hdr : PtpMsgHeader} (positive : 0 ≤ correctionField hdr)
    (small : correctionField hdr < 4294967296) : (correction hdr : Int) = correctionField hdr := by
  unfold correction correctionField at *
  generalize hdr.cFieldHigh = high, hdr.cFieldLow = low at *
  have lowBound := low.isLt
  have value : (high ++ low).toNat = high.toNat * 4294967296 + low.toNat := by
    rw [BitVec.toNat_append, ← Nat.shiftLeft_add_eq_or_of_lt low.isLt, Nat.shiftLeft_eq]
  have signed : (high ++ low).toInt = high.toNat * 4294967296 + low.toNat := by
    have cases := BitVec.toInt_eq_toNat_cond (high ++ low)
    split at cases
    · omega
    · omega
  rw [signed] at small ⊢
  have shifted : (high <<< 16 ||| low >>> 16).toNat = high.toNat * 65536 + low.toNat / 65536 := by
    rw [BitVec.toNat_or, BitVec.toNat_shiftLeft, BitVec.toNat_ushiftRight,
      Nat.shiftRight_eq_div_pow, Nat.mod_eq_of_lt (by rw [Nat.shiftLeft_eq]; omega),
      ← Nat.shiftLeft_add_eq_or_of_lt (by omega), Nat.shiftLeft_eq]
  rw [shifted]
  omega
/-- The nanoseconds of a word, as a time. -/
theorem correctionTime_spec {nanoseconds : BitVec 64} (small : nanoseconds.toNat < 4294967296) :
    let time : PtpTime := ⟨0, (nanoseconds / 1000000000).setWidth 32,
      (nanoseconds % 1000000000).setWidth 32⟩
    time.Carried ∧ time.total = nanoseconds.toNat := by
  have quotient : ((nanoseconds / 1000000000).setWidth 32).toNat =
      nanoseconds.toNat / 1000000000 := by
    rw [BitVec.toNat_setWidth, BitVec.toNat_udiv]
    apply Nat.mod_eq_of_lt
    exact Nat.lt_of_le_of_lt (Nat.div_le_self _ _) small
  have remainder : ((nanoseconds % 1000000000).setWidth 32).toNat =
      nanoseconds.toNat % 1000000000 := by
    rw [BitVec.toNat_setWidth, BitVec.toNat_umod]
    apply Nat.mod_eq_of_lt
    exact Nat.lt_of_le_of_lt (Nat.mod_le _ _) small
  have signed : ((nanoseconds % 1000000000).setWidth 32).toInt =
      (nanoseconds.toNat % 1000000000 : Nat) := by
    rw [← remainder]
    apply BitVec.toInt_eq_toNat_of_lt
    omega
  unfold PtpTime.Carried PtpTime.total PtpTime.words DoubleWord.value
  dsimp only
  rw [quotient, signed]
  have zero : (0 : BitVec 32).toInt = 0 := rfl
  omega

/-- The corrected timestamp of a Sync. -/
theorem correctedSync_spec (hdr : PtpMsgHeader) {ptr rest : List UChar} {sync : PtpTime}
    (read : nxPtpMsgParseTimestamp ptr = some (sync, rest)) (valid : sync.OfClock) :
    (correctedSync hdr sync).Measured ∧
      (correctedSync hdr sync).total = sync.total + correction hdr := by
  rcases measured_of_wire read valid with ⟨aligned, lower, upper⟩
  have bound : correction hdr < 4294967296 := BitVec.isLt _
  unfold correctedSync correction at *
  generalize hdr.cFieldHigh <<< 16 ||| hdr.cFieldLow >>> 16 = field at *
  have width : (field.setWidth 64).toNat = field.toNat :=
    BitVec.toNat_setWidth_of_le (by decide)
  dsimp only
  by_cases none : field.setWidth 64 ≠ 0
  · rcases correctionTime_spec (width.trans_lt bound) with ⟨carried, total⟩
    have moderate : PtpTime.Moderate (field.setWidth 64).toNat := by
      unfold PtpTime.Moderate
      omega
    have span : PtpTime.InSpan (sync.total + field.toNat) := by
      unfold PtpTime.InSpan
      omega
    rw [if_pos none, timeSum_eq aligned.1 carried (by unfold PtpTime.Moderate; omega)
      (total ▸ moderate), total, width]
    have sum := PtpTime.total_ofTotal span
    refine ⟨⟨(PtpTime.aligned_ofTotal span).1, ?_⟩, sum⟩
    rw [sum]
    exact ⟨by omega, by omega⟩
  · rw [if_neg none]
    have zero : field.toNat = 0 := by
      rw [← width, not_not.mp none]
      rfl
    rw [zero]
    exact ⟨⟨aligned.1, lower, by omega⟩, (Int.add_zero _).symm⟩

/-! ## Offsets -/

theorem twice_tdiv_two (number : Int) :
    number - 1 ≤ 2 * number.tdiv 2 ∧ 2 * number.tdiv 2 ≤ number + 1 := by
  have split := Int.mul_tdiv_add_tmod number 2
  have upper := Int.tmod_lt_of_pos number (show (0 : Int) < 2 by decide)
  have lower := Int.lt_tmod_of_pos number (show (0 : Int) < 2 by decide)
  omega

/-- Half the difference between the way of the response's request and that of the Sync. -/
theorem measuredOffset_spec {t1 t2 t3 t4 : PtpTime} (measured1 : t1.Measured)
    (measured2 : t2.Measured) (measured3 : t3.Measured) (measured4 : t4.Measured) :
    (measuredOffset t1 t2 t3 t4).Carried ∧ (measuredOffset t1 t2 t3 t4).total =
      ((t4.total - t3.total) - (t2.total - t1.total)).tdiv 2 := by
  have ranges := And.intro (And.intro measured1.2 measured2.2)
    (And.intro measured3.2 measured4.2)
  unfold PtpTime.Ranged at ranges
  have sync : PtpTime.InSpan (t2.total - t1.total) := by
    unfold PtpTime.InSpan
    omega
  have request : PtpTime.InSpan (t4.total - t3.total) := by
    unfold PtpTime.InSpan
    omega
  have difference : PtpTime.InSpan ((t4.total - t3.total) - (t2.total - t1.total)) := by
    unfold PtpTime.InSpan
    omega
  have half : PtpTime.InSpan (((t4.total - t3.total) - (t2.total - t1.total)).tdiv 2) := by
    have bounds := twice_tdiv_two ((t4.total - t3.total) - (t2.total - t1.total))
    unfold PtpTime.InSpan
    omega
  unfold measuredOffset
  dsimp only
  rw [timeDiff_eq measured2.1 measured1.1 measured2.moderate measured1.moderate,
    timeDiff_eq measured4.1 measured3.1 measured4.moderate measured3.moderate,
    timeDiff_eq (PtpTime.aligned_ofTotal request).1 (PtpTime.aligned_ofTotal sync).1
      (by rw [PtpTime.total_ofTotal request]; unfold PtpTime.Moderate; omega)
      (by rw [PtpTime.total_ofTotal sync]; unfold PtpTime.Moderate; omega),
    PtpTime.total_ofTotal request, PtpTime.total_ofTotal sync,
    timeDivBy2_eq (PtpTime.aligned_ofTotal difference)
      (by rw [PtpTime.total_ofTotal difference]; unfold PtpTime.Moderate; omega),
    PtpTime.total_ofTotal difference]
  exact ⟨(PtpTime.aligned_ofTotal half).1, PtpTime.total_ofTotal half⟩

end EmbeddedBase.NetX
