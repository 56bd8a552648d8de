import EmbeddedBase.Data.Calendar
import EmbeddedBase.NetX.PtpClient.Clock

/-!
# Dates of PTP times

The conversion of a PTP time and a local offset into a date, and the date of the hardware
clock.  The two loops of the conversion take years and months away from the seconds; what
they leave is the one date with that number of seconds since 1970.
-/

namespace EmbeddedBase.NetX

open EmbeddedBase.Data

/-- `NX_PTP_DATE_TIME`. -/
structure NxPtpDateTime where
  year : BitVec 32
  month : BitVec 8
  day : BitVec 8
  hour : BitVec 8
  minute : BitVec 8
  second : BitVec 8
  weekday : BitVec 8
  nanosecond : BitVec 32
  deriving DecidableEq

/-- `NX_SUCCESS` and `NX_PTP_PARAM_ERROR`. -/
inductive DateStatus where
  | success
  | paramError
  deriving DecidableEq

/-! ## The conversion -/

/-- `IS_LEAP`. -/
def isLeap (y : BitVec 32) : Bool :=
  y % 4 = 0 ∧ (y % 100 ≠ 0 ∨ y % 400 = 0)

/-- `SECS_PER_MINUTE`. -/
def secsPerMinute : BitVec 32 := 60

/-- `SECS_PER_HOUR`. -/
def secsPerHour : BitVec 32 := 60 * secsPerMinute

/-- `SECS_PER_DAY`. -/
def secsPerDay : BitVec 32 := 24 * secsPerHour

/-- The locals of the loop over the years. -/
structure YearLoop where
  secs : DoubleWord
  year : BitVec 32
  weekday : BitVec 32
  isLeap : Bool

/-- `secs_per_year`. -/
def YearLoop.secsPerYear (locals : YearLoop) : BitVec 32 :=
  if locals.isLeap then 366 * secsPerDay else 365 * secsPerDay

/-- The body of the loop over the years. -/
def YearLoop.next (locals : YearLoop) : YearLoop :=
  let secsHigh :=
    if locals.secs.low < locals.secsPerYear then locals.secs.high - 1 else locals.secs.high
  let secsLow := locals.secs.low - locals.secsPerYear
  let weekday := locals.weekday + if locals.isLeap then 366 else 365
  let year := locals.year + 1
  ⟨⟨secsHigh, secsLow⟩, year, weekday, NetX.isLeap year⟩

/-- The loop over the years, with a bound on the rounds. -/
def yearLoop : Nat → YearLoop → Option YearLoop
  | 0, _ => none
  | fuel + 1, locals =>
      if 0 < locals.secs.high.toInt ∨ locals.secsPerYear ≤ locals.secs.low then
        yearLoop fuel locals.next
      else
        some locals

/-- `secs_per_month`. -/
def secsPerMonth (isLeap : Bool) (month : BitVec 32) : BitVec 32 :=
  if month = 2 then
    if isLeap then 29 * secsPerDay else 28 * secsPerDay
  else if month = 4 ∨ month = 6 ∨ month = 9 ∨ month = 11 then
    30 * secsPerDay
  else
    31 * secsPerDay

/-- The loop over the months, with a bound on the rounds. -/
def monthLoop (isLeap : Bool) : Nat → BitVec 32 → BitVec 32 → Option (BitVec 32 × BitVec 32)
  | 0, _, _ => none
  | fuel + 1, month, secsLow =>
      if secsPerMonth isLeap month ≤ secsLow then
        monthLoop isLeap fuel (month + 1) (secsLow - secsPerMonth isLeap month)
      else
        some (month, secsLow)

/-- The seconds with the local offset, which is added when it is not zero. -/
def localSecs (time : PtpTime) (offset : BitVec 32) : DoubleWord :=
  if offset ≠ 0 then
    nxPtpClientUtilityAdd64 time.words (if offset.toInt < 0 then -1 else 0) offset
  else
    time.words

/-- The date of a year, a month and the seconds left in it. -/
def dateFields (year weekday month secsLow nanosecond : BitVec 32) : NxPtpDateTime :=
  let day := secsLow / secsPerDay
  let secsLow := secsLow - day * secsPerDay
  let hour := secsLow / secsPerHour
  let secsLow := secsLow - hour * secsPerHour
  let minute := secsLow / secsPerMinute
  let secsLow := secsLow - minute * secsPerMinute
  { year
    month := month.setWidth 8
    day := (day + 1).setWidth 8
    hour := hour.setWidth 8
    minute := minute.setWidth 8
    second := secsLow.setWidth 8
    weekday := weekday.setWidth 8
    nanosecond }

/-- `_nx_ptp_client_utility_convert_time_to_date`, with a bound on the rounds of its loops. -/
def nxPtpClientUtilityConvertTimeToDate (fuel : Nat) (time : PtpTime) (offset : BitVec 32)
    (dateTime : NxPtpDateTime) : Option (DateStatus × NxPtpDateTime) :=
  let secs := localSecs time offset
  if secs.high.toInt < 0 then
    some (.paramError, dateTime)
  else do
    let years ← yearLoop fuel ⟨secs, 1970, 4, false⟩
    let weekday := (years.weekday + years.secs.low / secsPerDay) % 7
    let (month, secsLow) ← monthLoop years.isLeap fuel 1 years.secs.low
    some (.success, dateFields years.year weekday month secsLow time.nanosecond)

/-- The conversion's result names the date, and its day of the week. -/
structure NxPtpDateTime.Names (result : NxPtpDateTime) (date : DateTime) : Prop where
  year : result.year.toNat = date.year
  month : result.month.toNat = date.month
  day : result.day.toNat = date.day
  hour : result.hour.toNat = date.hour
  minute : result.minute.toNat = date.minute
  second : result.second.toNat = date.second
  -- January 1, 1970 was a Thursday.
  weekday : result.weekday.toNat = (4 + date.days) % 7

/-! ## The years -/

theorem isLeap_iff (y : BitVec 32) : isLeap y = true ↔ IsLeapYear y.toNat := by
  unfold isLeap IsLeapYear
  rw [decide_eq_true_iff, ne_eq, ne_eq, ← BitVec.toNat_inj, ← BitVec.toNat_inj,
    ← BitVec.toNat_inj, BitVec.toNat_umod, BitVec.toNat_umod, BitVec.toNat_umod]
  exact Iff.rfl

/-- The locals are those of a year, with the days before it and the seconds from it on. -/
structure YearLoop.At (locals : YearLoop) (year weekday left : Nat) : Prop where
  leap : locals.isLeap = true ↔ IsLeapYear year
  named : locals.year.toNat = year
  counted : locals.weekday.toNat = weekday
  number : locals.secs.value = left

section

variable {locals : YearLoop} {year weekday left fuel : Nat}

theorem YearLoop.At.secsPerYear_toNat (at_ : locals.At year weekday left) :
    locals.secsPerYear.toNat = daysInYear year * 86400 := by
  unfold YearLoop.secsPerYear daysInYear
  simp only [at_.leap]
  split <;> rfl

theorem YearLoop.At.high_nonneg (at_ : locals.At year weekday left) :
    0 ≤ locals.secs.high.toInt := by
  have nonneg : ¬ locals.secs.value < 0 := by
    rw [at_.number]
    omega
  rw [DoubleWord.value_neg_iff] at nonneg
  omega

/-- The loop goes on while a whole year is left. -/
theorem YearLoop.At.goes_on_iff (at_ : locals.At year weekday left) :
    (0 < locals.secs.high.toInt ∨ locals.secsPerYear ≤ locals.secs.low) ↔
      daysInYear year * 86400 ≤ left := by
  have nonneg := at_.high_nonneg
  have low := locals.secs.low.isLt
  have year := at_.secsPerYear_toNat
  have small := locals.secsPerYear.isLt
  have number := at_.number
  rw [BitVec.le_def]
  unfold DoubleWord.value at number
  omega

/-- One round takes a year away. -/
theorem YearLoop.At.next (at_ : locals.At year weekday (daysInYear year * 86400 + left))
    (years : year + 1 < 4294967296) (days : weekday + daysInYear year < 4294967296) :
    locals.next.At (year + 1) (weekday + daysInYear year) left where
  leap := by
    have same : (locals.year + 1).toNat = year + 1 := by
      rw [BitVec.toNat_add, at_.named]
      exact Nat.mod_eq_of_lt years
    rw [← same]
    exact isLeap_iff (locals.year + 1)
  named := by
    change (locals.year + 1).toNat = year + 1
    rw [BitVec.toNat_add, at_.named]
    exact Nat.mod_eq_of_lt years
  counted := by
    have length : (if locals.isLeap = true then 366 else 365 : BitVec 32).toNat =
        daysInYear year := by
      unfold daysInYear
      simp only [at_.leap]
      split <;> rfl
    change (locals.weekday + if locals.isLeap = true then 366 else 365).toNat = _
    rw [BitVec.toNat_add, length, at_.counted]
    exact Nat.mod_eq_of_lt days
  number := by
    have difference : locals.next.secs =
        nxPtpClientUtilitySub64 locals.secs 0 locals.secsPerYear := by
      unfold YearLoop.next nxPtpClientUtilitySub64
      dsimp only
      have zero : locals.secs.high - 0 = locals.secs.high := BitVec.sub_zero locals.secs.high
      rw [zero]
      split <;> rfl
    have length : (⟨0, locals.secsPerYear⟩ : DoubleWord).value = daysInYear year * 86400 := by
      have zero : (0 : BitVec 32).toInt = 0 := rfl
      unfold DoubleWord.value
      rw [at_.secsPerYear_toNat, zero]
      omega
    have number := at_.number
    have inside := locals.secs.value_inRange
    rw [difference, value_sub64 (b := ⟨0, locals.secsPerYear⟩), length, number]
    · omega
    · unfold DoubleWord.InRange at *
      omega

/-- The loop stops in the year in which the seconds end. -/
theorem yearLoop_at {later rest : Nat} (enough : later < fuel)
    (at_ : locals.At year weekday
      (segmentStart (fun index => daysInYear (year + index)) later * 86400 + rest))
    (within : rest < daysInYear (year + later) * 86400)
    (years : year + later < 4294967296)
    (days : weekday + segmentStart (fun index => daysInYear (year + index)) later < 4294967296) :
    ∃ final, yearLoop fuel locals = some final ∧
      final.At (year + later)
        (weekday + segmentStart (fun index => daysInYear (year + index)) later) rest := by
  induction later generalizing fuel locals year weekday with
  | zero =>
      rcases fuel with - | fuel
      · exact absurd enough (Nat.not_lt_zero 0)
      rw [segmentStart_zero, Nat.zero_mul, Nat.zero_add] at at_
      have stops : ¬ (0 < locals.secs.high.toInt ∨ locals.secsPerYear ≤ locals.secs.low) := by
        rw [at_.goes_on_iff]
        exact Nat.not_le_of_lt within
      exact ⟨locals, if_neg stops, at_⟩
  | succ later ih =>
      rcases fuel with - | fuel
      · exact absurd enough (Nat.not_lt_zero _)
      have front : segmentStart (fun index => daysInYear (year + index)) (later + 1) =
          daysInYear year + segmentStart (fun index => daysInYear (year + 1 + index)) later := by
        rw [segmentStart_front]
        simp only [Nat.add_zero, Nat.add_assoc, Nat.add_comm 1]
      rw [front] at at_ days ⊢
      rw [Nat.add_mul, Nat.add_assoc] at at_
      have further : 0 < locals.secs.high.toInt ∨ locals.secsPerYear ≤ locals.secs.low := by
        rw [at_.goes_on_iff]
        exact Nat.le_add_right _ _
      have same : year + (later + 1) = year + 1 + later := by omega
      rw [same] at within years ⊢
      rw [← Nat.add_assoc] at days ⊢
      rcases ih (Nat.lt_of_succ_lt_succ enough) (at_.next (by omega) (by omega)) within years
        days with ⟨final, looped, last⟩
      exact ⟨final, (if_pos further).trans looped, last⟩

end

/-! ## The months -/

section

variable {leap : Bool} {year month fuel : Nat} {word secsLow : BitVec 32}

theorem secsPerMonth_toNat (isLeap : leap = true ↔ IsLeapYear year) (named : word.toNat = month)
    (inYear : month ≤ 12) : (secsPerMonth leap word).toNat = daysInMonth year month * 86400 := by
  have same : word = BitVec.ofNat 32 month := by
    rw [← named]
    exact (BitVec.ofNat_toNat 32 word).symm
  rw [same]
  have months : month = 0 ∨ month = 1 ∨ month = 2 ∨ month = 3 ∨ month = 4 ∨ month = 5 ∨
      month = 6 ∨ month = 7 ∨ month = 8 ∨ month = 9 ∨ month = 10 ∨ month = 11 ∨ month = 12 := by
    omega
  unfold daysInMonth
  by_cases leapYear : IsLeapYear year
  · rw [isLeap.mpr leapYear, if_pos leapYear]
    rcases months with rfl | rfl | rfl | rfl | rfl | rfl | rfl | rfl | rfl | rfl | rfl | rfl | rfl
      <;> rfl
  · rw [Bool.eq_false_of_not_eq_true fun set => leapYear (isLeap.mp set), if_neg leapYear]
    rcases months with rfl | rfl | rfl | rfl | rfl | rfl | rfl | rfl | rfl | rfl | rfl | rfl | rfl
      <;> rfl

/-- The loop stops in the month in which the seconds end. -/
theorem monthLoop_at {later rest : Nat} (enough : later < fuel)
    (isLeap : leap = true ↔ IsLeapYear year) (named : word.toNat = month)
    (left : secsLow.toNat =
      segmentStart (fun index => daysInMonth year (month + index)) later * 86400 + rest)
    (within : rest < daysInMonth year (month + later) * 86400) (inYear : month + later ≤ 12) :
    ∃ last low, monthLoop leap fuel word secsLow = some (last, low) ∧
      last.toNat = month + later ∧ low.toNat = rest := by
  induction later generalizing fuel word secsLow month with
  | zero =>
      rcases fuel with - | fuel
      · exact absurd enough (Nat.not_lt_zero 0)
      rw [segmentStart_zero, Nat.zero_mul, Nat.zero_add] at left
      have stops : ¬ secsPerMonth leap word ≤ secsLow := by
        rw [BitVec.le_def, secsPerMonth_toNat isLeap named inYear, left]
        exact Nat.not_le_of_lt within
      exact ⟨word, secsLow, if_neg stops, named, left⟩
  | succ later ih =>
      rcases fuel with - | fuel
      · exact absurd enough (Nat.not_lt_zero _)
      have front : segmentStart (fun index => daysInMonth year (month + index)) (later + 1) =
          daysInMonth year month +
            segmentStart (fun index => daysInMonth year (month + 1 + index)) later := by
        rw [segmentStart_front]
        simp only [Nat.add_zero, Nat.add_assoc, Nat.add_comm 1]
      rw [front, Nat.add_mul, Nat.add_assoc] at left
      have length := secsPerMonth_toNat isLeap named (Nat.le_trans (Nat.le_add_right _ _) inYear)
      have further : secsPerMonth leap word ≤ secsLow := by
        rw [BitVec.le_def, length, left]
        exact Nat.le_add_right _ _
      have bound := secsLow.isLt
      have small : month + 1 < 4294967296 := by omega
      have next : (word + 1).toNat = month + 1 := by
        rw [BitVec.toNat_add, named]
        exact Nat.mod_eq_of_lt small
      have rest : (secsLow - secsPerMonth leap word).toNat =
          segmentStart (fun index => daysInMonth year (month + 1 + index)) later * 86400 +
            rest := by
        rw [BitVec.toNat_sub_of_le further, length, left, Nat.add_sub_cancel_left]
      have same : month + (later + 1) = month + 1 + later := by omega
      rw [same] at within inYear ⊢
      rcases ih (Nat.lt_of_succ_lt_succ enough) next rest within inYear with
        ⟨last, low, looped, found⟩
      exact ⟨last, low, (if_pos further).trans looped, found⟩

end

/-! ## The date -/

section

variable {time : PtpTime} {offset : BitVec 32}

/-- The words of an offset. -/
def extended (offset : BitVec 32) : DoubleWord :=
  ⟨if offset.toInt < 0 then -1 else 0, offset⟩

theorem value_extended (offset : BitVec 32) : (extended offset).value = offset.toInt := by
  have low := BitVec.toInt_eq_toNat_cond offset
  have bound := offset.isLt
  have minus : (-1 : BitVec 32).toInt = -1 := rfl
  have zero : (0 : BitVec 32).toInt = 0 := rfl
  unfold DoubleWord.value extended
  dsimp only
  split
  · rw [minus]
    split at low <;> omega
  · rw [zero]
    split at low <;> omega

theorem value_localSecs (inside : DoubleWord.InRange (time.words.value + offset.toInt)) :
    (localSecs time offset).value = time.words.value + offset.toInt := by
  unfold localSecs
  by_cases none : offset = 0
  · rw [if_neg (not_not_intro none), none]
    exact (Int.add_zero _).symm
  · rw [if_pos none]
    rw [← value_extended offset] at inside
    have sum := value_add64 (b := extended offset) inside
    rwa [value_extended] at sum

/-- What is left of the seconds when their whole units are taken away. -/
theorem toNat_sub_units (secsLow unit : BitVec 32) :
    (secsLow - secsLow / unit * unit).toNat = secsLow.toNat % unit.toNat := by
  have below : secsLow.toNat / unit.toNat * unit.toNat ≤ secsLow.toNat :=
    Nat.div_mul_le_self secsLow.toNat unit.toNat
  have units : (secsLow / unit * unit).toNat = secsLow.toNat / unit.toNat * unit.toNat := by
    rw [BitVec.toNat_mul, BitVec.toNat_udiv]
    exact Nat.mod_eq_of_lt (Nat.lt_of_le_of_lt below secsLow.isLt)
  have rest := Nat.div_add_mod' secsLow.toNat unit.toNat
  rw [BitVec.toNat_sub_of_le (by rwa [BitVec.le_def, units]), units]
  omega

theorem toNat_setWidth_eight {word : BitVec 32} (small : word.toNat < 256) :
    (word.setWidth 8).toNat = word.toNat := by
  rw [BitVec.toNat_setWidth]
  exact Nat.mod_eq_of_lt small

/-- The year loop, from the seconds of a date. -/
theorem yearLoop_date (date : DateTime) {secs : DoubleWord} {fuel : Nat}
    (same : secs.value = date.seconds) (days : 4 + date.days < 4294967296)
    (enough : date.year < fuel) :
    ∃ final, yearLoop fuel ⟨secs, 1970, 4, false⟩ = some final ∧
      final.At date.year (4 + daysBeforeYear date.year)
        (date.ofYear * 86400 + date.ofDay) := by
  have since := date.since
  have below := date.ofDay_lt
  have ofYear := date.ofYear_lt
  have total : date.days = daysBeforeYear date.year + date.ofYear := rfl
  have years : 365 * (date.year - 1970) ≤ daysBeforeYear date.year :=
    mul_le_segmentStart (fun index => daysInYear_ge (1970 + index)) (date.year - 1970)
  have start : (⟨secs, 1970, 4, false⟩ : YearLoop).At 1970 4
      (daysBeforeYear date.year * 86400 + (date.ofYear * 86400 + date.ofDay)) := by
    refine ⟨iff_of_false nofun (by decide), rfl, rfl, ?_⟩
    rw [same]
    unfold DateTime.seconds
    rw [total]
    omega
  have last : 1970 + (date.year - 1970) = date.year := Nat.add_sub_cancel' since
  have looped := yearLoop_at (by omega : date.year - 1970 < fuel) start (by rw [last]; omega)
    (by omega) (show 4 + daysBeforeYear date.year < 4294967296 by omega)
  rwa [last] at looped

/-- The month loop, from the seconds of the year of a date. -/
theorem monthLoop_date (date : DateTime) {leap : Bool} {secsLow : BitVec 32} {fuel : Nat}
    (isLeap : leap = true ↔ IsLeapYear date.year)
    (left : secsLow.toNat = date.ofYear * 86400 + date.ofDay) (enough : 12 ≤ fuel) :
    ∃ month low, monthLoop leap fuel 1 secsLow = some (month, low) ∧
      month.toNat = date.month ∧ low.toNat = (date.day - 1) * 86400 + date.ofDay := by
  rcases date.inYear with ⟨first, last⟩
  have inMonth := date.inMonth
  have below := date.ofDay_lt
  have same : 1 + (date.month - 1) = date.month := Nat.add_sub_cancel' first
  have total : date.ofYear = daysBeforeMonth date.year date.month + (date.day - 1) := rfl
  rw [total, Nat.add_mul, Nat.add_assoc] at left
  have named : (1 : BitVec 32).toNat = 1 := rfl
  have looped := monthLoop_at (by omega : date.month - 1 < fuel) isLeap named left
    (by rw [same]; omega) (by omega)
  rwa [same] at looped

/-- The seconds of a day taken apart. -/
theorem toNat_ofDay (date : DateTime) {word : BitVec 32} (left : word.toNat = date.ofDay) :
    (word / secsPerHour).toNat = date.hour ∧
      ((word - word / secsPerHour * secsPerHour) / secsPerMinute).toNat = date.minute ∧
      (word - word / secsPerHour * secsPerHour -
        (word - word / secsPerHour * secsPerHour) / secsPerMinute * secsPerMinute).toNat =
          date.second := by
  have minute := date.inHour
  have second := date.inMinute
  have perHour : secsPerHour.toNat = 3600 := rfl
  have perMinute : secsPerMinute.toNat = 60 := rfl
  simp only [BitVec.toNat_udiv, toNat_sub_units, left, perHour, perMinute]
  unfold DateTime.ofDay
  omega

/-- The fields name the date. -/
theorem names_dateFields (date : DateTime) {year weekday month secsLow : BitVec 32}
    (nanosecond : BitVec 32) (sameYear : year.toNat = date.year)
    (sameMonth : month.toNat = date.month)
    (left : secsLow.toNat = (date.day - 1) * 86400 + date.ofDay)
    (weekdays : weekday.toNat = (4 + date.days) % 7) :
    (dateFields year weekday month secsLow nanosecond).Names date := by
  have hour := date.inDay
  have minute := date.inHour
  have second := date.inMinute
  have inMonth := date.inMonth
  have inYear := date.inYear
  have below := date.ofDay_lt
  have longest := daysInMonth_le date.year date.month
  have perDay : secsPerDay.toNat = 86400 := rfl
  have one : (1 : BitVec 32).toNat = 1 := rfl
  have day : (secsLow / secsPerDay + 1).toNat = date.day := by
    rw [BitVec.toNat_add, BitVec.toNat_udiv, left, perDay, one]
    omega
  have ofDay : (secsLow - secsLow / secsPerDay * secsPerDay).toNat = date.ofDay := by
    rw [toNat_sub_units, left, perDay]
    omega
  rcases toNat_ofDay date ofDay with ⟨hours, minutes, seconds⟩
  exact ⟨sameYear, (toNat_setWidth_eight (by omega)).trans sameMonth,
    (toNat_setWidth_eight (by omega)).trans day, (toNat_setWidth_eight (by omega)).trans hours,
    (toNat_setWidth_eight (by omega)).trans minutes,
    (toNat_setWidth_eight (by omega)).trans seconds,
    (toNat_setWidth_eight (by omega)).trans weekdays⟩

/-- A time before 1970 is refused. -/
theorem convert_before (fuel : Nat) (dateTime : NxPtpDateTime)
    (inside : DoubleWord.InRange (time.words.value + offset.toInt))
    (before : time.words.value + offset.toInt < 0) :
    nxPtpClientUtilityConvertTimeToDate fuel time offset dateTime =
      some (.paramError, dateTime) := by
  rw [← value_localSecs inside, DoubleWord.value_neg_iff] at before
  exact if_pos before

/-- The seconds of a date become the date. -/
theorem convert_seconds {date : DateTime} {fuel : Nat} (dateTime : NxPtpDateTime)
    (same : (date.seconds : Int) = time.words.value + offset.toInt)
    (days : 4 + date.days < 4294967296) (enough : date.year < fuel) :
    ∃ result, nxPtpClientUtilityConvertTimeToDate fuel time offset dateTime =
        some (.success, result) ∧
      result.Names date ∧ result.nanosecond = time.nanosecond := by
  have since := date.since
  have below := date.ofDay_lt
  have inside : DoubleWord.InRange (time.words.value + offset.toInt) := by
    unfold DoubleWord.InRange
    unfold DateTime.seconds at same
    omega
  have sum := value_localSecs inside
  have ofYear := date.ofYear_lt
  have longest := daysInYear_le date.year
  have later : ¬ (localSecs time offset).high.toInt < 0 := by
    rw [← DoubleWord.value_neg_iff, sum, ← same]
    omega
  rcases yearLoop_date date (sum.trans same.symm) days enough with ⟨years, looped, at_⟩
  have low : years.secs.low.toNat = date.ofYear * 86400 + date.ofDay := by
    have number := at_.number
    have nonneg := at_.high_nonneg
    unfold DoubleWord.value at number
    omega
  rcases monthLoop_date date at_.leap low (by omega : 12 ≤ fuel) with
    ⟨month, secsLow, walked, sameMonth, left⟩
  have weekday : ((years.weekday + years.secs.low / secsPerDay) % 7).toNat =
      (4 + date.days) % 7 := by
    have perDay : secsPerDay.toNat = 86400 := rfl
    have seven : (7 : BitVec 32).toNat = 7 := rfl
    have total : date.days = daysBeforeYear date.year + date.ofYear := rfl
    rw [BitVec.toNat_umod, BitVec.toNat_add, BitVec.toNat_udiv, at_.counted, low, perDay, seven]
    omega
  have converted : nxPtpClientUtilityConvertTimeToDate fuel time offset dateTime =
      some (.success, dateFields years.year ((years.weekday + years.secs.low / secsPerDay) % 7)
        month secsLow time.nanosecond) := by
    unfold nxPtpClientUtilityConvertTimeToDate
    dsimp only
    rw [if_neg later, looped]
    dsimp only [Option.bind_some, bind]
    rw [walked]
    rfl
  exact ⟨_, converted, names_dateFields date _ at_.named sameMonth left weekday, rfl⟩

/-- With rounds for the years and the months, a time before 1970 is refused and the
caller's date left alone, unless the sum of the seconds overflows, and any other time becomes
the one date with its number of seconds, with its day of the week, while the days fit into a
word. -/
theorem ptp_time_to_date (dateTime : NxPtpDateTime) :
    (DoubleWord.InRange (time.words.value + offset.toInt) → time.words.value + offset.toInt < 0 →
      ∀ fuel, nxPtpClientUtilityConvertTimeToDate fuel time offset dateTime =
        some (.paramError, dateTime)) ∧
    ∀ date : DateTime, (date.seconds : Int) = time.words.value + offset.toInt →
      4 + date.days < 4294967296 → ∀ fuel, date.year < fuel →
        ∃ result, nxPtpClientUtilityConvertTimeToDate fuel time offset dateTime =
            some (.success, result) ∧
          result.Names date ∧ result.nanosecond = time.nanosecond := by
  refine ⟨?_, ?_⟩
  · intro inside before fuel
    exact convert_before fuel dateTime inside before
  · intro date same days fuel enough
    exact convert_seconds dateTime same days enough

/-- Noon of a leap day, an hour east. -/
theorem ptp_time_to_date_leap :
    ∃ result, nxPtpClientUtilityConvertTimeToDate 2001 ⟨0, 951822000, 5⟩ 3600
          ⟨0, 0, 0, 0, 0, 0, 0, 0⟩ = some (.success, result) ∧
        result.Names
          ⟨⟨2000, 2, 29, by decide, by decide, by decide⟩, 12, 0, 0, by decide, by decide,
            by decide⟩ ∧
        result.nanosecond = 5 :=
  (@ptp_time_to_date ⟨0, 951822000, 5⟩ 3600 ⟨0, 0, 0, 0, 0, 0, 0, 0⟩).2
    ⟨⟨2000, 2, 29, by decide, by decide, by decide⟩, 12, 0, 0, by decide, by decide, by decide⟩
    (by decide +kernel) (by decide +kernel) 2001 (by decide)

end

/-! ## The date of the hardware clock -/

/-- `ethernet_get_timeofday`; `isInitialized` is `device.is_initialized`. -/
def ethernetGetTimeofday (fuel : Nat) (elapse : Mac → Mac) (isInitialized : Bool)
    (datetime : NxPtpDateTime) (mac : Mac) : Option ((Status × NxPtpDateTime) × Mac) :=
  if isInitialized = false then
    some ((.error, datetime), mac)
  else
    let (status, result) := ethernetGetTime elapse isInitialized ⟨0, 0, 0⟩ mac
    if status ≠ .success then
      some ((.error, datetime), result.mac)
    else do
      let utcOffset : BitVec 32 := 0
      let (status, dt) ← nxPtpClientUtilityConvertTimeToDate fuel result.time utcOffset
        ⟨0, 0, 0, 0, 0, 0, 0, 0⟩
      if status ≠ .success then
        some ((.error, datetime), result.mac)
      else
        some ((.success, dt), result.mac)

/-- The result of a conversion that succeeds. -/
theorem ethernetGetTimeofday_eq {fuel : Nat} {elapse : Mac → Mac} {mac : Mac}
    {result : NxPtpDateTime} (datetime : NxPtpDateTime)
    (converted : nxPtpClientUtilityConvertTimeToDate fuel
      ⟨0, (elapse mac).macstsr, mac.macstnr⟩ 0 ⟨0, 0, 0, 0, 0, 0, 0, 0⟩ =
        some (.success, result)) :
    ethernetGetTimeofday fuel elapse true datetime mac =
      some ((.success, result), elapse mac) := by
  change (nxPtpClientUtilityConvertTimeToDate fuel
    ⟨0, (elapse mac).macstsr, mac.macstnr⟩ 0 ⟨0, 0, 0, 0, 0, 0, 0, 0⟩).bind _ = _
  rw [converted]
  rfl

theorem value_words_low (seconds nanosecond : BitVec 32) :
    (⟨0, seconds, nanosecond⟩ : PtpTime).words.value = seconds.toNat := by
  have zero : (0 : BitVec 32).toInt = 0 := rfl
  unfold PtpTime.words DoubleWord.value
  dsimp only
  rw [zero]
  omega

/-- A word of seconds ends in the year 2106. -/
theorem year_lt_of_seconds {date : DateTime} (inside : date.seconds < 4294967296) :
    date.year < 2107 := by
  have since := date.since
  have years : 365 * (date.year - 1970) ≤ daysBeforeYear date.year :=
    mul_le_segmentStart (fun index => daysInYear_ge (1970 + index)) (date.year - 1970)
  have total : date.days = daysBeforeYear date.year + date.ofYear := rfl
  unfold DateTime.seconds at inside
  omega

/-- The registers of a clock that shows a count. -/
theorem toNat_of_shows {mac : Mac} {count : Int} (shows : Shows mac (.ofInt count)) :
    (mac.macstsr.toNat : Int) = count / 1000000000 % 4294967296 ∧
      (mac.macstnr.toNat : Int) = count % 1000000000 := by
  have valid : mac.time.Valid := by
    rw [shows.2]
    exact Clock.valid_shown _
  have total : (mac.time.total : Int) = count % Timestamp.span := by
    rw [shows.2, Clock.total_shown, Clock.count_ofInt]
  unfold Timestamp.Valid at valid
  unfold Timestamp.total Timestamp.span at total
  unfold Mac.macstsr Mac.macstnr
  omega

/-- Over a clock that shows a count, the time of day is the date of the second in which the
seconds are read, whatever passes between the two register reads, with the nanoseconds of
the first read; before the initialisation it is an error that leaves the date alone. -/
theorem ptp_timeofday (datetime : NxPtpDateTime) {mac : Mac} {count : Int}
    (shows : Shows mac (.ofInt count)) (elapsed : Nat) {fuel : Nat} (enough : 2107 ≤ fuel) :
    ethernetGetTimeofday fuel (Mac.advance elapsed) false datetime mac =
        some ((.error, datetime), mac) ∧
      ∃ (date : DateTime) (result : NxPtpDateTime),
        (date.seconds : Int) = (count + elapsed) / 1000000000 % 4294967296 ∧
        ethernetGetTimeofday fuel (Mac.advance elapsed) true datetime mac =
            some ((.success, result), mac.advance elapsed) ∧
          result.Names date ∧ (result.nanosecond.toNat : Int) = count % 1000000000 := by
  refine ⟨rfl, ?_⟩
  have seconds := (toNat_of_shows (shows_advance_ofInt elapsed shows)).1
  have nanoseconds := (toNat_of_shows shows).2
  rcases DateTime.exists_seconds (mac.advance elapsed).macstsr.toNat with ⟨date, same⟩
  have bound := (mac.advance elapsed).macstsr.isLt
  rw [← same] at seconds bound
  have number : (date.seconds : Int) =
      (⟨0, (mac.advance elapsed).macstsr, mac.macstnr⟩ : PtpTime).words.value +
        (0 : BitVec 32).toInt := by
    have zero : (0 : BitVec 32).toInt = 0 := rfl
    rw [value_words_low, same, zero, Int.add_zero]
  have year := year_lt_of_seconds bound
  have days : date.days * 86400 ≤ date.seconds := Nat.le_add_right _ _
  rcases convert_seconds ⟨0, 0, 0, 0, 0, 0, 0, 0⟩ number (by omega)
    (Nat.lt_of_lt_of_le year enough) with ⟨result, converted, names, read⟩
  exact ⟨date, result, seconds, ethernetGetTimeofday_eq datetime converted, names,
    read ▸ nanoseconds⟩

/-- The second passes between the two reads. -/
theorem ptp_timeofday_between :
    ethernetGetTimeofday 2107 (Mac.advance 1) false ⟨0, 0, 0, 0, 0, 0, 0, 0⟩
          ⟨⟨9, 999999999⟩, 0, 0⟩ =
        some ((.error, ⟨0, 0, 0, 0, 0, 0, 0, 0⟩), ⟨⟨9, 999999999⟩, 0, 0⟩) ∧
      ∃ (date : DateTime) (result : NxPtpDateTime),
        (date.seconds : Int) = (9999999999 + (1 : Nat)) / 1000000000 % 4294967296 ∧
        ethernetGetTimeofday 2107 (Mac.advance 1) true ⟨0, 0, 0, 0, 0, 0, 0, 0⟩
              ⟨⟨9, 999999999⟩, 0, 0⟩ =
            some ((.success, result), Mac.advance 1 ⟨⟨9, 999999999⟩, 0, 0⟩) ∧
          result.Names date ∧ (result.nanosecond.toNat : Int) = 9999999999 % 1000000000 :=
  @ptp_timeofday ⟨0, 0, 0, 0, 0, 0, 0, 0⟩ ⟨⟨9, 999999999⟩, 0, 0⟩ 9999999999 ⟨rfl, by decide⟩ 1
    2107 (Nat.le_refl _)

end EmbeddedBase.NetX
