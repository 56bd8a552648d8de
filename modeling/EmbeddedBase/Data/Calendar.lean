import EmbeddedBase.Data.Segments

/-!
# Calendar dates

Dates of the Gregorian calendar from 1970 on.  Each number of days since the start of 1970
is that of exactly one date, and each number of seconds that of one date and time of day.
-/

namespace EmbeddedBase.Data

/-- The leap years. -/
def IsLeapYear (year : Nat) : Prop :=
  year % 4 = 0 ∧ (year % 100 ≠ 0 ∨ year % 400 = 0)

instance : DecidablePred IsLeapYear := fun _ =>
  inferInstanceAs (Decidable (_ ∧ _))

def daysInYear (year : Nat) : Nat :=
  if IsLeapYear year then 366 else 365

def daysInMonth (year month : Nat) : Nat :=
  match month with
  | 2 => if IsLeapYear year then 29 else 28
  | 4 | 6 | 9 | 11 => 30
  | _ => 31

/-- The days before a year. -/
def daysBeforeYear (year : Nat) : Nat :=
  segmentStart (fun index => daysInYear (1970 + index)) (year - 1970)

/-- The days of a year before a month. -/
def daysBeforeMonth (year month : Nat) : Nat :=
  segmentStart (fun index => daysInMonth year (1 + index)) (month - 1)

/-- A date from 1970 on. -/
@[ext]
structure Date where
  year : Nat
  month : Nat
  day : Nat
  since : 1970 ≤ year
  inYear : 1 ≤ month ∧ month ≤ 12
  inMonth : 1 ≤ day ∧ day ≤ daysInMonth year month

/-- The days since January 1, 1970. -/
def Date.days (date : Date) : Nat :=
  daysBeforeYear date.year + (daysBeforeMonth date.year date.month + (date.day - 1))

/-- A date with a time of day. -/
@[ext]
structure DateTime extends Date where
  hour : Nat
  minute : Nat
  second : Nat
  inDay : hour < 24
  inHour : minute < 60
  inMinute : second < 60

/-- The seconds of the day. -/
def DateTime.ofDay (date : DateTime) : Nat :=
  date.hour * 3600 + date.minute * 60 + date.second

/-- The seconds since the start of 1970. -/
def DateTime.seconds (date : DateTime) : Nat :=
  date.days * 86400 + date.ofDay

/-! ## Years and months -/

section

variable (year month : Nat)

theorem daysInYear_ge : 365 ≤ daysInYear year := by
  unfold daysInYear
  split
  · decide
  · exact Nat.le_refl 365

theorem daysInYear_le : daysInYear year ≤ 366 := by
  unfold daysInYear
  split
  · exact Nat.le_refl 366
  · decide

theorem daysInMonth_pos : 0 < daysInMonth year month := by
  unfold daysInMonth
  split
  · split <;> decide
  all_goals decide

theorem daysInMonth_le : daysInMonth year month ≤ 31 := by
  unfold daysInMonth
  split
  · split <;> decide
  all_goals decide

/-- The months of a year have its days. -/
theorem daysBeforeMonth_end : daysBeforeMonth year 13 = daysInYear year := by
  simp only [daysBeforeMonth, segmentStart, daysInMonth, daysInYear]
  split <;> rfl

end

/-! ## Days -/

namespace Date

variable (date other : Date)

/-- The days of the year before the date. -/
def ofYear : Nat :=
  daysBeforeMonth date.year date.month + (date.day - 1)

theorem liesIn_month :
    LiesIn (fun index => daysInMonth date.year (1 + index)) date.ofYear (date.month - 1)
      (date.day - 1) := by
  rcases date.inMonth with ⟨first, last⟩
  refine ⟨rfl, ?_⟩
  dsimp only
  rw [Nat.add_sub_cancel' date.inYear.1]
  omega

theorem ofYear_lt : date.ofYear < daysInYear date.year := by
  rw [← daysBeforeMonth_end]
  have last := date.inYear.2
  exact date.liesIn_month.lt_start (show date.month - 1 < 12 by omega)

theorem liesIn_year :
    LiesIn (fun index => daysInYear (1970 + index)) date.days (date.year - 1970) date.ofYear := by
  refine ⟨rfl, ?_⟩
  dsimp only
  rw [Nat.add_sub_cancel' date.since]
  exact date.ofYear_lt

variable {date other}

/-- A number of days is that of one date only. -/
theorem days_inj (same : date.days = other.days) : date = other := by
  have year := date.liesIn_year
  rw [same] at year
  rcases year.unique other.liesIn_year with ⟨sameYear, sameRest⟩
  have since := date.since
  have otherSince := other.since
  have yearSame : date.year = other.year := by omega
  have month := date.liesIn_month
  rw [sameRest, yearSame] at month
  rcases month.unique other.liesIn_month with ⟨sameMonth, sameDay⟩
  have inYear := date.inYear
  have otherInYear := other.inYear
  have inMonth := date.inMonth
  have otherInMonth := other.inMonth
  apply Date.ext yearSame <;> omega

/-- Each number of days is that of a date. -/
theorem exists_days (days : Nat) : ∃ date : Date, date.days = days := by
  have years (index : Nat) : 0 < daysInYear (1970 + index) :=
    Nat.lt_of_lt_of_le (by decide) (daysInYear_ge (1970 + index))
  rcases exists_liesIn years days with ⟨year, ofYear, sameYear, inYear⟩
  have months (index : Nat) : 0 < daysInMonth (1970 + year) (1 + index) :=
    daysInMonth_pos (1970 + year) (1 + index)
  rcases exists_liesIn months ofYear with ⟨month, day, sameMonth, inMonth⟩
  have twelve : month < 12 := by
    apply LiesIn.index_lt ⟨sameMonth, inMonth⟩
    exact inYear.trans_eq (daysBeforeMonth_end (1970 + year)).symm
  dsimp only at inMonth
  refine ⟨⟨1970 + year, 1 + month, 1 + day, by omega, by omega, by omega⟩, ?_⟩
  unfold Date.days daysBeforeYear daysBeforeMonth
  dsimp only
  rw [Nat.add_sub_cancel_left, Nat.add_sub_cancel_left, Nat.add_sub_cancel_left, ← sameMonth,
    ← sameYear]

end Date

/-! ## Seconds -/

namespace DateTime

variable {date other : DateTime}

theorem ofDay_lt (date : DateTime) : date.ofDay < 86400 := by
  have hour := date.inDay
  have minute := date.inHour
  have second := date.inMinute
  unfold ofDay
  omega

/-- A number of seconds is that of one date and time of day only. -/
theorem seconds_inj (same : date.seconds = other.seconds) : date = other := by
  have below := date.ofDay_lt
  have otherBelow := other.ofDay_lt
  have hour := date.inDay
  have minute := date.inHour
  have second := date.inMinute
  have otherHour := other.inDay
  have otherMinute := other.inHour
  have otherSecond := other.inMinute
  unfold seconds at same
  have sameDate : date.toDate = other.toDate := Date.days_inj (by omega)
  unfold ofDay at *
  apply DateTime.ext
  · exact congrArg Date.year sameDate
  · exact congrArg Date.month sameDate
  · exact congrArg Date.day sameDate
  all_goals omega

/-- Each number of seconds is that of a date and time of day. -/
theorem exists_seconds (seconds : Nat) : ∃ date : DateTime, date.seconds = seconds := by
  rcases Date.exists_days (seconds / 86400) with ⟨date, same⟩
  refine ⟨⟨date, seconds % 86400 / 3600, seconds % 3600 / 60, seconds % 60, by omega, by omega,
    by omega⟩, ?_⟩
  unfold DateTime.seconds ofDay
  dsimp only
  rw [same]
  omega

end DateTime

end EmbeddedBase.Data
