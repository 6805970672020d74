import ImmichRs.Calendar.Dates

/-!
# Instants

A date and a time of day with an offset from UTC, and the instant which they denote.
-/

namespace Calendar

/-- A time of day must exist and its offset must be less than 26 hours. -/
def ValidTime (second nanosecond : Nat) (offset : Int) : Prop :=
  second < 86400 ∧ nanosecond < 1000000000 ∧ -93600 < offset ∧ offset < 93600

instance (second nanosecond : Nat) (offset : Int) : Decidable (ValidTime second nanosecond offset) :=
  inferInstanceAs (Decidable (_ ∧ _))

/-- A local date and time of day with the seconds by which it is ahead of UTC. -/
@[ext] structure Moment where
  date : Date
  /-- The second of the day. -/
  second : Nat
  nanosecond : Nat
  offset : Int
  valid : ValidTime second nanosecond offset
  deriving DecidableEq, Repr

/-- The moment of a date and a time of day. -/
def Moment.ofClock (date : Date) (hour minute second nanosecond : Nat) (offset : Int) :
    Option Moment :=
  if clock : hour < 24 ∧ minute < 60 ∧ second < 60 ∧ nanosecond < 1000000000 ∧
      -93600 < offset ∧ offset < 93600 then
    some ⟨date, hour * 3600 + minute * 60 + second, nanosecond, offset, by omega, clock.2.2.2⟩
  else
    none

/-- The moment in UTC of six numbers, when there is one. -/
def Moment.ofNumbers (year : Int) (month day hour minute second : Nat) : Option Moment :=
  (Date.ofNumbers year month day).bind fun date => Moment.ofClock date hour minute second 0 0

/-- 1 January 1970. -/
def Date.epoch : Date := ⟨1970, 1, 1, by decide⟩

/-- The number of 1 January 1970. -/
def epochDay : Int := 719163

/-- Seconds since the epoch, without those of the fraction. -/
def Moment.seconds (moment : Moment) : Int :=
  (moment.date.dayNumber - epochDay) * 86400 + moment.second - moment.offset

/-- Nanoseconds since the epoch. -/
def Moment.nanoseconds (moment : Moment) : Int :=
  moment.seconds * 1000000000 + moment.nanosecond

/-- The start of the second of a moment. -/
def Moment.truncated (moment : Moment) : Moment :=
  { moment with
    nanosecond := 0
    valid := ⟨moment.valid.1, by decide, moment.valid.2.2⟩ }

@[simp] theorem Moment.seconds_truncated (moment : Moment) :
    moment.truncated.seconds = moment.seconds := rfl

@[simp] theorem Moment.nanosecond_truncated (moment : Moment) :
    moment.truncated.nanosecond = 0 := rfl

theorem Moment.nanoseconds_truncated (moment : Moment) :
    moment.truncated.nanoseconds = moment.nanoseconds / 1000000000 * 1000000000 := by
  have small := moment.valid.2.1
  rw [Moment.nanoseconds, Moment.nanoseconds, Moment.seconds_truncated,
    Moment.nanosecond_truncated]
  omega

/-- The seconds since midnight in UTC of the local day. -/
def Moment.utcSecond (moment : Moment) : Int := moment.second - moment.offset

/-- The same instant in UTC, unless its date leaves the calendar. -/
def Moment.toUtc (moment : Moment) : Option Moment :=
  (moment.date.shift (moment.utcSecond / 86400)).map fun date =>
    { date
      second := (moment.utcSecond % 86400).toNat
      nanosecond := moment.nanosecond
      offset := 0
      valid := ⟨by omega, moment.valid.2.1, by decide, by decide⟩ }

/-- The start of a second since the epoch, in UTC. -/
def Moment.ofSeconds (seconds : Int) : Option Moment :=
  (Date.epoch.shift (seconds / 86400)).map fun date =>
    { date
      second := (seconds % 86400).toNat
      nanosecond := 0
      offset := 0
      valid := ⟨by omega, by decide, by decide, by decide⟩ }

/-- A whole second in UTC. -/
structure Moment.IsUtcSecond (moment : Moment) : Prop where
  offset : moment.offset = 0
  nanosecond : moment.nanosecond = 0

/-- The six numbers which a moment shows. -/
structure Moment.Shows (moment : Moment) (year : Int) (month day hour minute second : Nat) :
    Prop where
  year : moment.date.year = year
  month : moment.date.month = month
  day : moment.date.day = day
  hour : moment.second / 3600 = hour
  minute : moment.second / 60 % 60 = minute
  second : moment.second % 60 = second

theorem Moment.ofNumbers_eq_some {year : Int} {month day hour minute second : Nat}
    {moment : Moment} (found : Moment.ofNumbers year month day hour minute second = some moment) :
    moment.IsUtcSecond ∧ moment.Shows year month day hour minute second := by
  obtain ⟨date, valid, found⟩ := Option.bind_eq_some_iff.mp found
  obtain ⟨sameYear, sameMonth, sameDay⟩ := Date.ofNumbers_eq_some.mp valid
  rw [Moment.ofClock] at found
  split at found
  · obtain rfl := Option.some.inj found
    exact ⟨⟨rfl, rfl⟩, sameYear, sameMonth, sameDay, by dsimp only; omega, by dsimp only; omega,
      by dsimp only; omega⟩
  · cases found

/-- A clock is the second of the day which it shows. -/
theorem Moment.ofClock_of_second (moment : Moment) :
    Moment.ofClock moment.date (moment.second / 3600) (moment.second / 60 % 60)
      (moment.second % 60) moment.nanosecond moment.offset = some moment := by
  obtain ⟨inDay, inSecond, inRange⟩ := moment.valid
  have parts : moment.second / 3600 * 3600 + moment.second / 60 % 60 * 60 + moment.second % 60 =
      moment.second := by omega
  rw [Moment.ofClock, dif_pos ⟨by omega, by omega, by omega, inSecond, inRange⟩]
  exact congrArg some (Moment.ext rfl parts rfl rfl)

/-- A whole second in UTC is made of the numbers which it shows. -/
theorem Moment.ofNumbers_of_shown {moment : Moment} (utc : moment.IsUtcSecond) :
    Moment.ofNumbers moment.date.year moment.date.month moment.date.day (moment.second / 3600)
      (moment.second / 60 % 60) (moment.second % 60) = some moment := by
  have clock := moment.ofClock_of_second
  rw [utc.nanosecond, utc.offset] at clock
  rw [Moment.ofNumbers, Date.ofNumbers_eq_some.mpr ⟨rfl, rfl, rfl⟩, Option.bind_some, clock]

theorem Moment.toUtc_eq_some {moment utc : Moment} (found : moment.toUtc = some utc) :
    utc.seconds = moment.seconds ∧ utc.nanosecond = moment.nanosecond ∧ utc.offset = 0 := by
  obtain ⟨date, shifted, rfl⟩ := Option.map_eq_some_iff.mp found
  have number := Date.dayNumber_shift shifted
  have positive : 0 ≤ moment.utcSecond % 86400 := Int.emod_nonneg _ (by decide)
  have parts := Int.mul_ediv_add_emod moment.utcSecond 86400
  refine ⟨?_, rfl, rfl⟩
  simp only [Moment.seconds, number, Int.toNat_of_nonneg positive]
  rw [Moment.utcSecond] at parts ⊢
  omega

/-- The start of the second of an instant, in UTC. -/
theorem Moment.truncated_toUtc {original utc : Moment}
    (converted : original.truncated.toUtc = some utc) :
    utc.IsUtcSecond ∧ utc.nanoseconds = original.nanoseconds / 1000000000 * 1000000000 := by
  obtain ⟨seconds, nanosecond, offset⟩ := Moment.toUtc_eq_some converted
  refine ⟨⟨offset, nanosecond⟩, ?_⟩
  rw [← Moment.nanoseconds_truncated, Moment.nanoseconds, Moment.nanoseconds, seconds, nanosecond]

/-- The last second of the calendar in UTC, 9999-12-31T23:59:59Z. -/
def lastSecond : Int := 253402300799

/-- The first second of the calendar in UTC, -9999-01-01T00:00:00Z. -/
def firstSecond : Int := -377705116800

/-- The conversion fails exactly for the instants outside the calendar. -/
theorem Moment.toUtc_eq_none_iff {moment : Moment} :
    moment.toUtc = none ↔ lastSecond < moment.seconds ∨ moment.seconds < firstSecond := by
  have lastDay : Date.last.dayNumber = 3652059 := by decide
  have firstDay : Date.first.dayNumber = -3652424 := by decide
  rw [Moment.toUtc, Option.map_eq_none_iff, Date.shift_eq_none_iff, lastDay, firstDay]
  simp only [Moment.seconds, Moment.utcSecond, lastSecond, firstSecond, epochDay]
  omega

/-- A local date from year zero on is not before the calendar in UTC. -/
theorem Moment.firstSecond_le {moment : Moment} (year : 0 ≤ moment.date.year) :
    firstSecond ≤ moment.seconds := by
  have start := daysBeforeYear_mono year
  have within := moment.date.year_lt_dayNumber
  have zero : daysBeforeYear 0 = -366 := by decide
  have offset := moment.valid.2.2.2
  simp only [Moment.seconds, firstSecond, epochDay]
  omega

end Calendar
