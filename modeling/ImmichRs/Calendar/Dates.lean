import Mathlib.Data.Int.Init
import Mathlib.Tactic.NormNum

/-!
# Calendar dates

The proleptic Gregorian calendar over the years of at most four digits, with days numbered so that
a shift by days is an addition.
-/

namespace Calendar

/-- Whether a year has a 29 February. -/
def isLeap (year : Int) : Bool :=
  year % 4 == 0 && (year % 100 != 0 || year % 400 == 0)

/-- The days of a month, which is counted from one. -/
def daysInMonth (year : Int) : Nat → Nat
  | 2 => if isLeap year then 29 else 28
  | 4 | 6 | 9 | 11 => 30
  | _ => 31

/-- The day exists, in a year of at most four digits. -/
def ValidDate (year : Int) (month day : Nat) : Prop :=
  (-9999 ≤ year ∧ year ≤ 9999) ∧ (1 ≤ month ∧ month ≤ 12) ∧ 1 ≤ day ∧ day ≤ daysInMonth year month

instance (year : Int) (month day : Nat) : Decidable (ValidDate year month day) :=
  inferInstanceAs (Decidable (_ ∧ _))

/-- A day of the calendar. -/
@[ext] structure Date where
  year : Int
  month : Nat
  day : Nat
  valid : ValidDate year month day
  deriving DecidableEq, Repr

/-- The date of three numbers, when there is one. -/
def Date.ofNumbers (year : Int) (month day : Nat) : Option Date :=
  if valid : ValidDate year month day then some ⟨year, month, day, valid⟩ else none

/-- The last day of the calendar. -/
def Date.last : Date := ⟨9999, 12, 31, by decide⟩

/-- The first day of the calendar. -/
def Date.first : Date := ⟨-9999, 1, 1, by decide⟩

/-! ## Numbered days -/

/-- The days before a year, from the first day of year one. -/
def daysBeforeYear (year : Int) : Int :=
  365 * (year - 1) + (year - 1) / 4 - (year - 1) / 100 + (year - 1) / 400

/-- The days of a year before a month. -/
def daysBeforeMonth (year : Int) (month : Nat) : Nat :=
  ((List.range (month - 1)).map fun earlier => daysInMonth year (earlier + 1)).sum

/-- The number of a day; 1 January of year one has the number one. -/
def Date.dayNumber (date : Date) : Int :=
  daysBeforeYear date.year + daysBeforeMonth date.year date.month + date.day

/-- The days of a year. -/
def daysInYear (year : Int) : Nat :=
  if isLeap year then 366 else 365

theorem daysBeforeYear_succ (year : Int) :
    daysBeforeYear (year + 1) = daysBeforeYear year + daysInYear year := by
  rw [daysBeforeYear, daysBeforeYear, daysInYear, isLeap]
  simp only [Bool.and_eq_true, beq_iff_eq, Bool.or_eq_true, bne_iff_ne, ne_eq]
  split <;> push_cast <;> omega

theorem daysBeforeYear_mono {earlier later : Int} (order : earlier ≤ later) :
    daysBeforeYear earlier ≤ daysBeforeYear later := by
  rw [daysBeforeYear, daysBeforeYear]
  omega

theorem daysBeforeMonth_succ (year : Int) {month : Nat} (positive : 1 ≤ month) :
    daysBeforeMonth year (month + 1) = daysBeforeMonth year month + daysInMonth year month := by
  obtain ⟨earlier, rfl⟩ := Nat.exists_eq_add_of_le' positive
  simp [daysBeforeMonth, List.range_succ]

theorem daysBeforeMonth_end (year : Int) : daysBeforeMonth year 13 = daysInYear year := by
  simp only [daysBeforeMonth, daysInYear, List.range_succ]
  cases leap : isLeap year <;> simp [daysInMonth, leap]

theorem daysBeforeMonth_mono (year : Int) {earlier later : Nat} (positive : 1 ≤ earlier)
    (order : earlier ≤ later) : daysBeforeMonth year earlier ≤ daysBeforeMonth year later := by
  induction later, order using Nat.le_induction with
  | base => exact le_rfl
  | succ later order induction =>
      rw [daysBeforeMonth_succ year (positive.trans order)]
      exact Nat.le_add_right_of_le induction

/-- A day lies in its year. -/
theorem Date.dayNumber_le_year (date : Date) :
    date.dayNumber ≤ daysBeforeYear (date.year + 1) := by
  obtain ⟨year, month, day, _, ⟨positive, atMost⟩, _, inMonth⟩ := date
  have monthEnd := daysBeforeMonth_succ year positive
  have yearEnd := daysBeforeMonth_mono year (Nat.le_add_left 1 month) (Nat.add_le_add_right atMost 1)
  rw [daysBeforeMonth_end] at yearEnd
  rw [daysBeforeYear_succ, Date.dayNumber]
  simp only at monthEnd yearEnd ⊢
  omega

theorem Date.year_lt_dayNumber (date : Date) : daysBeforeYear date.year < date.dayNumber := by
  obtain ⟨year, month, day, _, _, positive, _⟩ := date
  simp only [Date.dayNumber]
  omega

theorem Date.dayNumber_le_last (date : Date) : date.dayNumber ≤ Date.last.dayNumber := by
  have within := date.dayNumber_le_year
  have before := daysBeforeYear_mono (Int.add_le_add_right date.valid.1.2 1)
  have lastDay : Date.last.dayNumber = daysBeforeYear (9999 + 1) := by decide
  omega

theorem Date.first_le_dayNumber (date : Date) : Date.first.dayNumber ≤ date.dayNumber := by
  have within := date.year_lt_dayNumber
  have after := daysBeforeYear_mono date.valid.1.1
  have firstDay : Date.first.dayNumber = daysBeforeYear (-9999) + 1 := by decide
  omega

/-! ## Shifts by days -/

/-- The day after a date. -/
def Date.next (date : Date) : Option Date :=
  if date.day < daysInMonth date.year date.month then
    Date.ofNumbers date.year date.month (date.day + 1)
  else if date.month < 12 then
    Date.ofNumbers date.year (date.month + 1) 1
  else
    Date.ofNumbers (date.year + 1) 1 1

/-- The day before a date. -/
def Date.previous (date : Date) : Option Date :=
  if 1 < date.day then
    Date.ofNumbers date.year date.month (date.day - 1)
  else if 1 < date.month then
    Date.ofNumbers date.year (date.month - 1) (daysInMonth date.year (date.month - 1))
  else
    Date.ofNumbers (date.year - 1) 12 31

theorem Date.ofNumbers_eq_some {year : Int} {month day : Nat} {date : Date} :
    Date.ofNumbers year month day = some date ↔
      date.year = year ∧ date.month = month ∧ date.day = day := by
  rw [Date.ofNumbers]
  constructor
  · intro found
    split at found
    · obtain rfl := Option.some.inj found
      exact ⟨rfl, rfl, rfl⟩
    · cases found
  · rintro ⟨rfl, rfl, rfl⟩
    rw [dif_pos date.valid]

theorem Date.ofNumbers_eq_none {year : Int} {month day : Nat} :
    Date.ofNumbers year month day = none ↔ ¬ ValidDate year month day := by
  rw [Date.ofNumbers]
  split <;> simp_all

theorem one_le_daysInMonth (year : Int) (month : Nat) : 1 ≤ daysInMonth year month := by
  rw [daysInMonth.eq_def]
  split
  · split <;> omega
  all_goals omega

theorem Date.dayNumber_next {date later : Date} (found : date.next = some later) :
    later.dayNumber = date.dayNumber + 1 := by
  rw [Date.next] at found
  obtain ⟨_, ⟨positive, atMost⟩, _, inMonth⟩ := date.valid
  split at found
  · obtain ⟨year, month, day⟩ := Date.ofNumbers_eq_some.mp found
    simp only [Date.dayNumber, year, month, day]
    omega
  · have lastDay : date.day = daysInMonth date.year date.month := by omega
    have monthEnd := daysBeforeMonth_succ date.year positive
    split at found
    · obtain ⟨year, month, day⟩ := Date.ofNumbers_eq_some.mp found
      simp only [Date.dayNumber, year, month, day]
      omega
    · obtain ⟨year, month, day⟩ := Date.ofNumbers_eq_some.mp found
      have december : date.month = 12 := by omega
      rw [december, daysBeforeMonth_end] at monthEnd
      have january : daysBeforeMonth (date.year + 1) 1 = 0 := rfl
      simp only [Date.dayNumber, year, month, day, daysBeforeYear_succ]
      rw [december] at lastDay ⊢
      omega

theorem Date.next_eq_none {date : Date} (stopped : date.next = none) : date = .last := by
  rw [Date.next] at stopped
  obtain ⟨⟨least, greatest⟩, ⟨positive, atMost⟩, first, inMonth⟩ := date.valid
  split at stopped
  · have valid : ValidDate date.year date.month (date.day + 1) :=
      ⟨⟨least, greatest⟩, ⟨positive, atMost⟩, by omega, by omega⟩
    exact absurd valid (Date.ofNumbers_eq_none.mp stopped)
  · split at stopped
    · have valid : ValidDate date.year (date.month + 1) 1 :=
        ⟨⟨least, greatest⟩, ⟨by omega, by omega⟩, le_rfl, one_le_daysInMonth _ _⟩
      exact absurd valid (Date.ofNumbers_eq_none.mp stopped)
    · have december : date.month = 12 := by omega
      have invalid := Date.ofNumbers_eq_none.mp stopped
      have lastYear : date.year = 9999 := by
        by_contra other
        exact invalid ⟨⟨by omega, by omega⟩, by decide, le_rfl, one_le_daysInMonth _ _⟩
      have days : daysInMonth date.year date.month = 31 := by rw [december]; rfl
      have lastDay : date.day = 31 := by omega
      exact Date.ext lastYear december lastDay

theorem Date.dayNumber_previous {date earlier : Date} (found : date.previous = some earlier) :
    earlier.dayNumber = date.dayNumber - 1 := by
  rw [Date.previous] at found
  obtain ⟨_, ⟨positive, atMost⟩, first, inMonth⟩ := date.valid
  split at found
  · obtain ⟨year, month, day⟩ := Date.ofNumbers_eq_some.mp found
    simp only [Date.dayNumber, year, month, day]
    omega
  · split at found
    · obtain ⟨year, month, day⟩ := Date.ofNumbers_eq_some.mp found
      have earlierMonth : 1 ≤ date.month - 1 := by omega
      have monthEnd := daysBeforeMonth_succ date.year earlierMonth
      rw [Nat.sub_add_cancel positive] at monthEnd
      simp only [Date.dayNumber, year, month, day]
      omega
    · obtain ⟨year, month, day⟩ := Date.ofNumbers_eq_some.mp found
      have yearEnd := daysBeforeYear_succ (date.year - 1)
      rw [Int.sub_add_cancel] at yearEnd
      have monthEnd := daysBeforeMonth_succ (date.year - 1) (show 1 ≤ 12 by decide)
      rw [daysBeforeMonth_end] at monthEnd
      have december : daysInMonth (date.year - 1) 12 = 31 := rfl
      have january : date.month = 1 := by omega
      have start : daysBeforeMonth date.year 1 = 0 := rfl
      simp only [Date.dayNumber, year, month, day]
      rw [january]
      omega

theorem Date.previous_eq_none {date : Date} (stopped : date.previous = none) : date = .first := by
  rw [Date.previous] at stopped
  obtain ⟨⟨least, greatest⟩, ⟨positive, atMost⟩, first, inMonth⟩ := date.valid
  split at stopped
  · have valid : ValidDate date.year date.month (date.day - 1) :=
      ⟨⟨least, greatest⟩, ⟨positive, atMost⟩, by omega, by omega⟩
    exact absurd valid (Date.ofNumbers_eq_none.mp stopped)
  · split at stopped
    · have valid :
          ValidDate date.year (date.month - 1) (daysInMonth date.year (date.month - 1)) :=
        ⟨⟨least, greatest⟩, ⟨by omega, by omega⟩, one_le_daysInMonth _ _, le_rfl⟩
      exact absurd valid (Date.ofNumbers_eq_none.mp stopped)
    · have invalid := Date.ofNumbers_eq_none.mp stopped
      have firstYear : date.year = -9999 := by
        by_contra other
        exact invalid ⟨⟨by omega, by omega⟩, by decide, by decide, le_rfl⟩
      have january : date.month = 1 := by omega
      have firstDay : date.day = 1 := by omega
      exact Date.ext firstYear january firstDay

/-- A date as many days later. -/
def Date.forward : Nat → Date → Option Date
  | 0, date => some date
  | days + 1, date => date.next.bind (Date.forward days)

/-- A date as many days earlier. -/
def Date.backward : Nat → Date → Option Date
  | 0, date => some date
  | days + 1, date => date.previous.bind (Date.backward days)

/-- The date which a number of days leads to, within the calendar. -/
def Date.shift (date : Date) : Int → Option Date
  | .ofNat days => date.forward days
  | .negSucc days => date.backward (days + 1)

theorem Date.dayNumber_forward {days : Nat} {date later : Date}
    (found : date.forward days = some later) : later.dayNumber = date.dayNumber + days := by
  induction days generalizing date with
  | zero =>
      obtain rfl := Option.some.inj found
      exact (Int.add_zero _).symm
  | succ days induction =>
      obtain ⟨following, next, found⟩ := Option.bind_eq_some_iff.mp found
      rw [induction found, Date.dayNumber_next next]
      omega

theorem Date.forward_eq_none {days : Nat} {date : Date} (stopped : date.forward days = none) :
    Date.last.dayNumber < date.dayNumber + days := by
  induction days generalizing date with
  | zero => cases stopped
  | succ days induction =>
      rw [Date.forward] at stopped
      cases next : date.next with
      | none =>
          rw [Date.next_eq_none next]
          omega
      | some following =>
          rw [next, Option.bind_some] at stopped
          have beyond := induction stopped
          rw [Date.dayNumber_next next] at beyond
          omega

theorem Date.dayNumber_backward {days : Nat} {date earlier : Date}
    (found : date.backward days = some earlier) :
    earlier.dayNumber = date.dayNumber - days := by
  induction days generalizing date with
  | zero =>
      obtain rfl := Option.some.inj found
      exact (Int.sub_zero _).symm
  | succ days induction =>
      obtain ⟨preceding, previous, found⟩ := Option.bind_eq_some_iff.mp found
      rw [induction found, Date.dayNumber_previous previous]
      omega

theorem Date.backward_eq_none {days : Nat} {date : Date} (stopped : date.backward days = none) :
    date.dayNumber - days < Date.first.dayNumber := by
  induction days generalizing date with
  | zero => cases stopped
  | succ days induction =>
      rw [Date.backward] at stopped
      cases previous : date.previous with
      | none =>
          rw [Date.previous_eq_none previous]
          omega
      | some preceding =>
          rw [previous, Option.bind_some] at stopped
          have beyond := induction stopped
          rw [Date.dayNumber_previous previous] at beyond
          omega

/-- A shift adds to the number of the day. -/
theorem Date.dayNumber_shift {date other : Date} {days : Int}
    (found : date.shift days = some other) : other.dayNumber = date.dayNumber + days := by
  cases days with
  | ofNat days => exact Date.dayNumber_forward found
  | negSucc days =>
      rw [Date.dayNumber_backward found, Int.negSucc_eq]
      omega

/-- A shift fails exactly when it leaves the calendar. -/
theorem Date.shift_eq_none_iff {date : Date} {days : Int} :
    date.shift days = none ↔ Date.last.dayNumber < date.dayNumber + days ∨
      date.dayNumber + days < Date.first.dayNumber := by
  constructor
  · intro stopped
    cases days with
    | ofNat days => exact .inl (Date.forward_eq_none stopped)
    | negSucc days =>
        have before := Date.backward_eq_none stopped
        rw [Int.negSucc_eq]
        omega
  · intro outside
    cases found : date.shift days with
    | none => rfl
    | some other =>
        have number := Date.dayNumber_shift found
        have atMost := other.dayNumber_le_last
        have atLeast := other.first_le_dayNumber
        omega

end Calendar
