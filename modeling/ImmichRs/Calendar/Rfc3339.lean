import ImmichRs.Calendar.Instants
import Mathlib.Tactic.IntervalCases

/-!
# RFC 3339

Writing a moment and reading it back, without leap seconds.
-/

namespace Calendar

/-! ## Digits -/

/-- The last decimal digit of a number. -/
def digit (number : Nat) : Char := Char.ofNat (48 + number % 10)

/-- Two decimal digits. -/
def twoDigits (number : Nat) : List Char := [digit (number / 10), digit number]

/-- The number of a decimal digit. -/
def digitValue (character : Char) : Option Nat :=
  if '0' ≤ character ∧ character ≤ '9' then some (character.toNat - 48) else none

/-- A digit at the start of a text, and what follows it. -/
def takeDigit : List Char → Option (Nat × List Char)
  | [] => none
  | character :: rest => (digitValue character).map (·, rest)

/-- Two digits at the start of a text. -/
def takeTwo (text : List Char) : Option (Nat × List Char) := do
  let (tens, text) ← takeDigit text
  let (ones, text) ← takeDigit text
  return (tens * 10 + ones, text)

/-- Four digits at the start of a text. -/
def takeFour (text : List Char) : Option (Nat × List Char) := do
  let (hundreds, text) ← takeTwo text
  let (ones, text) ← takeTwo text
  return (hundreds * 100 + ones, text)

/-- A given character at the start of a text. -/
def expect (character : Char) : List Char → Option (List Char)
  | [] => none
  | head :: rest => if head = character then some rest else none

@[simp] theorem expect_cons (character : Char) (rest : List Char) :
    expect character (character :: rest) = some rest := if_pos rfl

@[simp] theorem digitValue_digit (number : Nat) : digitValue (digit number) = some (number % 10) := by
  have small : number % 10 < 10 := Nat.mod_lt _ (by decide)
  rw [digit]
  generalize number % 10 = value at small
  interval_cases value <;> rfl

theorem takeTwo_twoDigits (number : Nat) (rest : List Char) :
    takeTwo (twoDigits number ++ rest) = some (number % 100, rest) := by
  have value : number / 10 % 10 * 10 + number % 10 = number % 100 := by omega
  simp [takeTwo, takeDigit, twoDigits, value]

/-! ## Writing -/

/-- A date, with four digits of the year. -/
def renderDate (date : Date) : List Char :=
  twoDigits (date.year.toNat / 100) ++ twoDigits date.year.toNat ++ '-' :: twoDigits date.month ++
    '-' :: twoDigits date.day

/-- A time of day. -/
def renderClock (second : Nat) : List Char :=
  twoDigits (second / 3600) ++ ':' :: twoDigits (second / 60 % 60) ++ ':' :: twoDigits (second % 60)

/-- A fraction of a second, without zeros at its end. -/
def renderFraction (nanosecond : Nat) : List Char :=
  if nanosecond = 0 then
    []
  else
    '.' :: (((List.range 9).map fun place => digit (nanosecond / 10 ^ (8 - place))).reverse.dropWhile
      (· == '0')).reverse

/-- An offset from UTC. -/
def renderOffset (offset : Int) : List Char :=
  if offset = 0 then
    ['Z']
  else
    (if offset < 0 then '-' else '+') :: twoDigits (offset.natAbs / 3600) ++
      ':' :: twoDigits (offset.natAbs / 60 % 60)

/-- The text of a moment: a year has four digits and an offset whole minutes of less than a day. -/
def Moment.render (moment : Moment) : Option String :=
  if 0 ≤ moment.date.year ∧ moment.offset % 60 = 0 ∧ moment.offset.natAbs < 86400 then
    some (String.ofList (renderDate moment.date ++ 'T' :: renderClock moment.second ++
      renderFraction moment.nanosecond ++ renderOffset moment.offset))
  else
    none

/-! ## Reading -/

/-- The nanoseconds of decimal digits after the point. -/
def fractionValue (digits : List Char) : Option Nat :=
  (List.range 9).foldlM (fun value place =>
    (digitValue (digits.getD place '0')).map (value * 10 + ·)) 0

/-- A fraction of a second at the start of a text; its digits after the ninth are dropped. -/
def takeFraction : List Char → Option (Nat × List Char)
  | '.' :: rest =>
      let digits := rest.takeWhile fun character => (digitValue character).isSome
      if digits = [] then
        none
      else
        (fractionValue digits).map (·, rest.drop digits.length)
  | rest => some (0, rest)

/-- An offset from UTC which ends a text. -/
def readOffset : List Char → Option Int
  | [] => none
  | sign :: rest =>
      if (sign = 'Z' ∨ sign = 'z') ∧ rest = [] then
        some 0
      else if sign = '+' ∨ sign = '-' then do
        let (hour, rest) ← takeTwo rest
        let rest ← expect ':' rest
        let (minute, rest) ← takeTwo rest
        if rest = [] ∧ hour < 24 ∧ minute < 60 then
          some ((if sign = '-' then -1 else 1) * (hour * 3600 + minute * 60 : Nat))
        else
          none
      else
        none

/-- A date at the start of a text. -/
def takeDate (text : List Char) : Option (Date × List Char) := do
  let (year, text) ← takeFour text
  let text ← expect '-' text
  let (month, text) ← takeTwo text
  let text ← expect '-' text
  let (day, text) ← takeTwo text
  let date ← Date.ofNumbers year month day
  return (date, text)

/-- Hours, minutes and seconds at the start of a text. -/
def takeClock (text : List Char) : Option ((Nat × Nat × Nat) × List Char) := do
  let (hour, text) ← takeTwo text
  let text ← expect ':' text
  let (minute, text) ← takeTwo text
  let text ← expect ':' text
  let (second, text) ← takeTwo text
  return ((hour, minute, second), text)

/-- The moment of a text. -/
def readMoment (text : List Char) : Option Moment := do
  let (date, text) ← takeDate text
  let text ← expect 'T' text
  let ((hour, minute, second), text) ← takeClock text
  let (nanosecond, text) ← takeFraction text
  let offset ← readOffset text
  Moment.ofClock date hour minute second nanosecond offset

/-- `Moment.render`, in reverse. -/
def Moment.parse (text : String) : Option Moment := readMoment text.toList

/-! ## Round trip -/

theorem daysInMonth_le (year : Int) (month : Nat) : daysInMonth year month ≤ 31 := by
  rw [daysInMonth.eq_def]
  split
  · split <;> omega
  all_goals omega

theorem takeFour_twoDigits {year : Nat} (small : year < 10000) (rest : List Char) :
    takeFour (twoDigits (year / 100) ++ (twoDigits year ++ rest)) = some (year, rest) := by
  have value : year / 100 % 100 * 100 + year % 100 = year := by omega
  simp [takeFour, takeTwo_twoDigits, value]

theorem takeDate_renderDate {date : Date} (positive : 0 ≤ date.year) (rest : List Char) :
    takeDate (renderDate date ++ rest) = some (date, rest) := by
  obtain ⟨⟨_, yearAtMost⟩, ⟨_, monthAtMost⟩, _, dayInMonth⟩ := date.valid
  have dayAtMost := daysInMonth_le date.year date.month
  have shortYear : date.year.toNat < 10000 := by omega
  have year : (date.year.toNat : Int) = date.year := Int.toNat_of_nonneg positive
  have month : date.month % 100 = date.month := Nat.mod_eq_of_lt (by omega)
  have day : date.day % 100 = date.day := Nat.mod_eq_of_lt (by omega)
  have valid : Date.ofNumbers date.year date.month date.day = some date :=
    Date.ofNumbers_eq_some.mpr ⟨rfl, rfl, rfl⟩
  simp only [takeDate, renderDate, List.append_assoc, List.cons_append,
    takeFour_twoDigits shortYear, Option.bind_eq_bind, Option.bind_some, expect_cons,
    takeTwo_twoDigits, year, month, day, valid, pure]

theorem takeClock_renderClock {second : Nat} (inDay : second < 86400) (rest : List Char) :
    takeClock (renderClock second ++ rest) =
      some ((second / 3600, second / 60 % 60, second % 60), rest) := by
  have hours : second / 3600 % 100 = second / 3600 := Nat.mod_eq_of_lt (by omega)
  have minutes : second / 60 % 60 % 100 = second / 60 % 60 := Nat.mod_eq_of_lt (by omega)
  have seconds : second % 60 % 100 = second % 60 := Nat.mod_eq_of_lt (by omega)
  simp only [takeClock, renderClock, List.append_assoc, List.cons_append, Option.bind_eq_bind,
    Option.bind_some, expect_cons, takeTwo_twoDigits, hours, minutes, seconds, pure]

/-- A whole second in UTC is read back from its text. -/
theorem Moment.parse_render {moment : Moment} {text : String} (utc : moment.IsUtcSecond)
    (rendered : moment.render = some text) : Moment.parse text = some moment := by
  rw [Moment.render, Option.ite_none_right_eq_some, Option.some.injEq] at rendered
  obtain ⟨⟨positive, _⟩, rfl⟩ := rendered
  have clock := moment.ofClock_of_second
  rw [utc.nanosecond, utc.offset] at clock
  have fraction : takeFraction ['Z'] = some (0, ['Z']) := rfl
  have zone : readOffset ['Z'] = some 0 := rfl
  simp only [Moment.parse, readMoment, String.toList_ofList, renderFraction, renderOffset,
    utc.nanosecond, utc.offset, if_true, List.append_assoc, List.cons_append, List.nil_append,
    takeDate_renderDate positive, takeClock_renderClock moment.valid.1, Option.bind_eq_bind,
    Option.bind_some, expect_cons, fraction, zone, clock]

/-- The text of a whole second in UTC ends with its zone. -/
theorem Moment.getLast?_render {moment : Moment} {text : String} (utc : moment.IsUtcSecond)
    (rendered : moment.render = some text) : text.toList.getLast? = some 'Z' := by
  rw [Moment.render, Option.ite_none_right_eq_some, Option.some.injEq] at rendered
  obtain ⟨_, rfl⟩ := rendered
  simp only [String.toList_ofList, renderOffset, utc.offset, if_true, List.getLast?_concat]

/-- A moment in UTC is written unless its year is negative. -/
theorem Moment.render_eq_none_iff {moment : Moment} (zone : moment.offset = 0) :
    moment.render = none ↔ moment.date.year < 0 := by
  simp [Moment.render, zone]

theorem takeDate_year {text rest : List Char} {date : Date}
    (found : takeDate text = some (date, rest)) : 0 ≤ date.year := by
  simp only [takeDate, Option.bind_eq_bind, Option.bind_eq_some_iff, pure,
    Option.some.injEq] at found
  obtain ⟨⟨year, _⟩, _, _, _, _, _, _, _, _, _, _, valid, same⟩ := found
  obtain ⟨rfl, _⟩ := Prod.mk.inj same
  rw [(Date.ofNumbers_eq_some.mp valid).1]
  exact Int.natCast_nonneg year

/-- A text has no sign before its year. -/
theorem Moment.year_of_parse {text : String} {moment : Moment}
    (parsed : Moment.parse text = some moment) : 0 ≤ moment.date.year := by
  simp only [Moment.parse, readMoment, Option.bind_eq_bind, Option.bind_eq_some_iff] at parsed
  obtain ⟨⟨date, _⟩, dated, _, _, _, _, _, _, _, _, clock⟩ := parsed
  rw [Moment.ofClock] at clock
  split at clock
  · obtain rfl := Option.some.inj clock
    exact takeDate_year dated
  · cases clock

end Calendar
