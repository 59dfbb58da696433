/-!
# Days of the Gregorian calendar

A day is counted from 1970-01-01, which is day 0; days before it are negative. The calendar
is the Gregorian one throughout, also before its introduction, and has a year 0. Dates are
kept for the years -262143 to 262142 only.

The count works on eras of 400 years, all of the same length, and on years that begin in
March, so that the leap day is the last day of a year.
-/

namespace FormulaTable.Calendar

/-- A day by its year, month and day of the month. -/
structure Date where
  year : Int
  month : Nat
  day : Nat
deriving DecidableEq

/-- Does the year have a 29 February? -/
def isLeapYear (year : Int) : Bool :=
  year % 4 == 0 && (year % 100 != 0 || year % 400 == 0)

/-- The number of days of a month. -/
def daysInMonth (year : Int) (month : Nat) : Nat :=
  if month = 2 then (if isLeapYear year then 29 else 28)
  else if month = 4 ∨ month = 6 ∨ month = 9 ∨ month = 11 then 30
  else 31

/-- The first year of the calendar. -/
def firstYear : Int := -262143

/-- The last year of the calendar. -/
def lastYear : Int := 262142

namespace Date

/-- Is this a day of the calendar? -/
def IsValid (d : Date) : Prop :=
  firstYear ≤ d.year ∧ d.year ≤ lastYear ∧ 1 ≤ d.month ∧ d.month ≤ 12 ∧ 1 ≤ d.day ∧
    d.day ≤ daysInMonth d.year d.month

instance (d : Date) : Decidable d.IsValid := by
  unfold IsValid
  infer_instance

/-- The number of days from 1 March to the first day of a month, where March is month 0. -/
def daysBeforeMonth (monthFromMarch : Nat) : Nat :=
  (153 * monthFromMarch + 2) / 5

/-- The count of the day from 1970-01-01. -/
def dayNumber (d : Date) : Int :=
  let year := if d.month ≤ 2 then d.year - 1 else d.year
  let era := year / 400
  let yearOfEra := year % 400
  let dayOfYear := daysBeforeMonth ((d.month + 9) % 12) + d.day - 1
  let dayOfEra := yearOfEra * 365 + yearOfEra / 4 - yearOfEra / 100 + dayOfYear
  era * 146097 + dayOfEra - 719468

/-- The date of a day, whatever its year. -/
def ofDayNumber (n : Int) : Date :=
  let shifted := n + 719468
  let era := shifted / 146097
  let dayOfEra := shifted % 146097
  let yearOfEra := (dayOfEra - dayOfEra / 1460 + dayOfEra / 36524 - dayOfEra / 146096) / 365
  let dayOfYear := (dayOfEra - (365 * yearOfEra + yearOfEra / 4 - yearOfEra / 100)).toNat
  let monthFromMarch := (5 * dayOfYear + 2) / 153
  let day := dayOfYear - daysBeforeMonth monthFromMarch + 1
  let month := if monthFromMarch < 10 then monthFromMarch + 3 else monthFromMarch - 9
  let year := yearOfEra + era * 400
  ⟨if month ≤ 2 then year + 1 else year, month, day⟩

/-- The date of a day, if its year belongs to the calendar. -/
def ofDayNumber? (n : Int) : Option Date :=
  let d := ofDayNumber n
  if firstYear ≤ d.year ∧ d.year ≤ lastYear then some d else none

/-- The count of a day, if it is one of the calendar. -/
def dayNumber? (d : Date) : Option Int :=
  if d.IsValid then some d.dayNumber else none

end Date

/-- The number of microseconds of a day. -/
def microsPerDay : Int := 86400000000

end FormulaTable.Calendar
