import FormulaTable.Calendar.Date

/-!
# Written forms of days and instants

A day is written `2024-02-29`; years outside 0 to 9999 carry a sign and at least four
digits. An instant is a count of microseconds from 1970-01-01 00:00:00 and is written as its
day and its time of day, with a fraction when it does not fall on a full second.
-/

namespace FormulaTable.Calendar

/-- A number in decimal with zeros in front, up to the given width. -/
def padded (width n : Nat) : List Char :=
  let digits := Nat.toDigits 10 n
  List.replicate (width - digits.length) '0' ++ digits

/-- A year: four digits, and a sign for the years that these do not reach. -/
def writeYear (year : Int) : List Char :=
  if year < 0 then '-' :: padded 4 year.natAbs
  else if year ≤ 9999 then padded 4 year.natAbs
  else '+' :: padded 4 year.natAbs

/-- Year, month and day with hyphens. -/
def Date.write (d : Date) : List Char :=
  writeYear d.year ++ '-' :: padded 2 d.month ++ '-' :: padded 2 d.day

/-- The time of day, in nanoseconds from midnight. -/
structure TimeOfDay where
  nanos : Nat

namespace TimeOfDay

/-- Hours, minutes and seconds with colons. -/
def writeClock (t : TimeOfDay) : List Char :=
  let seconds := t.nanos / 1000000000
  padded 2 (seconds / 3600) ++ ':' :: padded 2 (seconds / 60 % 60) ++ ':' ::
    padded 2 (seconds % 60)

/-- The fraction of a second: nothing, or the least of three, six and nine digits that shows
it all. -/
def writeFraction (t : TimeOfDay) : List Char :=
  let fraction := t.nanos % 1000000000
  if fraction = 0 then []
  else if fraction % 1000000 = 0 then '.' :: padded 3 (fraction / 1000000)
  else if fraction % 1000 = 0 then '.' :: padded 6 (fraction / 1000)
  else '.' :: padded 9 fraction

/-- The time with its fraction. -/
def write (t : TimeOfDay) : List Char :=
  t.writeClock ++ t.writeFraction

end TimeOfDay

/-- The number of nanoseconds of a day. -/
def nanosPerDay : Int := 1000 * microsPerDay

/-- The day on which an instant falls. -/
def dayOfInstant (micros : Int) : Int := micros / microsPerDay

/-- The text of a day; a day outside the calendar is written as its number. -/
def dateText (days : Int) : String :=
  match Date.ofDayNumber? days with
  | some d => String.ofList d.write
  | none => toString days

/-- The text of an instant in nanoseconds, with `between` between day and time, if its day
belongs to the calendar. -/
def instantText? (between : Char) (nanos : Int) : Option (List Char) :=
  (Date.ofDayNumber? (nanos / nanosPerDay)).map fun d =>
    d.write ++ between :: (TimeOfDay.mk (nanos % nanosPerDay).toNat).write

/-- The text of an instant in microseconds; one outside the calendar is written as its
count. -/
def timestampText (micros : Int) : String :=
  match instantText? ' ' (1000 * micros) with
  | some cs => String.ofList cs
  | none => toString micros

end FormulaTable.Calendar
