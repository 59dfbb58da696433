import FormulaTable.Calendar.Date
import FormulaTable.Decimal.Reader
import FormulaTable.Text.Blank

/-!
# Reading days and instants

Two ways of writing an instant are read. The strict one is that of interchange formats:
every field has its full width, and the offset from UTC follows
(`2024-02-29T12:34:56.5+02:00`). The free one has no offset: fields may be short and have
blanks before them, the year may carry a sign, and a blank, several or none may stand
between day and time.

A reading step takes what it reads off the front of a list and returns the rest.
-/

namespace FormulaTable.Calendar

/-- Reads between `least` and `most` decimal digits. -/
def takeNumber? (least most : Nat) (cs : List Char) : Option (Nat × List Char) :=
  let digits := (cs.take most).takeWhile Char.isDigit
  if digits.length < least then none
  else some (Decimal.digitsValue digits, cs.drop digits.length)

/-- Reads the given character. -/
def takeChar? (c : Char) : List Char → Option (List Char)
  | d :: rest => if d = c then some rest else none
  | [] => none

/-- The list without the blanks at its front. -/
def skipBlanks (cs : List Char) : List Char := cs.dropWhile Text.isBlank

/-- Reads a fraction of a second after its point, as microseconds. Digits beyond the sixth
are dropped. -/
def takeFraction? (cs : List Char) : Option (Nat × List Char) :=
  let digits := cs.takeWhile Char.isDigit
  if digits.isEmpty then none
  else
    let kept := digits.take 6
    some (Decimal.digitsValue kept * Nat.pow 10 (6 - kept.length), cs.drop digits.length)

/-- Reads a fraction of a second if there is a point. -/
def takeOptionalFraction? : List Char → Option (Nat × List Char)
  | '.' :: rest => takeFraction? rest
  | cs => some (0, cs)

/-- A moment of a day by the clock. A minute may have a second 60. -/
structure Clock where
  hour : Nat
  minute : Nat
  second : Nat
  /-- The fraction of the second. -/
  micros : Nat

/-- Is this a time that a clock shows? -/
def Clock.isValid (t : Clock) : Bool :=
  t.hour ≤ 23 && t.minute ≤ 59 && t.second ≤ 60

/-- The microseconds from midnight. -/
def Clock.sinceMidnight (t : Clock) : Int :=
  ((t.hour * 3600 + t.minute * 60 + t.second) * 1000000 + t.micros : Nat)

/-- The instant of a day and a time, when both exist. -/
def instant? (d : Date) (t : Clock) : Option Int :=
  if t.isValid then d.dayNumber?.map fun n => n * microsPerDay + t.sinceMidnight else none

/-! ### The strict form -/

/-- Reads an offset from UTC in seconds: `Z`, or a sign, hours and minutes. -/
def takeOffset? : List Char → Option (Int × List Char)
  | [] => none
  | c :: rest =>
    if c = 'Z' || c = 'z' then some (0, rest)
    else do
      let negative ←
        if c = '+' then some false else if c = '-' || c = '−' then some true else none
      let (hours, rest) ← takeNumber? 2 2 rest
      let rest ← takeChar? ':' rest
      let (minutes, rest) ← takeNumber? 2 2 rest
      if 23 < hours ∨ 59 < minutes then none
      else
        let seconds : Int := ((hours * 60 + minutes) * 60 : Nat)
        some (if negative then -seconds else seconds, rest)

/-- Reads an instant in the strict form. -/
def readStrict? (cs : List Char) : Option Int := do
  let (year, cs) ← takeNumber? 4 4 cs
  let cs ← takeChar? '-' cs
  let (month, cs) ← takeNumber? 2 2 cs
  let cs ← takeChar? '-' cs
  let (day, cs) ← takeNumber? 2 2 cs
  let cs ←
    match cs with
    | c :: rest => if c = 'T' || c = 't' || c = ' ' then some rest else none
    | [] => none
  let (hour, cs) ← takeNumber? 2 2 cs
  let cs ← takeChar? ':' cs
  let (minute, cs) ← takeNumber? 2 2 cs
  let cs ← takeChar? ':' cs
  let (second, cs) ← takeNumber? 2 2 cs
  let (micros, cs) ← takeOptionalFraction? cs
  let (offset, cs) ← takeOffset? cs
  if cs.isEmpty then
    (instant? ⟨year, month, day⟩ ⟨hour, minute, second, micros⟩).map (· - offset * 1000000)
  else none

/-! ### The free form -/

/-- Reads a year: at most four digits, or a sign and any number of digits. -/
def takeYear? (cs : List Char) : Option (Int × List Char) :=
  match skipBlanks cs with
  | '-' :: rest => (takeNumber? 1 rest.length rest).map fun (n, rest) => (-(n : Int), rest)
  | '+' :: rest => (takeNumber? 1 rest.length rest).map fun (n, rest) => ((n : Int), rest)
  | cs => (takeNumber? 1 4 cs).map fun (n, rest) => ((n : Int), rest)

/-- Reads a field of one or two digits, with blanks before it. -/
def takeField? (cs : List Char) : Option (Nat × List Char) :=
  takeNumber? 1 2 (skipBlanks cs)

/-- Reads a day in the free form. -/
def takeDate? (cs : List Char) : Option (Date × List Char) := do
  let (year, cs) ← takeYear? cs
  let cs ← takeChar? '-' cs
  let (month, cs) ← takeField? cs
  let cs ← takeChar? '-' cs
  let (day, cs) ← takeField? cs
  some (⟨year, month, day⟩, cs)

/-- Reads a time in the free form. -/
def takeClock? (cs : List Char) : Option (Clock × List Char) := do
  let (hour, cs) ← takeField? cs
  let cs ← takeChar? ':' cs
  let (minute, cs) ← takeField? cs
  let cs ← takeChar? ':' cs
  let (second, cs) ← takeField? cs
  let (micros, cs) ← takeOptionalFraction? cs
  some (⟨hour, minute, second, micros⟩, cs)

/-- Reads an instant in the free form; `separate` reads what stands between day and time. -/
def readFree? (separate : List Char → Option (List Char)) (cs : List Char) : Option Int :=
  do
  let (date, cs) ← takeDate? cs
  let cs ← separate cs
  let (clock, cs) ← takeClock? cs
  if cs.isEmpty then instant? date clock else none

/-- Reads a whole list as a day. -/
def readDate? (cs : List Char) : Option Int := do
  let (date, cs) ← takeDate? cs
  if cs.isEmpty then date.dayNumber? else none

/-! ### Texts -/

/-- The day that a text writes, blanks at its ends aside. -/
def parseDate? (s : String) : Option Int :=
  readDate? (Text.trimChars s.toList)

/-- The instant that a text writes, blanks at its ends aside: in the strict form, in the
free form with blanks or a `T` between day and time, or as a day alone, which stands for its
midnight. -/
def parseTimestamp? (s : String) : Option Int :=
  let cs := Text.trimChars s.toList
  readStrict? cs <|> readFree? (some ∘ skipBlanks) cs <|> readFree? (takeChar? 'T') cs <|>
    (readDate? cs).map (· * microsPerDay)

end FormulaTable.Calendar
