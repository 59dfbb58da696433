import FormulaTable.Calendar.Reader

/-!
# Fixed-width days and instants

Strict conversions of columns read days and instants at fixed places of the text: a day as
`2024-02-29`, with one digit for month or day allowed, or as `20240229`; an instant as a day
of full width, a `T` or a blank, a time `12:34:56`, with a fraction, or `123456`, and at the
end nothing, `Z` or an offset from UTC. Places are counted in bytes.
-/

namespace FormulaTable.Calendar

/-- The decimal digit that a byte writes. -/
def digitOf? (b : UInt8) : Option Nat :=
  if 48 ≤ b.toNat ∧ b.toNat ≤ 57 then some (b.toNat - 48) else none

/-- Do the bytes have the shape? In a shape `9` stands for a digit, a blank for anything
else, also the end of the text, and every other character for itself. What follows the shape
does not matter. -/
def hasShape : List Char → List UInt8 → Bool
  | [], _ => true
  | '9' :: shape, b :: bytes => (digitOf? b).isSome && hasShape shape bytes
  | ' ' :: shape, [] => hasShape shape []
  | ' ' :: shape, b :: bytes => (digitOf? b).isNone && hasShape shape bytes
  | c :: shape, b :: bytes => b.toNat = c.toNat && hasShape shape bytes
  | _ :: _, [] => false

/-- The number that the digits at `count` places from `start` on write. -/
def numberAt (bytes : List UInt8) (start count : Nat) : Nat :=
  ((bytes.drop start).take count).foldl (fun n b => 10 * n + (b.toNat - 48)) 0

/-- The shapes of a day, with the places and widths of month and day. -/
def dayShapes : List (List Char × (Nat × Nat) × (Nat × Nat)) :=
  [("9999-99-99".toList, (5, 2), (8, 2)), ("9999-99-9 ".toList, (5, 2), (8, 1)),
   ("9999-9-99 ".toList, (5, 1), (7, 2)), ("9999-9-9  ".toList, (5, 1), (7, 1))]

/-- The day in the given places. -/
def dayAt (bytes : List UInt8) (month day : Nat × Nat) : Date :=
  ⟨numberAt bytes 0 4, numberAt bytes month.1 month.2, numberAt bytes day.1 day.2⟩

/-- Reads a day of at most ten bytes. -/
def readShortDay? (bytes : List UInt8) : Option Int :=
  if bytes.length = 8 && hasShape "99999999".toList bytes then
    (dayAt bytes (4, 2) (6, 2)).dayNumber?
  else
    (dayShapes.find? fun s => hasShape s.1 bytes).bind fun (_, month, day) =>
      (dayAt bytes month day).dayNumber?

/-- Why a text is no instant. -/
inductive InstantFault where
  | tooShort
  | day
  | separator
  | time
  /-- The offset from UTC is not understood. -/
  | zone (written : String)

/-- An instant in UTC: full seconds, and the microseconds beyond them. A leap second counts
as the second before it with a million microseconds more. -/
structure Moment where
  seconds : Int
  micros : Nat

/-- Reads an offset from UTC in seconds: `+HH:MM`, `+HHMM` or `+HH`, or with a minus. -/
def readOffset? (bytes : List UInt8) : Option Int :=
  let digits :=
    if bytes.length = 6 && hasShape " 99:99".toList bytes then bytes.eraseIdx 3
    else if bytes.length = 5 && hasShape " 9999".toList bytes then bytes
    else if bytes.length = 3 && hasShape " 99".toList bytes then bytes ++ [48, 48]
    else []
  let seconds : Int := (numberAt digits 1 2 * 3600 + numberAt digits 3 2 * 60 : Nat)
  if 86400 ≤ seconds then none
  else
    match digits.head? with
    | some 43 => some seconds
    | some 45 => some (-seconds)
    | _ => none

/-- The first six digits of a fraction, as microseconds. -/
def fractionMicros (digits : List UInt8) : Nat :=
  let kept := digits.take 6
  numberAt kept 0 6 * Nat.pow 10 (6 - kept.length)

/-- The seconds from midnight and the microseconds beyond them of a time of day, if a clock
shows it. -/
def clockAt? (hour minute second micros : Nat) : Option (Nat × Nat) :=
  if 23 < hour ∨ 59 < minute ∨ 60 < second then none
  else if second = 60 then some (hour * 3600 + minute * 60 + 59, 1000000 + micros)
  else some (hour * 3600 + minute * 60 + second, micros)

/-- Reads the time from the eleventh byte on; the last number is the place where it ends. -/
def readTime? (bytes : List UInt8) : Option ((Nat × Nat) × Nat) :=
  let tail := bytes.drop 11
  if hasShape "99:99:99".toList tail then
    let hour := numberAt tail 0 2
    let minute := numberAt tail 3 2
    let second := numberAt tail 6 2
    if tail[8]? = some 46 then
      let digits := (tail.drop 9).takeWhile fun b => (digitOf? b).isSome
      if digits.isEmpty then none
      else (clockAt? hour minute second (fractionMicros digits)).map (·, 20 + digits.length)
    else (clockAt? hour minute second 0).map (·, 19)
  else if hasShape "999999  ".toList tail then
    (clockAt? (numberAt tail 0 2) (numberAt tail 2 2) (numberAt tail 4 2) 0).map (·, 17)
  else none

/-- Is this one of the bytes that may stand between day and time? -/
def isDayEnd (b : UInt8) : Bool := b = 84 || b = 116 || b = 32

/-- Reads the offset at the end of an instant. -/
def readZone (bytes : List UInt8) : Except InstantFault Int :=
  if bytes = [] ∨ bytes = [90] ∨ bytes = [122] then .ok 0
  else
    let written :=
      String.ofList (skipBlanks ((String.fromUTF8? ⟨bytes.toArray⟩).getD "").toList)
    match readOffset? written.toUTF8.toList with
    | some offset => .ok offset
    | none => .error (.zone written)

/-- Reads an instant at fixed places. -/
def readMoment (bytes : List UInt8) : Except InstantFault Moment :=
  if bytes.length < 10 then .error .tooShort
  else
    let day := if hasShape "9999-99-99".toList bytes then
      (dayAt bytes (5, 2) (8, 2)).dayNumber? else none
    match day, bytes[10]? with
    | none, _ => .error .day
    | some n, none => .ok ⟨n * 86400, 0⟩
    | some n, some b =>
      if !isDayEnd b then .error .separator
      else
        match readTime? bytes with
        | none => .error .time
        | some ((seconds, micros), stop) => do
          let offset ← readZone (bytes.drop stop)
          return ⟨n * 86400 + seconds - offset, micros⟩

/-- The instant in microseconds. -/
def Moment.toMicros (m : Moment) : Int := m.seconds * 1000000 + m.micros

/-- The day of the moment in UTC. -/
def Moment.day (m : Moment) : Int := m.seconds / 86400

/-- Reads a day at fixed places; a text of more than ten bytes is read as an instant. -/
def readFixedDay? (s : String) : Option Int :=
  let bytes := s.toUTF8.toList
  if bytes.length ≤ 10 then readShortDay? bytes
  else (readMoment bytes).toOption.map Moment.day

/-- Reads an instant at fixed places, in microseconds. -/
def readFixedInstant (s : String) : Except InstantFault Int :=
  (readMoment s.toUTF8.toList).map Moment.toMicros

end FormulaTable.Calendar
