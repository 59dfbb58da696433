import FormulaTable.Binary.Round
import FormulaTable.Calendar.Reader
import FormulaTable.Value.Error

/-!
# Conversion between kinds

`convert v target` turns a value into one of the target kind, or fails. Null converts to
null, and a value of the target kind to itself. Doubles become integers by dropping the
fraction, texts are read with the blanks at their ends dropped, and days and instants stand
for their counts.
-/

namespace FormulaTable

namespace Value

/-- The integer part of a double, if it fits. -/
def truncate? (x : Float) : Option Int64 :=
  (Binary.toInt? x).bind int64?

/-- Reads an integer that fits 64 bits. -/
def readInt64? (cs : List Char) : Option Int64 :=
  (Decimal.readInt? cs).bind int64?

/-- The words for the two truth values, in any case. -/
def readBool? (s : String) : Option Bool :=
  let word := Text.foldName (Text.trim s)
  if ["true", "t", "yes", "y", "1"].contains word then some true
  else if ["false", "f", "no", "n", "0"].contains word then some false
  else none

/-- The day on which an instant falls, if it is a 32-bit number. -/
def instantToDate? (micros : Int) : Option Int32 :=
  int32? (Calendar.dayOfInstant micros)

/-- The midnight of a day, if its count of microseconds fits. -/
def dateToInstant (day : Int32) : Int64 :=
  Int64.ofInt (day.toInt * Calendar.microsPerDay)

/-- The day that a text writes, or the day of the instant that it writes. -/
def readDate? (s : String) : Option Int32 :=
  (Calendar.parseDate? s).bind int32? <|> (Calendar.parseTimestamp? s).bind instantToDate?

/-- The instant that a text writes. -/
def readTimestamp? (s : String) : Option Int64 :=
  (Calendar.parseTimestamp? s).bind int64?

/-- The value of kind `int64` that a value converts to. -/
def toInt64? : Value → Option Value
  | float x => (truncate? x).map int
  | bool b => some (int (if b then 1 else 0))
  | text s => (readInt64? (Text.trimChars s.toList)).map int
  | date d => some (int d.toInt64)
  | timestamp t => some (int t)
  | _ => none

/-- The value of kind `float64` that a value converts to. -/
def toFloat64? : Value → Option Value
  | int n => some (float (Float.ofInt n.toInt))
  | bool b => some (float (if b then 1.0 else 0.0))
  | text s => (Decimal.readFloat? (Text.trimChars s.toList)).map float
  | date d => some (float (Float.ofInt d.toInt))
  | timestamp t => some (float (Float.ofInt t.toInt))
  | _ => none

/-- The value of kind `bool` that a value converts to. -/
def toBool? : Value → Option Value
  | int n => some (bool (n != 0))
  | float x => some (bool (x != 0.0))
  | text s => (readBool? s).map bool
  | _ => none

/-- The value of kind `date` that a value converts to. -/
def toDate? : Value → Option Value
  | timestamp t => (instantToDate? t.toInt).map date
  | int n => (int32? n.toInt).map date
  | text s => (readDate? s).map date
  | _ => none

/-- The value of kind `timestamp` that a value converts to. -/
def toTimestamp? : Value → Option Value
  | date d => some (timestamp (dateToInstant d))
  | int n => some (timestamp n)
  | text s => (readTimestamp? s).map timestamp
  | _ => none

/-- The conversion between different kinds, where there is one. -/
def convert? (target : Kind) (v : Value) : Option Value :=
  match target with
  | .int64 => v.toInt64?
  | .float64 => v.toFloat64?
  | .string => some (text v.toText)
  | .bool => v.toBool?
  | .date => v.toDate?
  | .timestamp => v.toTimestamp?

/-- The value converted to the target kind. -/
def convert (v : Value) (target : Kind) : Except RowError Value :=
  if v.isNull ∨ v.kind? = some target then .ok v
  else
    match convert? target v with
    | some w => .ok w
    | none => .error (.conversion v target)

end Value

end FormulaTable
