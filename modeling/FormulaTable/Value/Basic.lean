import FormulaTable.Value.Kind
import FormulaTable.Integer
import FormulaTable.Calendar.Printer
import FormulaTable.Decimal.Layout

/-!
# Cell values

A value is null or belongs to one of the six kinds. This module gives the text that a value
is shown as, the equality and the order that formulas use, and the bytes that identify a
value to a hash table.

Equality and order follow the numbers: an integer and a double compare as doubles, and a NaN
equals nothing, not even itself. Values of different kinds, integers and doubles aside, have
no order.
-/

namespace FormulaTable

/-- The content of one cell. -/
inductive Value where
  | null
  | int (n : Int64)
  | float (x : Float)
  | bool (b : Bool)
  | text (s : String)
  /-- A day, counted from 1970-01-01. -/
  | date (day : Int32)
  /-- An instant, in microseconds from 1970-01-01 00:00:00. -/
  | timestamp (micros : Int64)
deriving DecidableEq

namespace Value

/-- The kind of a value; null has none. -/
def kind? : Value → Option Kind
  | null => none
  | int _ => some .int64
  | float _ => some .float64
  | bool _ => some .bool
  | text _ => some .string
  | date _ => some .date
  | timestamp _ => some .timestamp

/-- Is this the null value? -/
def isNull : Value → Bool
  | null => true
  | _ => false

/-- The name of the value's kind in messages. -/
def kindName (v : Value) : String := Kind.nameOrNull v.kind?

/-- The integer, if the value is one. -/
def int? : Value → Option Int64
  | int n => some n
  | _ => none

/-- The double, if the value is one. -/
def float? : Value → Option Float
  | float x => some x
  | _ => none

/-- The truth value, if the value is one. -/
def bool? : Value → Option Bool
  | bool b => some b
  | _ => none

/-- The text, if the value is one. -/
def text? : Value → Option String
  | text s => some s
  | _ => none

/-- The value as a double, if it is a number. -/
def number? : Value → Option Float
  | int n => some (Float.ofInt n.toInt)
  | float x => some x
  | _ => none

/-- The text that a value is shown as; null is shown as nothing. -/
def toText : Value → String
  | null => ""
  | int n => toString n.toInt
  | float x => Decimal.plainText x
  | bool b => if b then "true" else "false"
  | text s => s
  | date day => Calendar.dateText day.toInt
  | timestamp micros => Calendar.timestampText micros.toInt

/-- Equality of content, where doubles are compared as numbers. -/
def equals : Value → Value → Bool
  | null, null => true
  | int a, int b => a == b
  | float a, float b => a == b
  | bool a, bool b => a == b
  | text a, text b => a == b
  | date a, date b => a == b
  | timestamp a, timestamp b => a == b
  | _, _ => false

instance : BEq Value := ⟨equals⟩

/-- The order of two doubles; a NaN has none. -/
def compareFloats? (a b : Float) : Option Ordering :=
  if a < b then some .lt else if b < a then some .gt else if a == b then some .eq else none

/-- The order of two values. Null has no order, nor have values of different kinds, except
that integers and doubles are compared as doubles. -/
def compare? : Value → Value → Option Ordering
  | int a, int b => some (compare a.toInt b.toInt)
  | timestamp a, timestamp b => some (compare a.toInt b.toInt)
  | float a, float b => compareFloats? a b
  | int a, float b => compareFloats? (Float.ofInt a.toInt) b
  | float a, int b => compareFloats? a (Float.ofInt b.toInt)
  | bool a, bool b => some (compare a b)
  | text a, text b => some (compare a b)
  | date a, date b => some (compare a.toInt b.toInt)
  | _, _ => none

/-- The bytes of a word, lowest first. -/
def wordBytes (width n : Nat) : List UInt8 :=
  (List.range width).map fun i => UInt8.ofNat (n / Nat.pow 256 i)

/-- The bytes that identify a value to a hash table: its kind and its content, a double by
its bits. One byte, the number of its case, stands for the discriminant of a value, whose
width and bytes are the standard library's own. They are the same for values of one kind,
and differ for others. -/
def hashBytes : Value → List UInt8
  | int n => 0 :: wordBytes 8 n.toUInt64.toNat
  | float x => 1 :: wordBytes 8 x.toBits.toNat
  | bool b => [2, if b then 1 else 0]
  | text s => 3 :: s.toUTF8.toList ++ [0xff]
  | date day => 4 :: wordBytes 4 day.toUInt32.toNat
  | timestamp micros => 5 :: wordBytes 8 micros.toUInt64.toNat
  | null => [6]

end Value

end FormulaTable
