import FormulaTable.Binary.Format
import FormulaTable.Decimal.Layout
import FormulaTable.Series.Basic

/-!
# What an element denotes

Types that differ only in width or layout hold elements of the same sort.
`ElementType.element` forgets the width: conversions and numeric functions are defined on
`Element`, once for all types.
-/

namespace FormulaTable

/-- An element that is present, by what it denotes. -/
inductive Element where
  | integer (n : Int)
  | half (bits : UInt16)
  | single (bits : UInt32)
  | double (x : Float)
  | truth (b : Bool)
  | text (s : String)
  | bytes (content : ByteArray)
  /-- A day, counted from 1970-01-01. -/
  | day (n : Int32)
  /-- A day, as milliseconds from 1970-01-01 00:00:00. -/
  | dayMillis (n : Int64)
  /-- A time of day, in seconds. -/
  | clock (seconds : Int32)
  | duration (seconds : Int64)
  | instant (unit : TimeUnit) (zone : Option String) (count : Int64)

/-- What an element of a type denotes. -/
def ElementType.element : (t : ElementType) → t.Carrier → Element
  | int8, n => .integer n.toInt
  | int16, n => .integer n.toInt
  | int32, n => .integer n.toInt
  | int64, n => .integer n.toInt
  | uint8, n => .integer n.toNat
  | uint16, n => .integer n.toNat
  | uint32, n => .integer n.toNat
  | uint64, n => .integer n.toNat
  | float16, bits => .half bits
  | float32, bits => .single bits
  | float64, x => .double x
  | bool, b => .truth b
  | utf8, s => .text s
  | largeUtf8, s => .text s
  | utf8View, s => .text s
  | binary, content => .bytes content
  | date32, n => .day n
  | date64, n => .dayMillis n
  | time32, n => .clock n
  | duration, n => .duration n
  | timestamp unit zone, n => .instant unit zone n
  | null, x => nomatch x

namespace Element

/-- The floating-point number that an element is. -/
def number? : Element → Option Binary.Number
  | half bits => some (Binary.half.decode bits.toNat)
  | single bits => some (Binary.single.decode bits.toNat)
  | double x => some (Binary.parts x)
  | _ => none

/-- A number as a double: integers are rounded to the nearest one. -/
def toFloat? : Element → Option Float
  | integer n => some (Float.ofInt n)
  | half bits => some (Binary.ofHalf bits)
  | single bits => some (Binary.ofSingle bits)
  | double x => some x
  | _ => none

/-- The text of a number: integers in decimal, halves in plain notation, singles and doubles
in the compact one. -/
def numberText : Element → String
  | integer n => toString n
  | half bits =>
    Decimal.plain.write Binary.single ((Binary.half.decode bits.toNat).widen Binary.single)
  | single bits => Decimal.compactSingle.write Binary.single
    (Binary.single.decode bits.toNat)
  | double x => Decimal.compactText x
  | _ => ""

end Element

/-- The elements of a column, with `none` where one is missing. -/
def Series.elements (s : Series) : List (Option Element) :=
  s.cells.toList.map fun cell => cell.map s.type.element

end FormulaTable
