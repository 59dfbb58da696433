import FormulaTable.Text.Quoted
import FormulaTable.Value.Kind

/-!
# Element types of stored columns

A stored column has one of these physical types. Several of them carry the same kind of
value at different widths or resolutions; `ElementType.kind?` says which kind, and
`Kind.elementType` is the one physical type that computed columns of a kind are stored in.
-/

namespace FormulaTable

/-- Resolutions of instants. -/
inductive TimeUnit where
  | second
  | millisecond
  | microsecond
  | nanosecond
deriving DecidableEq

namespace TimeUnit

/-- The name of a resolution. -/
def name : TimeUnit → String
  | second => "Second"
  | millisecond => "Millisecond"
  | microsecond => "Microsecond"
  | nanosecond => "Nanosecond"

/-- How many units make a second. -/
def perSecond : TimeUnit → Int
  | second => 1
  | millisecond => 1000
  | microsecond => 1000000
  | nanosecond => 1000000000

end TimeUnit

/-- Physical types of column elements. -/
inductive ElementType where
  /-- No element has a value. -/
  | null
  | int8
  | int16
  | int32
  | int64
  | uint8
  | uint16
  | uint32
  | uint64
  | float16
  | float32
  | float64
  | bool
  | utf8
  /-- Texts with wide offsets. -/
  | largeUtf8
  /-- Texts by reference. -/
  | utf8View
  | binary
  /-- Days. -/
  | date32
  /-- Milliseconds from 1970-01-01 00:00:00. -/
  | date64
  /-- Seconds from midnight. -/
  | time32
  /-- Numbers of seconds. -/
  | duration
  /-- Instants, perhaps shown in a time zone. -/
  | timestamp (unit : TimeUnit) (zone : Option String)
deriving DecidableEq

namespace ElementType

/-- What an element that is present holds. Halves and singles are held by their bits. -/
def Carrier : ElementType → Type
  | null => Empty
  | int8 => Int8
  | int16 => Int16
  | int32 => Int32
  | int64 => Int64
  | uint8 => UInt8
  | uint16 => UInt16
  | uint32 => UInt32
  | uint64 => UInt64
  | float16 => UInt16
  | float32 => UInt32
  | float64 => Float
  | bool => Bool
  | utf8 => String
  | largeUtf8 => String
  | utf8View => String
  | binary => ByteArray
  | date32 => Int32
  | date64 => Int64
  | time32 => Int32
  | duration => Int64
  | timestamp _ _ => Int64

/-- The name of a type in messages. -/
def name : ElementType → String
  | null => "Null"
  | int8 => "Int8"
  | int16 => "Int16"
  | int32 => "Int32"
  | int64 => "Int64"
  | uint8 => "UInt8"
  | uint16 => "UInt16"
  | uint32 => "UInt32"
  | uint64 => "UInt64"
  | float16 => "Float16"
  | float32 => "Float32"
  | float64 => "Float64"
  | bool => "Boolean"
  | utf8 => "Utf8"
  | largeUtf8 => "LargeUtf8"
  | utf8View => "Utf8View"
  | binary => "Binary"
  | date32 => "Date32"
  | date64 => "Date64"
  | time32 => "Time32(Second)"
  | duration => "Duration(Second)"
  | timestamp unit zone =>
    let shown := match zone with
      | some z => "Some(" ++ Text.quoted z ++ ")"
      | none => "None"
    "Timestamp(" ++ unit.name ++ ", " ++ shown ++ ")"

/-- Whole numbers, signed or not. -/
def isInteger : ElementType → Bool
  | int8 | int16 | int32 | int64 | uint8 | uint16 | uint32 | uint64 => true
  | _ => false

/-- Floating-point numbers. -/
def isFloating : ElementType → Bool
  | float16 | float32 | float64 => true
  | _ => false

/-- Numbers of either sort. -/
def isNumeric (t : ElementType) : Bool := t.isInteger || t.isFloating

/-- Texts, however they are laid out. -/
def isText : ElementType → Bool
  | utf8 | largeUtf8 | utf8View => true
  | _ => false

/-- Is this a type of instants? -/
def isTimestamp : ElementType → Bool
  | timestamp _ _ => true
  | _ => false

/-- The kind of the values that a column of this type holds; some types hold none. -/
def kind? : ElementType → Option Kind
  | int8 | int16 | int32 | int64 | uint8 | uint16 | uint32 | uint64 => some .int64
  | float16 | float32 | float64 => some .float64
  | bool => some .bool
  | utf8 | largeUtf8 => some .string
  | date32 | date64 => some .date
  | timestamp _ _ => some .timestamp
  | null | utf8View | binary | time32 | duration => none

/-- Can a formula read a column of this type? -/
def isReadable (t : ElementType) : Bool := t = .null || t.kind?.isSome

/-- A type for a kind of values can be read by formulas. -/
theorem isReadable_of_kind? {t : ElementType} {k : Kind} (h : t.kind? = some k) :
    t.isReadable = true := by
  rw [isReadable, h, Option.isSome_some, Bool.or_true]

end ElementType

/-- The type that computed columns of a kind are stored in. -/
def Kind.elementType : Kind → ElementType
  | .int64 => .int64
  | .float64 => .float64
  | .bool => .bool
  | .string => .utf8
  | .date => .date32
  | .timestamp => .timestamp .microsecond none

/-- A computed column of a kind holds values of that kind. -/
theorem ElementType.kind?_elementType (k : Kind) : k.elementType.kind? = some k := by
  cases k <;> rfl

end FormulaTable
