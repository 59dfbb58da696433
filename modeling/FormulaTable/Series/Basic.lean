import FormulaTable.Binary.Round
import FormulaTable.Series.ElementType
import FormulaTable.Value.Basic

/-!
# Typed columns of data

A `Series` is a column of elements of one type, any of which may be missing. Reading an
element gives a cell value of the kind of the column; an element is refused where the kind
cannot hold it.

* `value?_ofCells` — a column built for a kind reads back the values it was built from.
-/

namespace FormulaTable

/-- A column of elements of one type; a missing element is `none`. -/
structure Series where
  type : ElementType
  cells : Array (Option type.Carrier)

namespace ElementType

/-- The 64-bit number of microseconds nearest to a count of coarser units. -/
def saturate64 (n : Int) : Int64 :=
  if n < -0x8000000000000000 then Int64.minValue
  else if 0x8000000000000000 ≤ n then Int64.maxValue
  else Int64.ofInt n

/-- The number of microseconds of an instant. Coarser units stop at the ends of the range,
and nanoseconds are cut toward zero. -/
def toMicros (unit : TimeUnit) (n : Int64) : Int64 :=
  match unit with
  | .second => saturate64 (n.toInt * 1000000)
  | .millisecond => saturate64 (n.toInt * 1000)
  | .microsecond => n
  | .nanosecond => Int64.ofInt (n.toInt.tdiv 1000)

/-- The number of milliseconds of a day. -/
def millisPerDay : Int := 86400000

/-- The value of an element that is present, if the kind of its type can hold it. -/
def read? : (t : ElementType) → t.Carrier → Option Value
  | int8, n => some (.int (Int64.ofInt n.toInt))
  | int16, n => some (.int (Int64.ofInt n.toInt))
  | int32, n => some (.int (Int64.ofInt n.toInt))
  | int64, n => some (.int n)
  | uint8, n => some (.int (Int64.ofInt n.toNat))
  | uint16, n => some (.int (Int64.ofInt n.toNat))
  | uint32, n => some (.int (Int64.ofInt n.toNat))
  | uint64, n => (int64? n.toNat).map .int
  | float16, bits => some (.float (Binary.ofHalf bits))
  | float32, bits => some (.float (Binary.ofSingle bits))
  | float64, x => some (.float x)
  | bool, b => some (.bool b)
  | utf8, s => some (.text s)
  | largeUtf8, s => some (.text s)
  | date32, day => some (.date day)
  | date64, millis => (int32? (millis.toInt / millisPerDay)).map .date
  | timestamp unit _, n => some (.timestamp (toMicros unit n))
  | null, _ => none
  | utf8View, _ => none
  | binary, _ => none
  | time32, _ => none
  | duration, _ => none

end ElementType

/-- The element that stores a value of the given kind; null is stored as a missing element.
Values of another kind have none. -/
def Kind.store? : (k : Kind) → Value → Option (Option k.elementType.Carrier)
  | _, .null => some none
  | .int64, .int n => some (some n)
  | .float64, .float x => some (some x)
  | .bool, .bool b => some (some b)
  | .string, .text s => some (some s)
  | .date, .date day => some (some day)
  | .timestamp, .timestamp micros => some (some micros)
  | _, _ => none

namespace Series

/-- The number of elements. -/
def size (s : Series) : Nat := s.cells.size

/-- The number of elements that are present. A column of type `null` keeps no record of what
is missing, so that all its elements count. -/
def present (s : Series) : Nat :=
  if s.type = .null then s.size else s.cells.countP Option.isSome

/-- The value of an element: null where it is missing, and `none` where it cannot be
read. -/
def value? (s : Series) (row : Nat) : Option Value :=
  if s.type.isReadable then
    match s.cells[row]? with
    | some (some x) => s.type.read? x
    | _ => some .null
  else none

/-- The column that stores elements of a kind. -/
def ofCells (k : Kind) (cells : Array (Option k.elementType.Carrier)) : Series :=
  ⟨k.elementType, cells⟩

/-- A column with one element. -/
def singleton (k : Kind) (cell : Option k.elementType.Carrier) : Series :=
  ofCells k #[cell]

/-- What stores a value of a kind reads back as that value. -/
theorem read?_of_store? {k : Kind} {v : Value} {x : k.elementType.Carrier}
    (h : k.store? v = some (some x)) : k.elementType.read? x = some v := by
  cases k <;> cases v <;> cases h <;> rfl

/-- A column built for a kind reads back the values it was built from. -/
theorem value?_ofCells {k : Kind} {cells : Array (Option k.elementType.Carrier)} {row : Nat}
    {v : Value} (h : cells[row]? = k.store? v) (hv : (k.store? v).isSome) :
    (ofCells k cells).value? row = some v := by
  have readable : k.elementType.isReadable = true := by cases k <;> rfl
  obtain ⟨cell, hcell⟩ := Option.isSome_iff_exists.1 hv
  have hget : (ofCells k cells).cells[row]? = some cell := h.trans hcell
  simp only [value?, ofCells, readable, if_true]
  cases cell with
  | none =>
    have hnull : v = .null := by cases k <;> cases v <;> cases hcell <;> rfl
    simp only [ofCells] at hget
    rw [hget, hnull]
  | some x =>
    simp only [ofCells] at hget
    rw [hget]
    exact read?_of_store? hcell

end Series

end FormulaTable
