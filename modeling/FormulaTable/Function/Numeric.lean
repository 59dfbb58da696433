import FormulaTable.Binary.Round
import FormulaTable.Function.Basic
import FormulaTable.Series.Element

/-!
# Numeric functions on columns

Functions on doubles applied to every element, the negation that keeps the type of its
column, and the reductions of a column to one value. Missing elements stay missing, and
reductions skip them.

The sum is kept in several lanes that are added up at the end, so that its rounding depends
on the position of every element and on whether any is missing.
-/

namespace FormulaTable

namespace Series

/-- The numbers of a numeric column as doubles. -/
def floats (s : Series) : List (Option Float) :=
  s.elements.map fun e => e.bind Element.toFloat?

/-- The column of the given doubles. -/
def ofFloats (values : List (Option Float)) : Series := ofCells .float64 values.toArray

end Series

namespace ElementType

/-- Whole numbers without a sign. -/
def isUnsigned : ElementType → Bool
  | uint8 | uint16 | uint32 | uint64 => true
  | _ => false

/-- The opposite of an integer, unless it is the least one of its width. -/
def checkedOpposite {α : Type} [DecidableEq α] [Neg α] (least : α) (toInt : α → Int)
    (n : α) :
    Except DataFault α :=
  if n = least then .error (.negationOverflow (toInt n)) else .ok (-n)

/-- A half with its sign bit flipped. -/
def flipHalf (bits : UInt16) : UInt16 := bits ^^^ 0x8000

/-- A single with its sign bit flipped. -/
def flipSingle (bits : UInt32) : UInt32 := bits ^^^ 0x80000000

/-- The opposite of an element, of the same type. -/
def opposite : (t : ElementType) → t.Carrier → Except DataFault t.Carrier
  | int8, n => @checkedOpposite Int8 _ _ Int8.minValue Int8.toInt n
  | int16, n => @checkedOpposite Int16 _ _ Int16.minValue Int16.toInt n
  | int32, n => @checkedOpposite Int32 _ _ Int32.minValue Int32.toInt n
  | int64, n => @checkedOpposite Int64 _ _ Int64.minValue Int64.toInt n
  | float16, bits => .ok (flipHalf bits)
  | float32, bits => .ok (flipSingle bits)
  | float64, x => .ok (Float.neg x)
  | t, _ => .error (.unsignedNegation t)

end ElementType

namespace Series

/-- The opposite of an element; a missing one stays missing. -/
def oppositeCell (t : ElementType) : Option t.Carrier → Except DataFault (Option t.Carrier)
  | none => .ok none
  | some x => (t.opposite x).map some

/-- The opposites of all elements. Columns of numbers without a sign have none, even when
they are empty. -/
def negate (s : Series) : Except DataFault Series :=
  if s.type.isUnsigned then .error (.unsignedNegation s.type)
  else do
    let cells ← s.cells.toList.mapM (oppositeCell s.type)
    return ⟨s.type, cells.toArray⟩

end Series

namespace Reduction

/-- The sum of one lane: the elements whose position leaves the given remainder. -/
def laneSum (lanes lane : Nat) (values : List (Option Float)) : Float :=
  (values.zipIdx.filter (·.2 % lanes == lane)).foldl
    (fun total (v, _) => (v.map (total + ·)).getD total) 0.0

/-- The sum of the numbers that are present, if there is one: four lanes when none is
missing, and two otherwise. -/
def sum? (values : List (Option Float)) : Option Float :=
  if !values.any Option.isSome then none
  else if values.all Option.isSome then
    some ((laneSum 4 0 values + laneSum 4 2 values) +
        (laneSum 4 1 values + laneSum 4 3 values))
  else some (laneSum 2 0 values + laneSum 2 1 values)

/-- The best of the numbers that are present under the total order of doubles; of equals the
first. -/
def best? (better : Int → Int → Bool) (values : List (Option Float)) : Option Float :=
  (values.filterMap id).foldl
    (fun best x =>
      match best with
      | none => some x
      | some y => if better (Binary.orderKey x) (Binary.orderKey y) then some x else some y)
    none

/-- The least number. -/
def min? : List (Option Float) → Option Float := best? (fun a b => a < b)

/-- The greatest number. -/
def max? : List (Option Float) → Option Float := best? (fun a b => b < a)

/-- The sum divided by the number of numbers that are present. -/
def mean? (values : List (Option Float)) : Option Float :=
  (sum? values).map (· / Float.ofNat (values.countP Option.isSome))

end Reduction

namespace SeriesFunction

/-- A function on doubles, applied to every element. -/
def math (name : String) (f : Float → Float) : SeriesFunction :=
  unary name .math (requireNumeric name) (fun _ => .float64) fun s => do
    requireNumeric name s.type
    return Series.ofFloats (s.floats.map (·.map f))

/-- The negation, which keeps the type of its column. -/
def negate : SeriesFunction :=
  unary "negate" .math (requireNumeric "negate") id fun s => do
    requireNumeric "negate" s.type
    match s.negate with
    | .ok result => return result
    | .error fault => throw (.data fault)

/-- A reduction of the numbers of a column. -/
def reduction (name : String) (reduce : List (Option Float) → Option Float) :
    SeriesFunction :=
  unary name .aggregate (requireNumeric name) (fun _ => .float64) fun s => do
    requireNumeric name s.type
    return Series.ofFloats [reduce s.floats]

/-- The number of elements that are present, in a column of any type. -/
def count : SeriesFunction :=
  unary "count" .aggregate (fun _ => .ok ()) (fun _ => .int64) fun s =>
    .ok (Series.singleton .int64 (some (Int64.ofNat s.present)))

end SeriesFunction

end FormulaTable
