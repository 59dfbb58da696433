import FormulaTable.Error
import FormulaTable.Series.Basic

/-!
# Building a column

A column of a kind is built by appending values one after the other. Null is taken by every
column, and any other value only by a column of its own kind; a refused value leaves the
column as it was.
-/

namespace FormulaTable

/-- A column under construction: the kind of its values and the elements so far. -/
structure SeriesBuilder where
  kind : Kind
  cells : Array (Option kind.elementType.Carrier)

namespace SeriesBuilder

/-- A column without elements. -/
def empty (k : Kind) : SeriesBuilder := ⟨k, #[]⟩

/-- The number of elements so far. -/
def size (b : SeriesBuilder) : Nat := b.cells.size

/-- Has nothing been appended? -/
def isEmpty (b : SeriesBuilder) : Bool := b.size == 0

/-- Appends an element. -/
def push (b : SeriesBuilder) (cell : Option b.kind.elementType.Carrier) : SeriesBuilder :=
  ⟨b.kind, b.cells.push cell⟩

/-- Appends a value, unless it is of another kind. -/
def append (b : SeriesBuilder) (v : Value) : Except Error SeriesBuilder :=
  match b.kind.store? v with
  | some cell => .ok (b.push cell)
  | none => .error (.outputKind b.kind v.kind?)

/-- The finished column. -/
def finish (b : SeriesBuilder) : Series := Series.ofCells b.kind b.cells

end SeriesBuilder

/-- The column of a kind that holds the given values. -/
def Series.ofValues (k : Kind) (values : List Value) : Except Error Series :=
  (values.foldlM SeriesBuilder.append (SeriesBuilder.empty k)).map SeriesBuilder.finish

end FormulaTable
