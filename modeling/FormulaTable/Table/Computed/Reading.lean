import FormulaTable.Table.Computed.Materialization

/-!
# Reading a computed table

A computed table is read like any other: stored columns are read from the source, and
computed ones are evaluated when they are first read. A computed table can therefore be the
source of another one.
-/

namespace FormulaTable

/-- The cell of a result. In a failed row it holds the stand-in and the message. -/
def Evaluated.cell (e : Evaluated) (row : Nat) : Cell :=
  let v := (e.series.value? row).getD .null
  match e.error? row with
  | some message => .failed v message
  | none => .ofValue v

namespace ComputedTable

variable {σ : Type} [Tabular σ]

/-- The slot of a column by its position, or an error. -/
def slotAt (t : ComputedTable σ) (column : Nat) : Except Error Slot :=
  match t.slot? column with
  | some slot => .ok slot
  | none => .error (.invalidColumn column t.slots.length)

/-- The cell in a row and a column. A cell of a known computed column is a hit. -/
def readCell (row column : Nat) : Access (ComputedTable σ) Cell := do
  Access.ofExcept (checkRow row (Tabular.rowCount (← get).source))
  let slot ← Access.ofExcept ((← get).slotAt column)
  match slot.column.content, slot.cached with
  | .stored i _, _ => onSource (Tabular.readCell row i)
  | _, some e =>
    modify countHit
    return e.cell row
  | _, none => return (← materializeAt column).cell row

/-- A whole column. -/
def readColumn (column : Nat) : Access (ComputedTable σ) Series := do
  let slot ← Access.ofExcept ((← get).slotAt column)
  match slot.column.content, slot.cached with
  | .stored i _, _ => onSource (Tabular.readColumn i)
  | _, some e => return e.series
  | _, none => return (← materializeAt column).series

/-- The facts about the source, and the numbers of computed and of known columns. -/
def metadata (t : ComputedTable σ) : List (String × Document) :=
  putFact
    (putFact (Tabular.metadata t.source) "computed_columns" (.integer t.computedCount))
    "materialized_columns" (.integer t.materializedCount)

instance : Tabular (ComputedTable σ) where
  rowCount t := Tabular.rowCount t.source
  schema t := t.columns.map fun c => (c.name, c.kind)
  metadata := metadata
  readCell := readCell
  readColumn := readColumn

/-- The message of a cell, if its row failed. -/
def readCellError (row column : Nat) : Access (ComputedTable σ) (Option String) := do
  return (← readCell row column).error

end ComputedTable

end FormulaTable
