import FormulaTable.Table.Tabular

/-!
# Tables stored by rows

A table that holds its values row by row. A whole column is put together from its cells,
which fails if a cell is not of the kind of its column.
-/

namespace FormulaTable

/-- A table that holds its values row by row. -/
structure RowTable where
  schema : List (String × Kind)
  rows : List (List Value)

namespace RowTable

/-- The cell in a row and a column. -/
def cell (t : RowTable) (row column : Nat) : Except Error Cell := do
  checkRow row t.rows.length
  checkColumn column t.schema.length
  return .ofValue (((t.rows[row]?.getD [])[column]?).getD .null)

/-- A whole column, put together from its cells. -/
def column (t : RowTable) (column : Nat) : Except Error Series := do
  match t.schema[column]? with
  | none => throw (.invalidColumn column t.schema.length)
  | some (_, kind) =>
    let cells ← (List.range t.rows.length).mapM fun row => t.cell row column
    Series.ofValues kind (cells.map (·.value))

instance : Tabular RowTable where
  rowCount t := t.rows.length
  schema t := t.schema
  metadata _ := []
  readCell row column := do .ofExcept ((← get).cell row column)
  readColumn column := do .ofExcept ((← get).column column)

end RowTable

end FormulaTable
