import FormulaTable.Table.Computed.InPlace
import FormulaTable.Table.Computed.Reading
import FormulaTable.Table.Memory
import FormulaTable.Table.Rows

/-!
# Stacks of tables

A computed table over a computed table, and so on, down to a table that holds its data.
`Stack n` is the type of stacks with `n` computed tables.
-/

namespace FormulaTable

/-- A table that holds its data. -/
inductive BaseTable where
  | memory (t : MemoryTable)
  | rows (t : RowTable)

namespace BaseTable

/-- The cell in a row and a column. -/
def cell : BaseTable → Nat → Nat → Except Error Cell
  | memory t, row, column => t.cell row column
  | rows t, row, column => t.cell row column

/-- A whole column. -/
def column : BaseTable → Nat → Except Error Series
  | memory t, column => (t.columnAt column).map (·.series)
  | rows t, column => t.column column

instance : Tabular BaseTable where
  rowCount
    | memory t => Tabular.rowCount t
    | rows t => Tabular.rowCount t
  schema
    | memory t => Tabular.schema t
    | rows t => Tabular.schema t
  metadata
    | memory t => Tabular.metadata t
    | rows t => Tabular.metadata t
  readCell row column := do .ofExcept ((← get).cell row column)
  readColumn column := do .ofExcept ((← get).column column)

end BaseTable

/-- Stacks with a number of computed tables over a base. -/
def Stack : Nat → Type
  | 0 => BaseTable
  | n + 1 => ComputedTable (Stack n)

namespace Stack

/-- Every stack is a table. -/
@[reducible]
def tabular : (n : Nat) → Tabular (Stack n)
  | 0 => inferInstanceAs (Tabular BaseTable)
  | n + 1 =>
    letI := tabular n
    inferInstanceAs (Tabular (ComputedTable (Stack n)))

instance (n : Nat) : Tabular (Stack n) := tabular n

end Stack

end FormulaTable
