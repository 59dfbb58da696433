import FormulaTable.Names
import FormulaTable.Table.Tabular

/-!
# Tables stored by columns

A table whose columns are held in memory as they are. The columns are of one length, and
each is of a type whose values have a kind; a stored column carries the proofs of both. A
value that its kind cannot hold is shown as null, with a message.
-/

namespace FormulaTable

/-- A column with the given number of rows, its name and the kind of its values. -/
structure StoredColumn (rows : Nat) where
  name : String
  kind : Kind
  series : Series
  size_eq : series.size = rows
  kind_eq : series.type.kind? = some kind

/-- The cell of a stored column. -/
def StoredColumn.cell {rows : Nat} (c : StoredColumn rows) (row : Nat) : Cell :=
  match c.series.value? row with
  | some v => .ofValue v
  | none => .failed .null ("value does not fit column type " ++ c.kind.name)

/-- A table whose columns are held in memory. -/
structure MemoryTable where
  rows : Nat
  columns : List (StoredColumn rows)
  metadata : List (String × Document)

namespace MemoryTable

/-- A column with the kind of its values, if they have one. -/
def storedColumn {rows : Nat} (c : String × Series) (size_eq : c.2.size = rows) :
    Except Error (StoredColumn rows) :=
  match kind_eq : c.2.type.kind? with
  | some k => .ok ⟨c.1, k, c.2, size_eq, kind_eq⟩
  | none => .error (.unsupportedInput c.1 c.2.type)

/-- The number of rows of named columns, which have to be of one length. -/
def commonLength (columns : List (String × Series)) :
    Except Error { rows : Nat // ∀ c ∈ columns, c.2.size = rows } :=
  match columns with
  | [] => .error (.data .noColumns)
  | first :: rest =>
    if same : ∀ c ∈ rest, c.2.size = first.2.size then
      .ok ⟨first.2.size, List.forall_mem_cons.2 ⟨rfl, same⟩⟩
    else .error (.data .unequalLengths)

/-- The table of named columns, with facts about it. -/
def ofBatch (columns : List (String × Series)) (metadata : List (String × Document)) :
    Except Error MemoryTable := do
  let ⟨rows, sizes⟩ ← commonLength columns
  return ⟨rows, ← columns.attach.mapM fun c => storedColumn c.1 (sizes c.1 c.2), metadata⟩

/-- The table of named columns, no two of which have the same name. -/
def ofColumns (columns : List (String × Series)) : Except Error MemoryTable :=
  match firstRepeat? (columns.map (·.1)) with
  | some name => .error (.duplicateColumn name)
  | none => ofBatch columns []

/-- The table with one more fact about it. -/
def withFact (t : MemoryTable) (name : String) (d : Document) : MemoryTable :=
  { t with metadata := putFact t.metadata name d }

/-- The column at a position. -/
def columnAt (t : MemoryTable) (column : Nat) : Except Error (StoredColumn t.rows) :=
  match t.columns[column]? with
  | some c => .ok c
  | none => .error (.invalidColumn column t.columns.length)

/-- The cell in a row and a column. -/
def cell (t : MemoryTable) (row column : Nat) : Except Error Cell := do
  let c ← t.columnAt column
  checkRow row t.rows
  return c.cell row

instance : Tabular MemoryTable where
  rowCount t := t.rows
  schema t := t.columns.map fun c => (c.name, c.kind)
  metadata t := t.metadata
  readCell row column := do .ofExcept ((← get).cell row column)
  readColumn column := do .ofExcept (((← get).columnAt column).map (·.series))

end MemoryTable

end FormulaTable
