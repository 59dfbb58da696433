import FormulaTable.Computation.Evaluation

/-!
# Running a computation in place

The same run, one row after another, with one list of values that every row is read into. A
row that cannot be read to its end leaves the values of earlier rows behind it in the list.
-/

namespace FormulaTable.Computation

/-- Reads the cells of a row into the values of the row before, up to the first cell that
cannot be read. -/
def readRowInto (row : Nat) :
    List (String × Series) → List Value → Except RowError Unit × List Value
  | (name, s) :: arrays, value :: values =>
    match readInput row name s with
    | .ok v =>
      let (result, values) := readRowInto row arrays values
      (result, v :: values)
    | .error e => (.error e, value :: values)
  | _, values => (.ok (), values)

/-- What a run has made of the rows so far. -/
structure Progress where
  builder : SeriesBuilder
  /-- The messages of the rows that failed. -/
  errors : List (Nat × String)
  /-- The values that the next row is read into. -/
  values : List Value

/-- Evaluates the next row, and appends its result or what is stored for a failure. -/
def evaluateNext (c : Computation) (columns : List Series) (p : Progress) (row : Nat) :
    Except Error Progress := do
  let (read, values) := readRowInto row (c.inputs.zip columns) p.values
  match (do read; (← c.program.eval values).convert c.kind) with
  | .ok v => return ⟨← p.builder.append v, p.errors, values⟩
  | .error e =>
    let builder ← p.builder.append (c.config.marker e.message c.kind)
    return ⟨builder, p.errors ++ [(row, e.message)], values⟩

/-- Runs the computation on columns with the given number of rows, row after row. -/
def evaluateInPlace (c : Computation) (columns : List Series) (rows : Nat) :
    Except Error Evaluated := do
  c.checkInputs columns rows
  let p ← (List.range rows).foldlM (c.evaluateNext columns)
      ⟨.empty c.kind, [], columns.map fun _ => .null⟩
  return ⟨p.builder.finish, p.errors⟩

end FormulaTable.Computation
