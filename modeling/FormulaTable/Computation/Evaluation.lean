import FormulaTable.Computation.Basic
import FormulaTable.Series.Builder

/-!
# Running a computation

A computation runs on columns of one length and gives a column of that length. Everything
that could make the whole run fail is checked before the first row. A row that fails does
not harm the others: a stand-in is stored in it, and the message of the failure is kept
beside the column.
-/

namespace FormulaTable

/-- The result of a computation: a column, and the messages of the rows that failed, in
ascending order of rows. -/
structure Evaluated where
  series : Series
  errors : List (Nat × String)

namespace Evaluated

/-- The message of a row, if it failed. -/
def error? (e : Evaluated) (row : Nat) : Option String := e.errors.lookup row

end Evaluated

/-- The sentinel as a day, or day -1 if it is none. -/
def Config.sentinelDay (c : Config) : Int32 := (int32? c.errorSentinel.toInt).getD (-1)

/-- What is stored in a failed row of a kind. -/
def Config.marker (c : Config) (message : String) : Kind → Value
  | .int64 => .int c.errorSentinel
  | .float64 => .float (Float.ofInt c.errorSentinel.toInt)
  | .bool => .null
  | .string => .text (c.errorLabel ++ message)
  | .date => .date c.sentinelDay
  | .timestamp => .timestamp c.errorSentinel

namespace Computation

/-- Refuses an input of the wrong length or of a type that formulas cannot read. -/
def checkInput (rows : Nat) (name : String) (s : Series) : Except Error Unit :=
  if s.size ≠ rows then .error (.inputLength name rows s.size)
  else if !s.type.isReadable then .error (.unsupportedInput name s.type)
  else .ok ()

/-- Refuses columns that are not what the inputs ask for. -/
def checkInputs (c : Computation) (columns : List Series) (rows : Nat) :
    Except Error Unit :=
  if columns.length ≠ c.inputs.length then
    .error (.inputCount c.inputs.length columns.length)
  else (c.inputs.zip columns).forM fun (name, s) => checkInput rows name s

/-- The value of an input in a row. -/
def readInput (row : Nat) (name : String) (s : Series) : Except RowError Value :=
  match s.value? row with
  | some v => .ok v
  | none => .error (.unreadable name)

/-- The values of the inputs in a row. -/
def readRow (c : Computation) (columns : List Series) (row : Nat) :
    Except RowError (List Value) :=
  (c.inputs.zip columns).mapM fun (name, s) => readInput row name s

/-- The result of a row, of the kind of the computation. -/
def evalRow (c : Computation) (columns : List Series) (row : Nat) : Except RowError Value :=
  do
  let values ← c.readRow columns row
  (← c.program.eval values).convert c.kind

/-- What is stored for the result of a row. -/
def stored (c : Computation) : Except RowError Value → Value
  | .ok v => v
  | .error e => c.config.marker e.message c.kind

/-- The messages of the results that are failures, by row. -/
def messages (results : List (Except RowError Value)) : List (Nat × String) :=
  results.zipIdx.filterMap fun (result, row) =>
    match result with
    | .ok _ => none
    | .error e => some (row, e.message)

/-- Runs the computation on columns with the given number of rows. -/
def evaluateRows (c : Computation) (columns : List Series) (rows : Nat) :
    Except Error Evaluated := do
  c.checkInputs columns rows
  let results := (List.range rows).map (c.evalRow columns)
  let series ← Series.ofValues c.kind (results.map c.stored)
  return ⟨series, messages results⟩

/-- Runs the computation on columns; the first one gives the number of rows. -/
def evaluate (c : Computation) (columns : List Series) : Except Error Evaluated :=
  c.evaluateRows columns ((columns.head?.map Series.size).getD 0)

end Computation

end FormulaTable
