import FormulaTable.Proofs.Access
import FormulaTable.Table.Stack

/-!
# Runs of a computed table

A run is any sequence of edits, reads, and requests to keep or forget results. An operation
that fails does not end a run: the next one goes on with the table that the failed one left.

* `run_induction` — what every operation keeps holds after every run.
-/

namespace FormulaTable

/-- An edit of the columns. -/
inductive Edit where
  | add (name : String) (x : Computation)
  | set (name : String) (x : Computation)
  | clear (name : String)
  | remove (name : String)

/-- An operation on a computed table. -/
inductive Operation where
  | edit (e : Edit)
  | materialize (name : String)
  | materializeAll
  | unmaterialize (name : String)
  | release
  | resetStatistics
  | readCell (row column : Nat)
  | readCellError (row column : Nat)
  | readRow (row : Nat)
  | readColumn (column : Nat)

variable {σ : Type} [Tabular σ]

/-- The table after an edit. -/
def Edit.apply (t : ComputedTable σ) : Edit → Except Error (ComputedTable σ)
  | add name x => (t.addColumn name x).map (·.1)
  | set name x => t.setComputation name x
  | clear name => t.clearComputation name
  | remove name => t.removeColumn name

/-- What an operation does; its result is left out. -/
def Operation.perform : Operation → Access (ComputedTable σ) Unit
  | edit e => do set (← Access.ofExcept (e.apply (← get)))
  | materialize name => ComputedTable.materialize name
  | materializeAll => do let _ ← ComputedTable.materializeAll
  | unmaterialize name => do let _ ← ComputedTable.unmaterialize name
  | release => modify ComputedTable.release
  | resetStatistics => modify ComputedTable.resetStatistics
  | readCell row column => do let _ ← ComputedTable.readCell row column
  | readCellError row column => do let _ ← ComputedTable.readCellError row column
  | readRow row => do let _ : List Cell ← Tabular.readRow row
  | readColumn column => do let _ ← ComputedTable.readColumn column

namespace ComputedTable

/-- The table after some operations, in order, whether they succeed or fail. -/
def run (t : ComputedTable σ) (ops : List Operation) : ComputedTable σ :=
  ops.foldl (fun t op => (op.perform.on t).2) t

/-- What every operation keeps holds after every run. -/
theorem run_induction {I : ComputedTable σ → Prop}
    (hstep : ∀ t, I t → ∀ op : Operation, I (op.perform.on t).2) {t : ComputedTable σ}
    (ht : I t) (ops : List Operation) : I (t.run ops) := by
  induction ops generalizing t with
  | nil => exact ht
  | cons op ops ih => exact ih (hstep t ht op)

end ComputedTable

/-- A table in memory with one row and one column. -/
def BaseTable.singleColumn : BaseTable :=
  .memory ⟨1, [⟨"a", .int64, ⟨.int64, #[some (1 : Int64)]⟩, rfl, rfl⟩], []⟩

/-- The computed table over it that has been given no other columns yet. -/
def ComputedTable.singleColumn (config : Config) : ComputedTable BaseTable :=
  ⟨.singleColumn, .standard, config, [⟨.stored "a" .int64 0, none⟩], ⟨["a"], [[]]⟩, 0, 0⟩

/-- A table over a single column is created if its settings are valid. -/
theorem ComputedTable.create_singleColumn {config : Config} (h : config.validate = .ok ()) :
    create .singleColumn .standard config = .ok (singleColumn config) := by
  rw [create, h]
  rfl

/-- The formula that applies an operator to a column and a number. -/
def Computation.applied (op : BinaryOp) (column : String) (n : Int64) (config : Config) :
    Computation where
  source := column ++ " " ++ op.symbol ++ " " ++ toString n.toInt
  inputs := [column]
  kind := .int64
  program := .binary op (.input 0) (.constant (.int n))
  registry := .standard
  config := config

/-- The standard settings with another marker for numbers. -/
def Config.otherSentinel : Config := { Config.standard with errorSentinel := -7 }

/-- Adds a column that fails in every row, and a column that reads it. -/
def Operation.chained (config : Config) : List Operation :=
  [.edit (.add "b" (.applied .mod "a" 0 config)),
    .edit (.add "c" (.applied .add "b" 1 config))]

end FormulaTable
