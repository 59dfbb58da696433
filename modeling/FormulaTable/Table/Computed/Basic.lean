import FormulaTable.Computation.Evaluation
import FormulaTable.Dependency.Graph
import FormulaTable.Table.Tabular

/-!
# Computed tables

A computed table shows the columns of its source and columns computed from them. The result
of a computed column is kept once it is known. `ComputedTable` holds the columns with their
kept results, the graph of their dependencies, and two counters that tell how well keeping
results pays.
-/

namespace FormulaTable

/-- A column of a computed table, and the result that is kept for it. -/
structure Slot where
  column : Column
  cached : Option Evaluated

/-- A table with computed columns, over a source of type `σ`. Its two counters have no
bound. Counters of 64 bits would wrap around after `2 ^ 64` counts, which is out of
reach. -/
structure ComputedTable (σ : Type) where
  source : σ
  /-- The functions that its formulas may call. -/
  registry : Registry
  config : Config
  slots : List Slot
  /-- The dependencies of the columns. -/
  graph : Graph
  /-- How often a column was evaluated. -/
  evaluations : Nat
  /-- How often a computed cell was read whose column was known already. -/
  hits : Nat

/-- How well keeping results pays. -/
structure Statistics where
  computedColumns : Nat
  materializedColumns : Nat
  evaluations : Nat
  hits : Nat
deriving DecidableEq

namespace Statistics

/-- The number of accesses to computed columns. -/
def total (s : Statistics) : Nat := s.hits + s.evaluations

/-- The share of hits, if there was any access. -/
def hitRate? (s : Statistics) : Option Float :=
  if s.total = 0 then none else some (Float.ofNat s.hits / Float.ofNat s.total)

end Statistics

namespace ComputedTable

variable {σ : Type}

/-- The columns. -/
def columns (t : ComputedTable σ) : List Column := t.slots.map (·.column)

/-- The slot at a position. -/
def slot? (t : ComputedTable σ) (p : Nat) : Option Slot := t.slots[p]?

/-- The result that is kept for the column at a position. -/
def cached? (t : ComputedTable σ) (p : Nat) : Option Evaluated :=
  (t.slot? p).bind (·.cached)

/-- The position of a column. -/
def position (t : ComputedTable σ) (name : String) : Except Error Nat :=
  t.graph.position name

/-- The slot of a column. -/
def slotNamed (t : ComputedTable σ) (name : String) : Except Error Slot := do
  match t.slot? (← t.position name) with
  | some slot => return slot
  | none => throw (.unknownColumn name)

/-- The definition of a column. -/
def definition (t : ComputedTable σ) (name : String) : Except Error Column := do
  return (← t.slotNamed name).column

/-- Is a result kept for a column? -/
def isMaterialized (t : ComputedTable σ) (name : String) : Except Error Bool := do
  return (← t.slotNamed name).cached.isSome

/-- The values that are kept for a column. -/
def materializedSeries (t : ComputedTable σ) (name : String) :
    Except Error (Option Series) := do
  return (← t.slotNamed name).cached.map (·.series)

/-- The number of computed columns. -/
def computedCount (t : ComputedTable σ) : Nat := t.slots.countP (·.column.isComputed)

/-- The number of columns for which a result is kept. -/
def materializedCount (t : ComputedTable σ) : Nat := t.slots.countP (·.cached.isSome)

/-- How well keeping results pays. -/
def statistics (t : ComputedTable σ) : Statistics :=
  ⟨t.computedCount, t.materializedCount, t.evaluations, t.hits⟩

/-- The table with its counters at zero. -/
def resetStatistics (t : ComputedTable σ) : ComputedTable σ :=
  { t with evaluations := 0, hits := 0 }

/-- The computation of a formula with the functions and settings of the table. -/
def compile (t : ComputedTable σ) (source : String) (kind : Kind) :
    Except Error Computation :=
  Draft.compile ⟨source, none, some kind, some t.registry, t.config⟩

variable [Tabular σ]

/-- The text of a table in diagnostics. -/
def description (t : ComputedTable σ) : String :=
  "ComputedTable \x7b rows: " ++ toString (Tabular.rowCount t.source) ++ ", columns: " ++
    toString t.slots.length ++ ", materialized: " ++
      toString t.materializedCount ++ ", .. \x7d"

/-- The columns of a source as stored columns. -/
def sourceColumns (source : σ) : List Column :=
  (Tabular.schema source).zipIdx.map fun ((name, kind), i) => .stored name kind i

/-- The table that shows a source, with its own functions and settings. -/
def create (source : σ) (registry : Registry) (config : Config) :
    Except Error (ComputedTable σ) := do
  config.validate
  let columns := sourceColumns source
  let graph ← Graph.build columns
  return ⟨source, registry, config, columns.map (⟨·, none⟩), graph, 0, 0⟩

/-- The table that shows a source, with the standard functions and settings. -/
def ofSource (source : σ) : Except Error (ComputedTable σ) :=
  create source .standard .standard

end ComputedTable

end FormulaTable
