import FormulaTable.Table.Computed.Basic

/-!
# Edits of a computed table

Columns are added, given another computation, returned to what is stored, and removed. An
edit either gives the table after it or fails, and a failed edit leaves the table as it was.
An edit forgets the result of the column it changes and of all columns that depend on it,
and keeps every other one.
-/

namespace FormulaTable.ComputedTable

variable {σ : Type}

/-- The given columns with the results that were kept at their positions. -/
def slotsFor (columns : List Column) (old : List Slot) : List Slot :=
  columns.zipIdx.map fun (c, p) => ⟨c, old[p]?.bind (·.cached)⟩

/-- The table with other columns, if they make a graph. -/
def install (t : ComputedTable σ) (columns : List Column) :
    Except Error (ComputedTable σ) := do
  let graph ← Graph.build columns
  return { t with slots := slotsFor columns t.slots, graph := graph }

/-- The slots without the results at the given positions. -/
def forgetAt (slots : List Slot) (positions : List Nat) : List Slot :=
  slots.zipIdx.map fun (slot, p) => if positions.contains p then
    { slot with cached := none } else slot

/-- The table without the results of a column and of all columns that depend on it. -/
def invalidate (t : ComputedTable σ) (p : Nat) : ComputedTable σ :=
  { t with slots := forgetAt t.slots (p :: t.graph.affected p) }

/-- The column at a position; there is one for every position of the graph. -/
def columnAt (t : ComputedTable σ) (name : String) (p : Nat) : Except Error Column :=
  match t.slot? p with
  | some slot => .ok slot.column
  | none => .error (.unknownColumn name)

/-- The table with the column at a position replaced. -/
def replaceAt (t : ComputedTable σ) (p : Nat) (c : Column) :
    Except Error (ComputedTable σ) := do
  return (← t.install (t.columns.set p c)).invalidate p

/-- The table with a computed column at its end, and the position of that column. -/
def addColumn (t : ComputedTable σ) (name : String) (x : Computation) :
    Except Error (ComputedTable σ × Nat) := do
  let c ← Column.define name x.kind none (some x)
  return (← t.install (t.columns ++ [c]), t.slots.length)

/-- The table with another computation for a column. A stored column becomes a transformed
one. -/
def setComputation (t : ComputedTable σ) (name : String) (x : Computation) :
    Except Error (ComputedTable σ) := do
  let p ← t.position name
  t.replaceAt p ((← t.columnAt name p).withComputation x)

/-- The table with a transformed column returned to what is stored. A stored column stays as
it is. -/
def clearComputation [Tabular σ] (t : ComputedTable σ) (name : String) :
    Except Error (ComputedTable σ) := do
  let p ← t.position name
  let c ← t.columnAt name p
  match c.content with
  | .stored _ _ => return t
  | .computed _ => throw (.invalidDefinition (.notStored name))
  | .transformed i _ =>
    t.replaceAt p (← c.withoutComputation (← Tabular.columnKind t.source i))

/-- The table without a computed column that no other one reads. -/
def removeColumn (t : ComputedTable σ) (name : String) : Except Error (ComputedTable σ) :=
  do
  let p ← t.position name
  let c ← t.columnAt name p
  if c.source?.isSome then throw (.passThroughRemoval name)
  let dependents := t.graph.namesAt (t.graph.dependents p)
  if !dependents.isEmpty then throw (.columnInUse name dependents)
  let slots := t.slots.eraseIdx p
  let graph ← Graph.build (slots.map (·.column))
  return { t with slots := slots, graph := graph }

end FormulaTable.ComputedTable
