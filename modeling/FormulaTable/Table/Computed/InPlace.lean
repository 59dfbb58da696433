import FormulaTable.Table.Computed.Edit

/-!
# Edits in place

The edits as actions on the table itself, one change after another. Whatever can refuse the
new columns is asked before they are put in place. Only after that are the columns found
that depend on an edited one, by their names and in the graph of the new columns, and
forgotten.
-/

namespace FormulaTable.ComputedTable

variable {σ : Type}

/-- Puts other columns in place, with their graph, if they make one. The results stay at
their positions. -/
def putColumns (columns : List Column) : Access (ComputedTable σ) Unit := do
  let graph ← Access.ofExcept (Graph.build columns)
  modify fun t => { t with slots := slotsFor columns t.slots }
  modify fun t => { t with graph := graph }

/-- Forgets the results of a column and of all columns that depend on it. -/
def forgetAffected (name : String) : Access (ComputedTable σ) Unit := do
  let p ← Access.ofExcept ((← get).position name)
  let dependents ← Access.ofExcept ((← get).graph.transitiveDependents name)
  let ps ← Access.ofExcept (dependents.mapM (← get).position)
  modify fun t => { t with slots := forgetAt t.slots (p :: ps) }

/-- Replaces the column of a name, which stands at a position. -/
def replaceInPlace (name : String) (p : Nat) (c : Column) : Access (ComputedTable σ) Unit :=
  do
  putColumns ((← get).columns.set p c)
  forgetAffected name

/-- Adds a computed column at the end, and gives its position. -/
def addInPlace (name : String) (x : Computation) : Access (ComputedTable σ) Nat := do
  let c ← Access.ofExcept (Column.define name x.kind none (some x))
  putColumns ((← get).columns ++ [c])
  return (← get).slots.length - 1

/-- Gives a column another computation. A stored column becomes a transformed one. -/
def setInPlace (name : String) (x : Computation) : Access (ComputedTable σ) Unit := do
  let p ← Access.ofExcept ((← get).position name)
  let c ← Access.ofExcept ((← get).columnAt name p)
  replaceInPlace name p (c.withComputation x)

/-- Returns a transformed column to what is stored. A stored column stays as it is. -/
def clearInPlace [Tabular σ] (name : String) : Access (ComputedTable σ) Unit := do
  let p ← Access.ofExcept ((← get).position name)
  let c ← Access.ofExcept ((← get).columnAt name p)
  match c.content with
  | .stored _ _ => return ()
  | .computed _ => throw (.invalidDefinition (.notStored name))
  | .transformed i _ =>
    let kind ← Access.ofExcept (Tabular.columnKind (← get).source i)
    replaceInPlace name p (← Access.ofExcept (c.withoutComputation kind))

/-- Removes a computed column that no other one reads. -/
def removeInPlace (name : String) : Access (ComputedTable σ) Unit := do
  let p ← Access.ofExcept ((← get).position name)
  let c ← Access.ofExcept ((← get).columnAt name p)
  if c.source?.isSome then throw (.passThroughRemoval name)
  let dependents ← Access.ofExcept ((← get).graph.dependentsOf name)
  if !dependents.isEmpty then throw (.columnInUse name dependents)
  let graph ← Access.ofExcept (Graph.build ((← get).columns.eraseIdx p))
  modify fun t => { t with slots := t.slots.eraseIdx p }
  modify fun t => { t with graph := graph }

end FormulaTable.ComputedTable
