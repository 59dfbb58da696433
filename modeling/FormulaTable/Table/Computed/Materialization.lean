import FormulaTable.Table.Computed.Basic

/-!
# Results that are kept

A computed column is evaluated when its result is first needed, after the computed columns
that it reads, and its result is kept. A column whose result is kept is not evaluated again.
Results can be asked for ahead of time, and forgotten.
-/

namespace FormulaTable.ComputedTable

variable {σ : Type} [Tabular σ]

/-- An action on the source of the table. -/
def onSource {α : Type} (x : Access σ α) : Access (ComputedTable σ) α :=
  x.onPart (·.source) fun t source => { t with source := source }

/-- The table with a result kept at a position. -/
def keep (t : ComputedTable σ) (p : Nat) (e : Evaluated) : ComputedTable σ :=
  { t with slots := t.slots.modify p fun slot => { slot with cached := some e } }

/-- The table without the result at a position. -/
def forget (t : ComputedTable σ) (p : Nat) : ComputedTable σ :=
  { t with slots := t.slots.modify p fun slot => { slot with cached := none } }

/-- One more evaluation. -/
def countEvaluation (t : ComputedTable σ) : ComputedTable σ :=
  { t with evaluations := t.evaluations + 1 }

/-- One more hit. -/
def countHit (t : ComputedTable σ) : ComputedTable σ := { t with hits := t.hits + 1 }

/-- Where an input of a column is read. -/
inductive Origin where
  /-- The stored column at a position of the source. -/
  | source (i : Nat)
  /-- The kept values of a computed column. -/
  | kept (s : Series)

/-- Where an input of a column is read: under its own name a column reads what is stored,
and a computed column is read from its kept result. -/
def origin (t : ComputedTable σ) (reader : Column) (input : String) : Except Error Origin :=
  match (if input = reader.name then reader.source? else none) with
  | some i => .ok (.source i)
  | none => do
    let slot ← t.slotNamed input
    match slot.column.content, slot.cached with
    | .stored i _, _ => return .source i
    | _, some e => return .kept e.series
    | _, none => throw (.invalidDefinition (.readTooEarly input))

/-- The values of an input of a column. -/
def readInput (reader : Column) (input : String) : Access (ComputedTable σ) Series := do
  match ← Access.ofExcept ((← get).origin reader input) with
  | .source i => onSource (Tabular.readColumn i)
  | .kept s => return s

/-- The result of a column. The computed columns that it reads have to be known. -/
def evaluateColumn (c : Column) : Access (ComputedTable σ) Evaluated := do
  match c.computation? with
  | none => throw (.invalidDefinition (.notComputed c.name))
  | some x =>
    let inputs ← x.inputs.mapM (readInput c)
    modify countEvaluation
    Access.ofExcept (x.evaluateRows inputs (Tabular.rowCount (← get).source))

/-- Evaluates the column at a position, if it is computed and not known yet, and tells
whether it did. -/
def fill (p : Nat) : Access (ComputedTable σ) Bool := do
  match (← get).slot? p with
  | none => return false
  | some slot =>
    if slot.column.isComputed && slot.cached.isNone then
      let e ← evaluateColumn slot.column
      modify (·.keep p e)
      return true
    else return false

/-- Evaluates the columns at several positions in turn, and gives the number of those that
were. -/
def fillAll (ps : List Nat) : Access (ComputedTable σ) Nat := do
  return (← ps.mapM fill).count true

/-- The result of the column at a position, evaluated with all it needs unless it is
known. -/
def materializeAt (p : Nat) : Access (ComputedTable σ) Evaluated := do
  match (← get).cached? p with
  | some e =>
    modify countHit
    return e
  | none =>
    let _ ← fillAll ((← get).graph.orderFor p)
    match (← get).cached? p with
    | some e => return e
    | none => throw (.invalidDefinition (.notComputed ((← get).graph.name p)))

/-- Evaluates every computed column that is not known, and gives their number. -/
def materializeAll : Access (ComputedTable σ) Nat := do
  fillAll (← get).graph.order

/-- Evaluates a column, with all it needs, unless it is known; the empty name stands for all
columns. -/
def materialize (name : String) : Access (ComputedTable σ) Unit := do
  if name.isEmpty then
    let _ ← materializeAll
  else
    let p ← Access.ofExcept ((← get).position name)
    match (← get).slot? p with
    | some slot => if slot.column.isComputed then let _ ← materializeAt p
    | none => return ()

/-- Forgets the result of a column, and tells whether there was one. -/
def unmaterialize (name : String) : Access (ComputedTable σ) Bool := do
  let p ← Access.ofExcept ((← get).position name)
  let known := ((← get).cached? p).isSome
  modify (·.forget p)
  return known

/-- The table without any results. -/
def release (t : ComputedTable σ) : ComputedTable σ :=
  { t with slots := t.slots.map fun slot => { slot with cached := none } }

end FormulaTable.ComputedTable
