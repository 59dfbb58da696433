import FormulaTable.Series.Builder
import FormulaTable.Table.Cell

/-!
# Tables

What all tables have in common: a number of rows, named columns of known kinds, and access
to cells and whole columns. Reading may change a table, because a computed table keeps what
it computes; so reading is an action on the table, and an action that fails may have changed
the table too.

* `on_bind` — one action after another.
-/

namespace FormulaTable

/-- An action on a table, which gives a result or fails. -/
abbrev Access (σ α : Type) := ExceptT Error (StateM σ) α

namespace Access

variable {σ τ α : Type}

/-- The action that does nothing but give a result or fail. -/
def ofExcept (r : Except Error α) : Access σ α := ExceptT.mk (pure r)

/-- The result of an action on a table, and the table after it. -/
def on (x : Access σ α) (table : σ) : Except Error α × σ :=
  Id.run (StateT.run (ExceptT.run x) table)

/-- The action that gives something about the table. -/
def ask (f : σ → α) : Access σ α := do return f (← get)

/-- An action on a part of a table. -/
def onPart (part : σ → τ) (replace : σ → τ → σ) (x : Access τ α) : Access σ α :=
  ExceptT.mk fun table =>
    let (result, after) := x.on (part table)
    pure (result, replace table after)

variable {β : Type}

/-- A given result leaves the table as it is. -/
@[simp] theorem on_pure (a : α) (table : σ) :
    (pure a : Access σ α).on table = (.ok a, table) := rfl

/-- A result from elsewhere leaves the table as it is. -/
@[simp] theorem on_ofExcept (r : Except Error α) (table : σ) :
    (ofExcept r : Access σ α).on table = (r, table) := rfl

/-- The second of two actions starts on the table that the first one leaves, and a failure
ends both. -/
theorem on_bind (x : Access σ α) (f : α → Access σ β) (table : σ) :
    (x >>= f).on table =
      match x.on table with
      | (.ok a, after) => (f a).on after
      | (.error e, after) => (.error e, after) := by
  unfold on ExceptT.run StateT.run Id.run
  simp only [bind, ExceptT.bind, ExceptT.mk, StateT.bind, ExceptT.bindCont]
  cases x table with
  | mk result after => cases result <;> rfl

/-- An action on a part leaves the rest of the table alone. -/
theorem on_onPart (part : σ → τ) (replace : σ → τ → σ) (x : Access τ α) (table : σ) :
    (onPart part replace x).on table =
      ((x.on (part table)).1, replace table (x.on (part table)).2) := rfl

end Access

/-- Tables that can be read. -/
class Tabular (σ : Type) where
  rowCount : σ → Nat
  /-- The names and kinds of the columns. -/
  schema : σ → List (String × Kind)
  /-- Facts about the table, by name. -/
  metadata : σ → List (String × Document)
  readCell : Nat → Nat → Access σ Cell
  readColumn : Nat → Access σ Series

/-- Refuses the number of a row that does not exist. -/
def checkRow (row count : Nat) : Except Error Unit :=
  if row < count then .ok () else .error (.invalidRow row count)

/-- Refuses the number of a column that does not exist. -/
def checkColumn (column count : Nat) : Except Error Unit :=
  if column < count then .ok () else .error (.invalidColumn column count)

/-- The facts with one more, which replaces one of the same name. -/
def putFact (facts : List (String × Document)) (name : String) (d : Document) :
    List (String × Document) :=
  facts.filter (·.1 ≠ name) ++ [(name, d)]

namespace Tabular

variable {σ : Type} [Tabular σ]

/-- The number of columns. -/
def columnCount (t : σ) : Nat := (schema t).length

/-- The name and kind of a column. -/
def columnAt (t : σ) (column : Nat) : Except Error (String × Kind) :=
  match (schema t)[column]? with
  | some c => .ok c
  | none => .error (.invalidColumn column (columnCount t))

/-- The name of a column. -/
def columnName (t : σ) (column : Nat) : Except Error String := (columnAt t column).map (·.1)

/-- The kind of a column. -/
def columnKind (t : σ) (column : Nat) : Except Error Kind := (columnAt t column).map (·.2)

/-- The position of the first column of a name. -/
def columnIndex? (t : σ) (name : String) : Option Nat := ((schema t).map (·.1)).idxOf? name

/-- The cells of a row, from left to right. -/
def readRow (row : Nat) : Access σ (List Cell) := do
  Access.ofExcept (checkRow row (← Access.ask rowCount))
  (List.range (← Access.ask columnCount)).mapM fun column => readCell row column

end Tabular

end FormulaTable
