import FormulaTable.Computation.Basic

/-!
# Columns

A column of a table is a stored column of the table's source, or the result of a
computation, or the result of a computation in place of a stored column. In the last case
the computation may read the stored column, under the column's own name.
-/

namespace FormulaTable

/-- Where the values of a column come from. A stored column is known by its position in the
source. -/
inductive Content where
  | stored (source : Nat) (kind : Kind)
  | computed (c : Computation)
  | transformed (source : Nat) (c : Computation)

/-- The name of a sort of content. -/
def Content.name : Content → String
  | stored _ _ => "pass-through"
  | computed _ => "computed"
  | transformed _ _ => "transformed"

/-- A column: its name and where its values come from. -/
structure Column where
  name : String
  content : Content

namespace Column

/-- The column of the source. -/
def stored (name : String) (kind : Kind) (source : Nat) : Column :=
  ⟨name, .stored source kind⟩

/-- The result of a computation. -/
def computed (name : String) (c : Computation) : Column := ⟨name, .computed c⟩

/-- The result of a computation in place of a stored column. -/
def transformed (name : String) (source : Nat) (c : Computation) : Column :=
  ⟨name, .transformed source c⟩

/-- The position in the source of the stored column, if there is one. -/
def source? (c : Column) : Option Nat :=
  match c.content with
  | .stored i _ => some i
  | .computed _ => none
  | .transformed i _ => some i

/-- The computation, if there is one. -/
def computation? (c : Column) : Option Computation :=
  match c.content with
  | .stored _ _ => none
  | .computed x => some x
  | .transformed _ x => some x

/-- The kind of the values. -/
def kind (c : Column) : Kind :=
  match c.content with
  | .stored _ k => k
  | .computed x => x.kind
  | .transformed _ x => x.kind

/-- Do the values come from a computation? -/
def isComputed (c : Column) : Bool := c.computation?.isSome

/-- The names that the computation reads. -/
def inputs (c : Column) : List String := (c.computation?.map (·.inputs)).getD []

/-- The columns that the column depends on. A computation in place of a stored column reads
that column under its own name, which is no dependency. -/
def dependencies (c : Column) : List String :=
  match c.content with
  | .stored _ _ => []
  | .computed x => x.inputs
  | .transformed _ x => x.inputs.filter (· ≠ c.name)

/-- The column of the given parts, if they make one. -/
def define (name : String) (kind : Kind) (source : Option Nat) (c : Option Computation) :
    Except Error Column :=
  if Text.isBlankText name then .error (.invalidDefinition .blankName)
  else
    match source, c with
    | none, none => .error (.invalidDefinition (.noContent name))
    | some i, none => .ok (stored name kind i)
    | source, some x =>
      if x.kind ≠ kind then .error (.invalidDefinition (.kindMismatch name kind x.kind))
      else
        match source with
        | some i => .ok (transformed name i x)
        | none => .ok (computed name x)

/-- The column with another computation; a stored column becomes a transformed one. -/
def withComputation (c : Column) (x : Computation) : Column :=
  match c.source? with
  | some i => transformed c.name i x
  | none => computed c.name x

/-- The column without its computation, of the given kind, if there is a stored column to go
back to. -/
def withoutComputation (c : Column) (kind : Kind) : Except Error Column :=
  define c.name kind c.source? none

end Column

end FormulaTable
