import FormulaTable.Operator
import FormulaTable.Value.Basic

/-!
# Failures of a single row

A row of a column may fail to evaluate without harm to the other rows. `RowError` is the
cause, and `RowError.message` its wording.
-/

namespace FormulaTable

/-- Why a row has no value. -/
inductive RowError where
  /-- An infix operator does not apply to operands of these kinds. -/
  | typeMismatch (op : BinaryOp) (left right : Option Kind)
  /-- A prefix operator does not apply to an operand of this kind. -/
  | unaryTypeMismatch (op : UnaryOp) (operand : Option Kind)
  | divisionByZero
  /-- The exact result does not fit. -/
  | overflow (operation : String)
  /-- The value cannot be converted to the kind. -/
  | conversion (value : Value) (target : Kind)
  /-- A function rejects its arguments. -/
  | function (name message : String)
  /-- The cell of this input column cannot be read. -/
  | unreadable (column : String)

/-- How a value is shown when its conversion fails: texts in quotes, all else after its
kind. -/
def Value.described : Value → String
  | .text s => "'" ++ s ++ "'"
  | v => v.kindName ++ " " ++ v.toText

/-- The wording of a failure. -/
def RowError.message : RowError → String
  | typeMismatch op left right =>
    "type error: cannot apply '" ++ op.symbol ++ "' to " ++
      Kind.nameOrNull left ++ " and " ++ Kind.nameOrNull right
  | unaryTypeMismatch op operand =>
    "type error: cannot apply '" ++ op.symbol ++ "' to " ++ Kind.nameOrNull operand
  | divisionByZero => "division by zero"
  | overflow operation => "integer overflow in '" ++ operation ++ "'"
  | conversion value target => "cannot convert " ++ value.described ++ " to " ++ target.name
  | function name message => name ++ ": " ++ message
  | unreadable column => "unreadable value in column '" ++ column ++ "'"

end FormulaTable
