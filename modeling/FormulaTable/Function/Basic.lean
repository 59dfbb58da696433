import FormulaTable.Error
import FormulaTable.Series.Basic

/-!
# Functions on columns

A `SeriesFunction` takes whole columns and gives a whole column. It can be asked which types
it takes and which type results before it is run. Functions that treat every row by itself
are elementwise; formulas may call these, and only these.
-/

namespace FormulaTable

/-- What a function does with its columns. -/
inductive FunctionCategory where
  /-- Numbers, row by row. -/
  | math
  /-- Texts, row by row. -/
  | string
  /-- A change of type, row by row. -/
  | cast
  /-- One value for a whole column. -/
  | aggregate
deriving DecidableEq

namespace FunctionCategory

/-- The name of a category. -/
def name : FunctionCategory → String
  | math => "math"
  | string => "string"
  | cast => "cast"
  | aggregate => "aggregate"

/-- Does every row of the result depend on that row of the columns alone? -/
def isElementwise (c : FunctionCategory) : Bool := c ≠ .aggregate

end FunctionCategory

/-- A named function on columns. -/
structure SeriesFunction where
  name : String
  category : FunctionCategory
  /-- How many columns the function takes. -/
  arity : Nat
  /-- Refuses columns of types that the function does not take. -/
  accept : List ElementType → Except Error Unit
  /-- The type of the result, for columns of the given types. -/
  outputType : List ElementType → Except Error ElementType
  run : List Series → Except Error Series

namespace SeriesFunction

/-- The failure of the function of the given name. -/
def failed {α : Type} (name message : String) : Except Error α :=
  .error (.functionFailed name message)

/-- The one argument, or a failure. -/
def onlyArgument {α : Type} (name : String) : List α → Except Error α
  | [a] => .ok a
  | args => failed name ("expects 1 argument, got " ++ toString args.length)

/-- Refuses every type that is not numeric. -/
def requireNumeric (name : String) (t : ElementType) : Except Error Unit :=
  if t.isNumeric then .ok () else failed name ("expects a numeric argument, got " ++ t.name)

/-- Refuses every type that is not one of texts. -/
def requireText (name : String) (t : ElementType) : Except Error Unit :=
  if t = .utf8 ∨ t = .largeUtf8 then .ok ()
  else failed name ("expects a string argument, got " ++ t.name)

/-- A function of one column. -/
def unary (name : String) (category : FunctionCategory)
    (accept : ElementType → Except Error Unit) (outputType : ElementType → ElementType)
    (run : Series → Except Error Series) : SeriesFunction where
  name := name
  category := category
  arity := 1
  accept types := do accept (← onlyArgument name types)
  outputType types := do
    let t ← onlyArgument name types
    accept t
    return outputType t
  run columns := do run (← onlyArgument name columns)

end SeriesFunction

end FormulaTable
