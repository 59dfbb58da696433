import FormulaTable.Formula.Basic
import FormulaTable.Program.Callable
import FormulaTable.Value.Operation

/-!
# Programs

A program is a formula whose names are resolved: columns are positions in a row of input
values, and calls are functions. `Program.ofFormula` resolves a formula, and `Program.eval`
evaluates a program on a row.

The logical operators, `??`, ternaries and the functions like them evaluate only what
decides the result.
-/

namespace FormulaTable

/-- A formula with resolved names. -/
inductive Program where
  | constant (v : Value)
  /-- The value at a position of the row. -/
  | input (position : Nat)
  /-- A column that is no input; it is null. -/
  | absent (name : String)
  | unary (op : UnaryOp) (operand : Program)
  | binary (op : BinaryOp) (left right : Program)
  | conditional (condition yes no : Program)
  /-- The first of the arguments that is not null. -/
  | firstPresent (args : List Program)
  | call (name : String) (f : RowFunction) (args : List Program)

namespace Program

/-- The program of a call. A name that stands for nothing, which no accepted formula calls,
is null. -/
def ofCall (name : String) : Option Callee → List Program → Program
  | some .conditional, [condition, yes, no] => conditional condition yes no
  | some .firstPresent, args => firstPresent args
  | some (.function f), args => call (Text.foldName name) f args
  | _, _ => constant .null

mutual

/-- The program of a formula, for the given inputs. -/
def ofFormula (env : Environment) (inputs : List String) : Formula → Program
  | .literal l => constant l.value
  | .column name =>
    match inputs.idxOf? name with
    | some position => input position
    | none => absent name
  | .unary op operand => unary op (ofFormula env inputs operand)
  | .binary op left right => binary op (ofFormula env inputs left)
    (ofFormula env inputs right)
  | .conditional condition yes no =>
    conditional (ofFormula env inputs condition) (ofFormula env inputs yes)
      (ofFormula env inputs no)
  | .call name args => ofCall name ((env.find? name).map (·.callee))
    (ofFormulas env inputs args)

/-- The programs of several formulas. -/
def ofFormulas (env : Environment) (inputs : List String) : List Formula → List Program
  | [] => []
  | f :: rest => ofFormula env inputs f :: ofFormulas env inputs rest

end

/-- Does a value decide an infix operator alone, as its left operand? The result is the
value it decides on. -/
def decided? (op : BinaryOp) (left : Value) : Except RowError (Option Value) :=
  match op with
  | .and => do
    return if (← Value.truth op left .null) = some false then some (.bool false) else none
  | .or => do
    return if (← Value.truth op left .null) = some true then some (.bool true) else none
  | .coalesce => .ok (if left.isNull then none else some left)
  | _ => .ok none

/-- Which branch a condition takes: null takes the second one. -/
def branch (condition : Value) : Except RowError Bool :=
  match condition with
  | .bool b => .ok b
  | .null => .ok false
  | v => .error (.function "if" ("condition must be BOOL, got " ++ v.kindName))

/-- The result of a call, whose failure bears the name of the function. -/
def named (name : String) : Except RowError Value → Except RowError Value
  | .ok v => .ok v
  | .error (.function inner message) => .error (.function inner message)
  | .error e => .error (.function name e.message)

mutual

/-- The value of a program on a row of input values. -/
def eval (row : List Value) : Program → Except RowError Value
  | constant v => .ok v
  | input position => .ok (row[position]?.getD .null)
  | absent _ => .ok .null
  | unary op operand => do op.apply (← operand.eval row)
  | binary op left right => do
    let l ← left.eval row
    match ← decided? op l with
    | some v => return v
    | none => op.apply l (← right.eval row)
  | conditional condition yes no => do
    if ← branch (← condition.eval row) then yes.eval row else no.eval row
  | firstPresent args => evalFirst row args
  | call name f args => do
    let values ← evalAll row args
    named name (f.apply values)

/-- The values of several programs, unless one fails. -/
def evalAll (row : List Value) : List Program → Except RowError (List Value)
  | [] => .ok []
  | p :: rest => do
    let v ← p.eval row
    let others ← evalAll row rest
    return v :: others

/-- The first value that is not null; what comes after it is not evaluated. -/
def evalFirst (row : List Value) : List Program → Except RowError Value
  | [] => .ok .null
  | p :: rest => do
    let v ← p.eval row
    if v.isNull then evalFirst row rest else return v

end

end Program

end FormulaTable
