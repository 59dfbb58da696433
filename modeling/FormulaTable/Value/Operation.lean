import FormulaTable.Binary.Round
import FormulaTable.Value.Error

/-!
# The meaning of the operators

What a prefix or infix operator makes of evaluated operands. Null in, null out, for
arithmetic and for ordering; equality with null asks whether the other side is null too; the
logical operators are those of three-valued logic, with null for "unknown". Arithmetic on
integers, days and instants is exact or fails; an integer beside a double is taken as a
double, and `/` always gives a double.
-/

namespace FormulaTable

namespace Value

/-- The failure of an infix operator on operands of the wrong kinds. -/
def mismatch (op : BinaryOp) (left right : Value) : RowError :=
  .typeMismatch op left.kind? right.kind?

/-- The exact 64-bit result, or an overflow. -/
def exact64 (wrap : Int64 → Value) (op : BinaryOp) (n : Int) : Except RowError Value :=
  match int64? n with
  | some a => .ok (wrap a)
  | none => .error (.overflow op.symbol)

/-- The exact day, or an overflow. -/
def exactDate (op : BinaryOp) (n : Int) : Except RowError Value :=
  match int32? n with
  | some a => .ok (date a)
  | none => .error (.overflow op.symbol)

/-- The day that results from a shift by a number of days, which has to be a 32-bit number
itself. -/
def shiftDate (op : BinaryOp) (shift : Int64) (result : Int) : Except RowError Value :=
  match int32? shift.toInt with
  | some _ => exactDate op result
  | none => .error (.overflow op.symbol)

/-- Both operands as doubles, or a type error. -/
def numbers (op : BinaryOp) (left right : Value) : Except RowError (Float × Float) :=
  match left.number?, right.number? with
  | some a, some b => .ok (a, b)
  | _, _ => .error (mismatch op left right)

/-- An operation on doubles. -/
def floatResult (op : BinaryOp) (f : Float → Float → Float) (left right : Value) :
    Except RowError Value := do
  let (a, b) ← numbers op left right
  return float (f a b)

/-- `left + right`: numbers, a day or an instant and a number of days or microseconds, or
texts. -/
def add : Value → Value → Except RowError Value
  | null, _ => .ok null
  | _, null => .ok null
  | int a, int b => exact64 int .add (a.toInt + b.toInt)
  | date d, int n => shiftDate .add n (d.toInt + n.toInt)
  | int n, date d => shiftDate .add n (d.toInt + n.toInt)
  | timestamp t, int n => exact64 timestamp .add (t.toInt + n.toInt)
  | int n, timestamp t => exact64 timestamp .add (t.toInt + n.toInt)
  | text s, v => .ok (text (s ++ v.toText))
  | v, text s => .ok (text (v.toText ++ s))
  | left, right => floatResult .add (· + ·) left right

/-- `left - right`: numbers, two days or instants, or one of these and a number. -/
def subtract : Value → Value → Except RowError Value
  | null, _ => .ok null
  | _, null => .ok null
  | int a, int b => exact64 int .sub (a.toInt - b.toInt)
  | date a, date b => exact64 int .sub (a.toInt - b.toInt)
  | date d, int n => shiftDate .sub n (d.toInt - n.toInt)
  | timestamp a, timestamp b => exact64 int .sub (a.toInt - b.toInt)
  | timestamp t, int n => exact64 timestamp .sub (t.toInt - n.toInt)
  | left, right => floatResult .sub (· - ·) left right

/-- `left * right`. -/
def multiply : Value → Value → Except RowError Value
  | null, _ => .ok null
  | _, null => .ok null
  | int a, int b => exact64 int .mul (a.toInt * b.toInt)
  | left, right => floatResult .mul (· * ·) left right

/-- `left / right`, a double. -/
def divide (left right : Value) : Except RowError Value :=
  if left.isNull || right.isNull then .ok null
  else do
    let (a, b) ← numbers .div left right
    if b == 0.0 then .error .divisionByZero else return float (a / b)

/-- `left % right`, with the sign of the dividend. Integers are divided exactly; the one
quotient that does not fit counts as an overflow, although its remainder would. -/
def modulo : Value → Value → Except RowError Value
  | null, _ => .ok null
  | _, null => .ok null
  | int a, int b =>
    if b = 0 then .error .divisionByZero
    else
      match int64? (a.toInt.tdiv b.toInt) with
      | some _ => exact64 int .mod (a.toInt.tmod b.toInt)
      | none => .error (.overflow BinaryOp.mod.symbol)
  | left, right => do
    let (a, b) ← numbers .mod left right
    if b == 0.0 then .error .divisionByZero else return float (Binary.remainder a b)

/-- Are two operands equal? Null equals null alone, and values without an order are
unequal. -/
def equal : Value → Value → Bool
  | null, null => true
  | null, _ => false
  | _, null => false
  | left, right => left.compare? right == some .eq

/-- Does an ordering satisfy a comparison operator? -/
def satisfies : BinaryOp → Ordering → Bool
  | .lt, o => o == .lt
  | .le, o => o != .gt
  | .gt, o => o == .gt
  | _, o => o != .lt

/-- The ordering operators. -/
def order (op : BinaryOp) (left right : Value) : Except RowError Value :=
  if left.isNull || right.isNull then .ok null
  else
    match left.compare? right with
    | some o => .ok (bool (satisfies op o))
    | none => .error (mismatch op left right)

/-- A logical operand: a truth value, or unknown for null. The other operand is named in the
failure. -/
def truth (op : BinaryOp) (operand other : Value) : Except RowError (Option Bool) :=
  match operand with
  | null => .ok none
  | bool b => .ok (some b)
  | _ => .error (mismatch op operand other)

/-- Three-valued conjunction. -/
def conjunction : Option Bool → Option Bool → Option Bool
  | some false, _ => some false
  | _, some false => some false
  | some true, some true => some true
  | _, _ => none

/-- Three-valued disjunction. -/
def disjunction : Option Bool → Option Bool → Option Bool
  | some true, _ => some true
  | _, some true => some true
  | some false, some false => some false
  | _, _ => none

/-- A truth value as a cell value, null for unknown. -/
def ofTruth : Option Bool → Value
  | some b => bool b
  | none => null

/-- A logical operator on two evaluated operands; the left one is examined first. -/
def logical (op : BinaryOp) (table : Option Bool → Option Bool → Option Bool)
    (left right : Value) :
    Except RowError Value := do
  let l ← truth op left right
  let r ← truth op right left
  return ofTruth (table l r)

end Value

/-- The value of an infix operator on two evaluated operands. -/
def BinaryOp.apply (op : BinaryOp) (left right : Value) : Except RowError Value :=
  match op with
  | .add => Value.add left right
  | .sub => Value.subtract left right
  | .mul => Value.multiply left right
  | .div => Value.divide left right
  | .mod => Value.modulo left right
  | .eq => .ok (.bool (Value.equal left right))
  | .ne => .ok (.bool (!Value.equal left right))
  | .lt | .le | .gt | .ge => Value.order op left right
  | .and => Value.logical op Value.conjunction left right
  | .or => Value.logical op Value.disjunction left right
  | .coalesce => .ok (if left.isNull then right else left)

/-- The value of a prefix operator on an evaluated operand. -/
def UnaryOp.apply : UnaryOp → Value → Except RowError Value
  | _, .null => .ok .null
  | .neg, .int n => Value.exact64 .int .sub (-n.toInt)
  | .neg, .float x => .ok (.float (-x))
  | .not, .bool b => .ok (.bool (!b))
  | op, v => .error (.unaryTypeMismatch op v.kind?)

end FormulaTable
