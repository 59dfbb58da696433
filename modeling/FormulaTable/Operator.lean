import FormulaTable.Text.Case

/-!
# Operators of the formula language

The prefix and infix operators, their canonical symbols, and the spellings that stand for
them.
-/

namespace FormulaTable

/-- Prefix operators. -/
inductive UnaryOp where
  /-- Arithmetic negation. -/
  | neg
  /-- Logical negation. -/
  | not
deriving DecidableEq

/-- Infix operators. -/
inductive BinaryOp where
  | add
  | sub
  | mul
  | div
  | mod
  | eq
  | ne
  | lt
  | le
  | gt
  | ge
  | and
  | or
  /-- The left operand, or the right one where the left one is null. -/
  | coalesce
deriving DecidableEq

/-- The symbol of a prefix operator. -/
def UnaryOp.symbol : UnaryOp → String
  | .neg => "-"
  | .not => "!"

namespace BinaryOp

/-- The canonical symbol of an infix operator. -/
def symbol : BinaryOp → String
  | add => "+"
  | sub => "-"
  | mul => "*"
  | div => "/"
  | mod => "%"
  | eq => "=="
  | ne => "!="
  | lt => "<"
  | le => "<="
  | gt => ">"
  | ge => ">="
  | and => "&&"
  | or => "||"
  | coalesce => "??"

/-- Does the operator compare its operands? -/
def isComparison : BinaryOp → Bool
  | eq | ne | lt | le | gt | ge => true
  | _ => false

/-- Every infix operator. -/
def all : List BinaryOp :=
  [add, sub, mul, div, mod, eq, ne, lt, le, gt, ge, and, or, coalesce]

/-- The spellings beside the canonical symbols. -/
def synonyms : List (String × BinaryOp) :=
  [("=", eq), ("<>", ne), ("and", and), ("or", or)]

/-- The operator that a spelling stands for; words may be in any case. -/
def ofSpelling? (spelling : String) : Option BinaryOp :=
  let folded := Text.foldName spelling
  all.find? (·.symbol = folded) <|> synonyms.lookup folded

end BinaryOp

end FormulaTable
