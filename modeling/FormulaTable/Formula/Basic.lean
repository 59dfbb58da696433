import FormulaTable.Names
import FormulaTable.Operator
import FormulaTable.Value.Basic

/-!
# Formulas

The tree of a formula. Its leaves are literals and names of columns; the type of literals is
a parameter, because a formula is first read with its integers as written, and only then
with their values.
-/

namespace FormulaTable

/-- The constants that a formula may contain. -/
inductive Literal where
  | null
  | bool (b : Bool)
  | int (n : Int64)
  | float (x : Float)
  | text (s : String)
deriving DecidableEq

/-- The value of a constant. -/
def Literal.value : Literal → Value
  | null => .null
  | bool b => .bool b
  | int n => .int n
  | float x => .float x
  | text s => .text s

/-- A formula with constants from `α`. -/
inductive Tree (α : Type) where
  | literal (l : α)
  | column (name : String)
  | unary (op : UnaryOp) (operand : Tree α)
  | binary (op : BinaryOp) (left right : Tree α)
  /-- `condition ? yes : no`. -/
  | conditional (condition yes no : Tree α)
  | call (name : String) (args : List (Tree α))

/-- A formula. -/
abbrev Formula := Tree Literal

namespace Tree

variable {α : Type}

/-- The parts directly below the root. -/
def children : Tree α → List (Tree α)
  | literal _ => []
  | column _ => []
  | unary _ operand => [operand]
  | binary _ left right => [left, right]
  | conditional condition yes no => [condition, yes, no]
  | call _ args => args

mutual

/-- The number of nodes. -/
def size : Tree α → Nat
  | literal _ => 1
  | column _ => 1
  | unary _ operand => operand.size + 1
  | binary _ left right => left.size + right.size + 1
  | conditional condition yes no => condition.size + yes.size + no.size + 1
  | call _ args => sizeOfAll args + 1

/-- The number of nodes of several trees. -/
def sizeOfAll : List (Tree α) → Nat
  | [] => 0
  | t :: ts => t.size + sizeOfAll ts

end

/-- The nodes of several trees are counted one list after the other. -/
theorem sizeOfAll_append (ts us : List (Tree α)) :
    sizeOfAll (ts ++ us) = sizeOfAll ts + sizeOfAll us := by
  induction ts with
  | nil => rw [List.nil_append, sizeOfAll, Nat.zero_add]
  | cons t ts ih => rw [List.cons_append, sizeOfAll, sizeOfAll, ih, Nat.add_assoc]

/-- The order of several trees does not matter for the number of their nodes. -/
theorem sizeOfAll_reverse (ts : List (Tree α)) : sizeOfAll ts.reverse = sizeOfAll ts := by
  induction ts with
  | nil => rfl
  | cons t ts ih =>
      rw [List.reverse_cons, sizeOfAll_append, ih, sizeOfAll, sizeOfAll, sizeOfAll]
      omega

/-- A tree has one node more than the parts below its root. -/
theorem size_eq (t : Tree α) : t.size = sizeOfAll t.children + 1 := by
  cases t with
  | literal _ | column _ | unary _ _ | call _ _ => rfl
  | binary _ _ _ | conditional _ _ _ =>
      simp only [size, children, sizeOfAll]
      omega

mutual

/-- The number of nodes on the longest way down from the root. -/
def depth : Tree α → Nat
  | literal _ => 1
  | column _ => 1
  | unary _ operand => operand.depth + 1
  | binary _ left right => max left.depth right.depth + 1
  | conditional condition yes no => max condition.depth (max yes.depth no.depth) + 1
  | call _ args => depthOfAll args + 1

/-- The depth of the deepest of several trees. -/
def depthOfAll : List (Tree α) → Nat
  | [] => 0
  | t :: ts => max t.depth (depthOfAll ts)

end

mutual

/-- The names of the columns below the root, from left to right, with repetitions. -/
def mentions : Tree α → List String
  | literal _ => []
  | column name => [name]
  | unary _ operand => operand.mentions
  | binary _ left right => left.mentions ++ right.mentions
  | conditional condition yes no => condition.mentions ++ yes.mentions ++ no.mentions
  | call _ args => mentionsOfAll args

/-- The names of the columns in several trees, from left to right. -/
def mentionsOfAll : List (Tree α) → List String
  | [] => []
  | t :: ts => t.mentions ++ mentionsOfAll ts

end

end Tree

/-- The columns that a formula refers to, in the order of their first appearance. -/
def Tree.columns {α : Type} (t : Tree α) : List String := firstOccurrences t.mentions

end FormulaTable
