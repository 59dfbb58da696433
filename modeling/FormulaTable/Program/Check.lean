import FormulaTable.Formula.Basic
import FormulaTable.Program.Callable

/-!
# Checking a formula

Formulas come from outside. Before one is resolved, every call in it is looked up and its
number of arguments is checked, and no node may be deeper than the limit. A node is checked
before what is below it, and of several parts the last one is checked first; the first fault
found is reported. The check goes down by recursion in `check`, and with a stack of its own
in `checkStack`.
-/

namespace FormulaTable.Formula

/-- Refuses a call of a name that stands for nothing, or with an unsuitable number of
arguments. -/
def checkCall (env : Environment) (name : String) (count : Nat) : Except Error Unit :=
  match env.find? name with
  | none => .error (.forbiddenCall name)
  | some callable =>
    if callable.count.allows count then .ok ()
      else .error (.argumentCount name callable.count count)

/-- Refuses a node below the limit. -/
def checkDepth (limit depth : Nat) : Except Error Unit :=
  if limit < depth then .error (.nestingTooDeep limit) else .ok ()

mutual

/-- Checks a formula whose root is at the given depth. -/
def checkAt (env : Environment) (limit depth : Nat) : Formula → Except Error Unit
  | .literal _ => checkDepth limit depth
  | .column _ => checkDepth limit depth
  | .unary _ operand => do
    checkDepth limit depth
    checkAt env limit (depth + 1) operand
  | .binary _ left right => do
    checkDepth limit depth
    checkAt env limit (depth + 1) right
    checkAt env limit (depth + 1) left
  | .conditional condition yes no => do
    checkDepth limit depth
    checkAt env limit (depth + 1) no
    checkAt env limit (depth + 1) yes
    checkAt env limit (depth + 1) condition
  | .call name args => do
    checkDepth limit depth
    checkCall env name args.length
    checkAllAt env limit (depth + 1) args

/-- Checks several formulas, the last one first. -/
def checkAllAt (env : Environment) (limit depth : Nat) : List Formula → Except Error Unit
  | [] => .ok ()
  | f :: rest => do
    checkAllAt env limit depth rest
    checkAt env limit depth f

end

/-- Checks a formula against what may be called and how deep it may be. -/
def check (env : Environment) (limit : Nat) (f : Formula) : Except Error Unit :=
  checkAt env limit 1 f

/-- Checks a node without the parts below it. -/
def checkNode (env : Environment) (limit depth : Nat) (f : Formula) : Except Error Unit :=
  do
  checkDepth limit depth
  match f with
  | .call name args => checkCall env name args.length
  | _ => return ()

/-- Checks the formulas on a stack, each one with the depth of its root. A node makes room
for its parts, of which the last one comes to lie on top. -/
def checkStack (env : Environment) (limit : Nat) : List (Formula × Nat) → Except Error Unit
  | [] => .ok ()
  | (f, depth) :: stack => do
    checkNode env limit depth f
    checkStack env limit ((f.children.map fun child => (child, depth + 1)).reverse ++ stack)
termination_by stack => Tree.sizeOfAll (stack.map Prod.fst)
decreasing_by
  have hparts : (f.children.map fun child => (child, depth + 1)).map Prod.fst =
      f.children := by
    rw [List.map_map]
    exact List.map_id _
  rw [List.map_append, List.map_reverse, hparts, List.map_cons, Tree.sizeOfAll_append,
    Tree.sizeOfAll_reverse, Tree.sizeOfAll, f.size_eq]
  omega

end FormulaTable.Formula
