import FormulaTable.Formula.Reading

/-!
# Phrases of a formula

What a text is matched as before a formula is built from it: a chain keeps its links in a
row, and prefix operators are counted. The formula of a phrase nests what stands in a row,
so that its depth can be told only from the phrases in it. `Phrase.build` still refuses a
formula that is too deep before it is there: while it folds a chain, it keeps track of the
depth at which each operand will end up.
-/

namespace FormulaTable

/-- What a text is matched as. -/
inductive Phrase where
  | literal (l : WrittenLiteral)
  | column (name : String)
  | call (name : String) (args : List Phrase)
  /-- Operands joined by operators of one level; there may be just the first operand. -/
  | chain (first : Phrase) (links : List (BinaryOp × Phrase))
  /-- An operand after any number of the same prefix operator. -/
  | prefixed (op : UnaryOp) (marks : Nat) (operand : Phrase)
  | comparison (op : BinaryOp) (left right : Phrase)
  | conditional (condition yes no : Phrase)

/-- The tree under a number of the same prefix operator. -/
def Tree.prefixed {α : Type} (op : UnaryOp) : Nat → Tree α → Tree α
  | 0, t => t
  | marks + 1, t => prefixed op marks (.unary op t)

namespace Phrase

open Grammar (Sketch)

mutual

/-- The formula of a phrase, with its constants as written. Chains group to the left. -/
def sketch : Phrase → Sketch
  | literal l => .literal l
  | column name => .column name
  | call name args => .call name (sketchAll args)
  | chain first links => sketchLinks first.sketch links
  | prefixed op marks operand => operand.sketch.prefixed op marks
  | comparison op left right => .binary op left.sketch right.sketch
  | conditional condition yes no => .conditional condition.sketch yes.sketch no.sketch

/-- The formulas of several phrases. -/
def sketchAll : List Phrase → List Sketch
  | [] => []
  | p :: ps => p.sketch :: sketchAll ps

/-- The formula of a chain whose links up to here are read. -/
def sketchLinks (left : Sketch) : List (BinaryOp × Phrase) → Sketch
  | [] => left
  | (op, p) :: links => sketchLinks (.binary op left p.sketch) links

end

/-- Refuses a node below the limit. -/
def checkDepth (limit depth : Nat) : Except SketchFault Unit :=
  if limit < depth then .error .tooDeep else .ok ()

mutual

/-- The formula of a phrase, no node of which is deeper than `limit`, where `depth` is the
depth of its root. A chain is refused before any of it is built if its first operand would
be too deep. -/
def build (limit depth : Nat) : Phrase → Except SketchFault Formula
  | literal l => do
    checkDepth limit depth
    return .literal (← l.resolve)
  | column name => do
    checkDepth limit depth
    return .column name
  | call name args => do
    checkDepth limit depth
    return .call name (← buildAll limit (depth + 1) args)
  | chain first links => do
    checkDepth limit depth
    checkDepth limit (depth + links.length)
    let left ← build limit (depth + links.length) first
    buildLinks limit (depth + links.length) left links
  | prefixed op marks operand => do
    checkDepth limit depth
    return (← build limit (depth + marks) operand).prefixed op marks
  | comparison op left right => do
    checkDepth limit depth
    let left ← build limit (depth + 1) left
    let right ← build limit (depth + 1) right
    return .binary op left right
  | conditional condition yes no => do
    checkDepth limit depth
    let condition ← build limit (depth + 1) condition
    let yes ← build limit (depth + 1) yes
    let no ← build limit (depth + 1) no
    return .conditional condition yes no

/-- The formulas of several phrases, from left to right. -/
def buildAll (limit depth : Nat) : List Phrase → Except SketchFault (List Formula)
  | [] => return []
  | p :: ps => do
    let first ← build limit depth p
    let others ← buildAll limit depth ps
    return first :: others

/-- The formula of a chain whose links up to here are built. The right operand of the next
link is at the given level, and those after it are each a level higher. -/
def buildLinks (limit level : Nat) (left : Formula) :
    List (BinaryOp × Phrase) → Except SketchFault Formula
  | [] => return left
  | (op, p) :: links => do
    let right ← build limit level p
    buildLinks limit (level - 1) (.binary op left right) links

end

end Phrase

end FormulaTable
