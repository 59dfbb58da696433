import FormulaTable.Formula.Token

/-!
# The grammar of formulas

The grammar as a reader of token lists. From the loosest binding to the tightest, the levels
are

* `condition ? yes : no`,
* `??`, then `||`, then `&&`, each grouping to the left,
* prefix `!`,
* one comparison, which does not chain,
* `+` and `-`, then `*`, `/` and `%`, grouping to the left,
* prefix `-`,
* constants, columns, calls and brackets.

The next token always decides how to go on, so a reader never goes back: it stops for good
at the first token that the grammar does not allow there. Formulas contain formulas only
inside brackets, calls and ternaries; `formula` counts these levels with a budget, and each
level is built from the one below.
-/

namespace FormulaTable.Grammar

/-- A formula whose integers are still as written. -/
abbrev Sketch := Tree WrittenLiteral

/-- Why reading stops. -/
inductive Stop where
  /-- The grammar does not allow the next token; the number of tokens from there to the
  end. -/
  | stuck (remaining : Nat)
  /-- There are more formulas inside one another than the budget allows. -/
  | overBudget
deriving DecidableEq

/-- A reader takes what it reads off the front of a list of tokens. -/
abbrev Reader (α : Type) := List Token → Except Stop (α × List Token)

/-- Reading stops at the front of the list. -/
def stuck {α : Type} (tokens : List Token) : Except Stop (α × List Token) :=
  .error (.stuck tokens.length)

/-- Reads the given token. -/
def expect (t : Token) : Reader Unit
  | [] => stuck []
  | u :: rest => if u = t then .ok ((), rest) else stuck (u :: rest)

/-- Reads pairs of a separator and an item for as long as separators follow, but at most one
pair for each member of the first list. -/
def pairsWithin {σ α : Type} (separator : Token → Option σ) (item : Reader α) :
    List Token → Reader (List (σ × α))
  | [], tokens => .ok ([], tokens)
  | _, [] => .ok ([], [])
  | _ :: budget, t :: rest =>
    match separator t with
    | none => .ok ([], t :: rest)
    | some s => do
      let (a, rest) ← item rest
      let (pairs, rest) ← pairsWithin separator item budget rest
      return ((s, a) :: pairs, rest)

/-- Reads pairs of a separator and an item for as long as separators follow. Every pair
takes a token, so that the tokens themselves are budget enough. -/
def pairs {σ α : Type} (separator : Token → Option σ) (item : Reader α) :
    Reader (List (σ × α)) :=
  fun tokens => pairsWithin separator item tokens tokens

/-- The operator of a token, if it belongs to a level. -/
def operatorIn (level : BinaryOp → Bool) : Token → Option BinaryOp
  | .operator op => if level op then some op else none
  | _ => none

/-- Reads operands joined by the operators of one level; they group to the left. -/
def chain (level : BinaryOp → Bool) (operand : Reader Sketch) : Reader Sketch :=
  fun tokens => do
  let (first, rest) ← operand tokens
  let (links, rest) ← pairs (operatorIn level) operand rest
  return (links.foldl (fun left (op, right) => .binary op left right) first, rest)

/-- Reads an operand after any number of prefix operators. -/
def prefixed (op : UnaryOp) (isMark : Token → Bool) (operand : Reader Sketch) :
    Reader Sketch :=
  fun tokens => do
    let marks := tokens.takeWhile isMark
    let (inner, rest) ← operand (tokens.dropWhile isMark)
    return (marks.foldl (fun t _ => .unary op t) inner, rest)

/-- Reads one operand, or two with a comparison between them. -/
def comparison (operand : Reader Sketch) : Reader Sketch := fun tokens => do
  let (left, rest) ← operand tokens
  match rest with
  | t :: tail =>
    match operatorIn BinaryOp.isComparison t with
    | some op => do
      let (right, rest) ← operand tail
      return (.binary op left right, rest)
    | none => return (left, t :: tail)
  | [] => return (left, [])

/-- Is the token a comma? -/
def commaMark : Token → Option Unit
  | .comma => some ()
  | _ => none

/-- Reads the arguments of a call and the closing bracket. -/
def arguments (formula : Reader Sketch) : Reader (List Sketch)
  | .closeBracket :: rest => .ok ([], rest)
  | tokens => do
    let (first, rest) ← formula tokens
    let (others, rest) ← pairs commaMark formula rest
    let (_, rest) ← expect .closeBracket rest
    return (first :: others.map (·.2), rest)

/-- Reads a constant, a call, a column or a formula in brackets. -/
def primary (formula : Reader Sketch) : Reader Sketch
  | .literal l :: rest => .ok (.literal l, rest)
  | .word name :: .openBracket :: rest => do
    let (args, rest) ← arguments formula rest
    return (.call name args, rest)
  | .word name :: rest => .ok (.column name, rest)
  | .quotedName name :: rest => .ok (.column name, rest)
  | .openBracket :: rest => do
    let (inner, rest) ← formula rest
    let (_, rest) ← expect .closeBracket rest
    return (inner, rest)
  | tokens => stuck tokens

/-- Is the token a minus sign? -/
def isMinus (t : Token) : Bool := t = .operator .sub

/-- Is the token a logical negation? -/
def isNot (t : Token) : Bool := t = .not

/-- The operators that multiply. -/
def isMultiplicative (op : BinaryOp) : Bool := op = .mul || op = .div || op = .mod

/-- The operators that add. -/
def isAdditive (op : BinaryOp) : Bool := op = .add || op = .sub

/-- Prefix minus and what binds tighter. -/
def signed (formula : Reader Sketch) : Reader Sketch :=
  prefixed .neg isMinus (primary formula)

/-- Products, sums and what binds tighter. -/
def sum (formula : Reader Sketch) : Reader Sketch :=
  chain isAdditive (chain isMultiplicative (signed formula))

/-- Negated comparisons and what binds tighter. -/
def negation (formula : Reader Sketch) : Reader Sketch :=
  prefixed .not isNot (comparison (sum formula))

/-- Everything that binds tighter than a ternary. -/
def operand (formula : Reader Sketch) : Reader Sketch :=
  chain (· = .coalesce) (chain (· = .or) (chain (· = .and) (negation formula)))

/-- A formula whose inner formulas are read by `inner`. -/
def ternary (inner : Reader Sketch) : Reader Sketch := fun tokens => do
  let (condition, rest) ← operand inner tokens
  match rest with
  | .question :: rest => do
    let (yes, rest) ← inner rest
    let (_, rest) ← expect .colon rest
    let (no, rest) ← inner rest
    return (.conditional condition yes no, rest)
  | rest => return (condition, rest)

/-- Reads a formula in which at most `budget` formulas are inside one another, itself
included. -/
def formula : Nat → Reader Sketch
  | 0 => fun _ => .error .overBudget
  | budget + 1 => ternary (formula budget)

/-- Reads the whole list as a formula. A formula inside another starts at a later token, so
that the number of tokens is budget enough. -/
def read (tokens : List Token) : Except Stop Sketch := do
  let (t, rest) ← formula (tokens.length + 1) tokens
  if rest.isEmpty then return t else .error (.stuck rest.length)

end FormulaTable.Grammar
