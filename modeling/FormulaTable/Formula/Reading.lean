import FormulaTable.Error
import FormulaTable.Formula.Grammar
import FormulaTable.Formula.Nesting

/-!
# Reading a formula

`Formula.parse` turns a text into a formula no deeper than a limit. The text's nesting is
checked first, then its grammar; last, the integers get their values while the depth of
every node is checked on the way down. The first fault in this order, and from left to
right, is the one reported.
-/

namespace FormulaTable

/-- The depth that formulas may have unless a configuration says otherwise. -/
def defaultDepthLimit : Nat := 100

/-- Why a formula with the grammar's blessing is refused. -/
inductive SketchFault where
  | tooDeep
  | integerOutOfRange (digits : List Char)
deriving DecidableEq

/-- The value of a written constant. -/
def WrittenLiteral.resolve : WrittenLiteral → Except SketchFault Literal
  | .known l => .ok l
  | .integer digits =>
    match int64? (Decimal.digitsValue digits) with
    | some n => .ok (.int n)
    | none => .error (.integerOutOfRange digits)

namespace Grammar

mutual

/-- The formula with the values of its constants, where `depth` is the depth of its root and
no node may be deeper than `limit`. -/
def resolve (limit : Nat) (depth : Nat) : Sketch → Except SketchFault Formula
  | .literal l => do
    if limit < depth then throw .tooDeep
    return .literal (← l.resolve)
  | .column name => do
    if limit < depth then throw .tooDeep
    return .column name
  | .unary op operand => do
    if limit < depth then throw .tooDeep
    return .unary op (← resolve limit (depth + 1) operand)
  | .binary op left right => do
    if limit < depth then throw .tooDeep
    let left ← resolve limit (depth + 1) left
    let right ← resolve limit (depth + 1) right
    return .binary op left right
  | .conditional condition yes no => do
    if limit < depth then throw .tooDeep
    let condition ← resolve limit (depth + 1) condition
    let yes ← resolve limit (depth + 1) yes
    let no ← resolve limit (depth + 1) no
    return .conditional condition yes no
  | .call name args => do
    if limit < depth then throw .tooDeep
    return .call name (← resolveAll limit (depth + 1) args)

/-- The formulas with the values of their constants, from left to right. -/
def resolveAll (limit : Nat) (depth : Nat) : List Sketch → Except SketchFault (List Formula)
  | [] => return []
  | t :: ts => do
    let first ← resolve limit depth t
    let others ← resolveAll limit depth ts
    return first :: others

end

end Grammar

namespace Formula

/-- The place in a text where the given end of it starts. -/
def positionAt (text ending : List Char) : Position :=
  Position.after (text.take (text.length - ending.length))

/-- The place where reading stopped, `remaining` tokens before the end. -/
def positionOfStop (text : List Char) (lexemes : List Lexeme) (remaining : Nat) :
    Position :=
  match lexemes[lexemes.length - remaining]? with
  | some l => positionAt text l.text
  | none => positionAt text []

/-- Is this the token of an integer that does not fit? -/
def isOutOfRange : Token → Bool
  | .literal (.integer digits) => (int64? (Decimal.digitsValue digits)).isNone
  | _ => false

/-- The place of the first integer that does not fit. -/
def positionOfOverflow (text : List Char) (lexemes : List Lexeme) : Position :=
  match lexemes.find? fun l => isOutOfRange l.token with
  | some l => positionAt text l.text
  | none => positionAt text text

/-- Reads the characters of a formula no deeper than `limit`. -/
def parseChars (limit : Nat) (text : List Char) : Except Error Formula :=
  if !Nesting.within limit text then .error (.nestingTooDeep limit)
  else
    let lexemes := Token.lexemes text
    match Grammar.read (lexemes.map (·.token)) with
    | .error (.stuck remaining) =>
      .error (.syntaxError (positionOfStop text lexemes remaining) .unexpected)
    | .error .overBudget => .error (.nestingTooDeep limit)
    | .ok sketch =>
      match Grammar.resolve limit 1 sketch with
      | .ok formula => .ok formula
      | .error .tooDeep => .error (.nestingTooDeep limit)
      | .error (.integerOutOfRange digits) =>
        .error (.syntaxError (positionOfOverflow text lexemes)
          (.integerOutOfRange (String.ofList digits)))

/-- Reads a formula no deeper than `limit`. -/
def parse (limit : Nat) (text : String) : Except Error Formula :=
  parseChars limit text.toList

end Formula

end FormulaTable
