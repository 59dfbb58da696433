import FormulaTable.Formula.Position
import FormulaTable.Series.ElementType

/-!
# Errors

The causes for which an operation is refused, and their wording. Every error leaves the
table as it was. `Error.isDefinition` marks those that reject a column or an edit of one,
and `Error.isCompile` those that reject a formula.
-/

namespace FormulaTable

/-- What is wrong with the definition of a column or a formula. -/
inductive DefinitionFault where
  | blankName
  /-- The column has neither stored data nor a formula. -/
  | noContent (name : String)
  /-- The column is declared of another kind than its formula produces. -/
  | kindMismatch (name : String) (declared produced : Kind)
  /-- An input of the formula is listed twice. -/
  | repeatedInput (name : String)
  /-- There is no stored data to return to. -/
  | notStored (name : String)
  /-- There is no formula to evaluate. -/
  | notComputed (name : String)
  /-- A computed column is read while it has no values yet. -/
  | readTooEarly (name : String)

/-- What is wrong with the text of a formula. -/
inductive SyntaxFault where
  /-- The text does not go on as the grammar demands. -/
  | unexpected
  /-- A written integer does not fit 64 bits. -/
  | integerOutOfRange (digits : String)

/-- How many arguments a function takes. -/
structure ArgumentCount where
  least : Nat
  /-- The greatest number, if there is one. -/
  most : Option Nat
deriving DecidableEq

/-- Does a number of arguments suit? -/
def ArgumentCount.allows (a : ArgumentCount) (count : Nat) : Bool :=
  a.least ≤ count && a.most.all (count ≤ ·)

/-- The wording of a number of arguments. -/
def ArgumentCount.description (a : ArgumentCount) : String :=
  match a.most with
  | some most => if most = a.least then toString most
    else toString a.least ++ " to " ++ toString most
  | none => "at least " ++ toString a.least

/-- What is wrong with stored columns. -/
inductive DataFault where
  /-- The opposite of an integer does not fit its width. -/
  | negationOverflow (n : Int)
  /-- Numbers without a sign have no opposite. -/
  | unsignedNegation (type : ElementType)
  /-- The columns of a table differ in length. -/
  | unequalLengths
  /-- A table without columns has no number of rows. -/
  | noColumns

/-- What is wrong with a configuration. -/
inductive ConfigFault where
  /-- The document is not a configuration. -/
  | invalidDocument
  /-- No formula could be compiled. -/
  | zeroDepth

/-- Why an operation is refused. -/
inductive Error where
  | duplicateColumn (name : String)
  | unknownColumn (name : String)
  | invalidDefinition (fault : DefinitionFault)
  | missingOutputKind
  | emptyFormula
  /-- The columns on the path each read the next; the first one is also the last. -/
  | cycle (path : List String)
  | columnInUse (column : String) (dependents : List String)
  | passThroughRemoval (name : String)
  | syntaxError (position : Position) (fault : SyntaxFault)
  | argumentCount (function : String) (expected : ArgumentCount) (actual : Nat)
  | forbiddenCall (name : String)
  | nestingTooDeep (limit : Nat)
  | inputCount (expected actual : Nat)
  | inputLength (column : String) (expected actual : Nat)
  | unsupportedInput (column : String) (type : ElementType)
  | outputKind (expected : Kind) (actual : Option Kind)
  | invalidRow (row count : Nat)
  | invalidColumn (column count : Nat)
  | functionNotFound (name : String)
  | functionFailed (name message : String)
  | data (fault : DataFault)
  | config (fault : ConfigFault)

/-- The wording of a faulty definition. -/
def DefinitionFault.message : DefinitionFault → String
  | blankName => "column name cannot be empty"
  | noContent name => "column '" ++ name ++ "' needs a source column or an expression"
  | kindMismatch name declared produced =>
    "column '" ++ name ++ "' is declared " ++ declared.name ++
      " but its expression produces " ++ produced.name
  | repeatedInput name => "input column '" ++ name ++ "' listed twice"
  | notStored name => "column '" ++ name ++ "' has no storage column; remove it instead"
  | notComputed name => "column '" ++ name ++ "' is not computed"
  | readTooEarly name => "column '" ++ name ++ "' read before it was computed"

/-- The wording of a fault in a formula's text. -/
def SyntaxFault.message : SyntaxFault → String
  | unexpected => "unexpected input"
  | integerOutOfRange digits => "Integer out of range: " ++ digits

/-- The wording of a fault in stored columns. -/
def DataFault.message : DataFault → String
  | negationOverflow n => "Arithmetic overflow: Overflow happened on: - " ++ toString n
  | unsignedNegation type =>
    "Invalid argument error: Invalid arithmetic operation: !" ++ type.name
  | unequalLengths =>
    "Invalid argument error: all columns in a record batch must have the same length"
  | noColumns =>
    "Invalid argument error: must either specify a row count or at least one column"

/-- The wording of a faulty configuration. -/
def ConfigFault.message : ConfigFault → String
  | invalidDocument => "invalid config document"
  | zeroDepth => "max_nesting_depth must be greater than 0"

namespace Error

/-- The wording of an error. -/
def message : Error → String
  | duplicateColumn name => "Duplicate column name '" ++ name ++ "'"
  | unknownColumn name => "Unknown column '" ++ name ++ "'"
  | invalidDefinition fault => "Invalid column definition: " ++ fault.message
  | missingOutputKind => "Expression output type must be specified"
  | emptyFormula => "Expression text cannot be empty"
  | cycle path => "Dependency cycle detected: " ++ " -> ".intercalate path
  | columnInUse column dependents =>
    "Column '" ++ column ++ "' is still used by: " ++ ", ".intercalate dependents
  | passThroughRemoval name =>
    "Column '" ++ name ++ "' is a pass-through of a storage column and cannot be removed"
  | syntaxError position fault =>
    "Parse error at line " ++ toString position.line ++ ", column " ++
      toString position.column ++ ": " ++ fault.message
  | argumentCount name expected actual =>
    "Function '" ++ name ++ "' expects " ++ expected.description ++ " arguments, got " ++
      toString actual
  | forbiddenCall name => "Security violation: call to '" ++ name ++ "' is not permitted"
  | nestingTooDeep limit => "Security violation: nesting depth exceeds limit of " ++
    toString limit
  | inputCount expected actual =>
    "Expected " ++ toString expected ++ " input columns, got " ++ toString actual
  | inputLength column expected actual =>
    "Input column '" ++ column ++ "' has " ++ toString actual ++ " rows, expected " ++
      toString expected
  | unsupportedInput column type =>
    "Input column '" ++ column ++ "' has unsupported type " ++ type.name
  | outputKind expected actual =>
    "Output type error: expected " ++ expected.name ++ ", got " ++ Kind.nameOrNull actual
  | invalidRow row count =>
    "Invalid row " ++ toString row ++ " (row count " ++ toString count ++ ")"
  | invalidColumn column count =>
    "Invalid column " ++ toString column ++ " (column count " ++ toString count ++ ")"
  | functionNotFound name => "Function not found: " ++ name
  | functionFailed name message => "Function '" ++ name ++ "' failed: " ++ message
  | data fault => "Arrow error: " ++ fault.message
  | config fault => "Configuration error: " ++ fault.message

/-- Does the error reject a column or an edit of one? -/
def isDefinition : Error → Bool
  | duplicateColumn _ | unknownColumn _ | invalidDefinition _ | missingOutputKind
  | emptyFormula | cycle _ | columnInUse _ _ | passThroughRemoval _ => true
  | _ => false

/-- Does the error reject a formula? -/
def isCompile : Error → Bool
  | syntaxError _ _ | argumentCount _ _ _ | forbiddenCall _ | nestingTooDeep _ => true
  | _ => false

end Error

end FormulaTable
