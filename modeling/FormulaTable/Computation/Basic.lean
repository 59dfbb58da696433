import FormulaTable.Config
import FormulaTable.Function.Standard
import FormulaTable.Program.Basic
import FormulaTable.Program.Check

/-!
# Computations

A computation is a formula made ready to run on columns: its text has been read and checked,
the columns it reads are in a fixed order, and the kind of its results is known. A `Draft`
is what a computation is made from. Computations can be joined by the logical operators: the
texts are put between brackets and read again.
-/

namespace FormulaTable

/-- A formula ready to run. -/
structure Computation where
  /-- The text of the formula. -/
  source : String
  /-- The columns that the formula reads, without repetition. -/
  inputs : List String
  /-- The kind of the results. -/
  kind : Kind
  program : Program
  registry : Registry
  config : Config

/-- What a computation is made from. -/
structure Draft where
  source : String
  /-- The inputs in order; if they are not given, the columns of the formula are. -/
  inputs : Option (List String)
  kind : Option Kind
  /-- The functions that may be called; if they are not given, the standard ones. -/
  registry : Option Registry
  config : Config

namespace Draft

/-- A draft with nothing but its text. -/
def ofText (source : String) : Draft := ⟨source, none, none, none, Config.standard⟩

/-- What the formula may call. -/
def environment (registry : Registry) (config : Config) : Environment :=
  .permitting (if config.callsRegistry then some registry else none)

/-- The inputs: those that are given, if none is listed twice, or else the columns of the
formula. -/
def chooseInputs (given : Option (List String)) (formula : Formula) :
    Except Error (List String) :=
  match given with
  | none => .ok formula.columns
  | some inputs =>
    match firstRepeat? inputs with
    | some name => .error (.invalidDefinition (.repeatedInput name))
    | none => .ok inputs

/-- The computation of a draft. -/
def compile (d : Draft) : Except Error Computation := do
  if Text.isBlankText d.source then throw .emptyFormula
  match d.kind with
  | none => throw .missingOutputKind
  | some kind =>
    d.config.validate
    let formula ← Formula.parse d.config.depthLimit d.source
    let registry := d.registry.getD .standard
    let env := environment registry d.config
    formula.check env d.config.depthLimit
    let inputs ← chooseInputs d.inputs formula
    return ⟨d.source, inputs, kind, .ofFormula env inputs formula, registry, d.config⟩

end Draft

namespace Computation

/-- Is the column one of the inputs? -/
def reads (c : Computation) (column : String) : Bool := c.inputs.contains column

/-- The computation of a truth value from another text, with the functions and settings of
`c`. -/
def recompile (c : Computation) (source : String) (inputs : List String) :
    Except Error Computation :=
  Draft.compile ⟨source, some inputs, some .bool, some c.registry, c.config⟩

/-- Two computations joined by an infix operator. -/
def join (op : BinaryOp) (a b : Computation) : Except Error Computation :=
  a.recompile ("(" ++ a.source ++ ") " ++ op.symbol ++ " (" ++ b.source ++ ")")
    (mergeNames a.inputs b.inputs)

/-- Both hold. -/
def and (a b : Computation) : Except Error Computation := join .and a b

/-- At least one holds. -/
def or (a b : Computation) : Except Error Computation := join .or a b

/-- The computation does not hold. -/
def not (a : Computation) : Except Error Computation :=
  a.recompile (UnaryOp.not.symbol ++ "(" ++ a.source ++ ")") a.inputs

/-- The text of a computation in diagnostics. -/
def description (c : Computation) : String :=
  "Expression \x7b source: " ++ Text.quoted c.source ++ ", inputs: " ++
    Text.quotedList c.inputs ++ ", output_type: " ++ c.kind.tag ++ ", .. \x7d"

end Computation

end FormulaTable
