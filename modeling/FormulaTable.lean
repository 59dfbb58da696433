import FormulaTable.Text.Quoted
import FormulaTable.Decimal.Reader
import FormulaTable.Decimal.Layout
import FormulaTable.Binary.Round
import FormulaTable.Calendar.Interchange
import FormulaTable.Value.Conversion
import FormulaTable.Value.Operation
import FormulaTable.Series.Basic
import FormulaTable.Formula.Nesting
import FormulaTable.Formula.Position
import FormulaTable.Formula.Reading
import FormulaTable.Formula.Phrase
import FormulaTable.Formula.Matching
import FormulaTable.Series.Builder
import FormulaTable.Series.Cast
import FormulaTable.Function.Standard
import FormulaTable.Config
import FormulaTable.Table.Cell
import FormulaTable.Computation.Evaluation
import FormulaTable.Computation.InPlace
import FormulaTable.Table.Stack
import FormulaTable.Proofs.Result
import FormulaTable.Proofs.Access
import FormulaTable.Proofs.Column
import FormulaTable.Proofs.Dependency.Build
import FormulaTable.Proofs.Dependency.Acyclic
import FormulaTable.Proofs.Dependency.Closure
import FormulaTable.Proofs.Dependency.Order
import FormulaTable.Proofs.Computation.Compile
import FormulaTable.Proofs.Computation.Evaluation
import FormulaTable.Proofs.Table.View
import FormulaTable.Proofs.Table.Definition
import FormulaTable.Proofs.Table.Run
import FormulaTable.Proofs.Table.Slots
import FormulaTable.Proofs.Table.Reading
import FormulaTable.Proofs.Table.Edit
import FormulaTable.Proofs.Table.Structure
import FormulaTable.Proofs.Table.Coherence
import FormulaTable.Proofs.Table.Progress
import FormulaTable.Proofs.Table.Contract
import FormulaTable.Proofs.Table.Unmarked
import FormulaTable.Proofs.Table.Marker
import FormulaTable.Proofs.Table.InPlace
import FormulaTable.Proofs.Dependency.Change
import FormulaTable.Proofs.Table.Acceptance
import FormulaTable.Proofs.Dependency.Transport
import FormulaTable.Proofs.Table.Correspondence
import FormulaTable.Proofs.Table.Invalidation
import FormulaTable.Proofs.Table.Evaluations
import FormulaTable.Proofs.Table.Ledger
import FormulaTable.Proofs.Table.Thrift
import FormulaTable.Proofs.Formula.Parts
import FormulaTable.Proofs.Program.Check
import FormulaTable.Proofs.Program.Builtin
import FormulaTable.Proofs.Program.Lowering
import FormulaTable.Proofs.Formula.Lexing
import FormulaTable.Proofs.Formula.Reader
import FormulaTable.Proofs.Formula.Precedence
import FormulaTable.Proofs.Formula.Spelling
import FormulaTable.Proofs.Formula.RoundTrip
import FormulaTable.Proofs.Formula.Reading
import FormulaTable.Proofs.Computation.Whitelist
import FormulaTable.Proofs.Program.Meaning
import FormulaTable.Proofs.Computation.Inputs
import FormulaTable.Proofs.Computation.Preservation
import FormulaTable.Proofs.Formula.Joining
import FormulaTable.Proofs.Computation.Composition
import FormulaTable.Proofs.Computation.Splicing
import FormulaTable.Proofs.Value.Arithmetic
import FormulaTable.Proofs.Binary.Number
import FormulaTable.Proofs.Binary.Double
import FormulaTable.Proofs.Computation.Containment
import FormulaTable.Proofs.Table.ReadPaths
import FormulaTable.Proofs.Formula.Nesting
import FormulaTable.Proofs.Formula.Depth
import FormulaTable.Proofs.Formula.Building
import FormulaTable.Proofs.Formula.Terminals
import FormulaTable.Proofs.Formula.Leaves
import FormulaTable.Proofs.Formula.Scanning
import FormulaTable.Proofs.Formula.Bound
import FormulaTable.Proofs.Formula.Agreement
import FormulaTable.Proofs.Formula.Matching
import FormulaTable.Dependency.Linked
import FormulaTable.Dependency.Traversal
import FormulaTable.Proofs.Dependency.Search
import FormulaTable.Proofs.Dependency.Linking
import FormulaTable.Proofs.Dependency.Outcome
import FormulaTable.Proofs.Dependency.Countdown
import FormulaTable.Proofs.Dependency.Least
import FormulaTable.Proofs.Dependency.Restriction
import FormulaTable.Proofs.Dependency.Appending
import FormulaTable.Proofs.Dependency.Traversal
import FormulaTable.Proofs.Table.Flattening
import FormulaTable.Proofs.Table.Stacking
import FormulaTable.Proofs.Table.Hits
import FormulaTable.Proofs.Table.Determinism
import FormulaTable.Proofs.Table.Reverting
import FormulaTable.Proofs.Function.Elementwise
import FormulaTable.Proofs.Program.Course
import FormulaTable.Proofs.Program.Surface
import FormulaTable.Proofs.Series.Reading
import FormulaTable.Proofs.Program.Extreme
import FormulaTable.Proofs.Value.Conversion
import FormulaTable.Proofs.Program.Strictness
import FormulaTable.Proofs.Value.Identity
import FormulaTable.Proofs.Value.Mismatch
import FormulaTable.Proofs.Computation.IntegerText
import FormulaTable.Proofs.Table.Serialization
