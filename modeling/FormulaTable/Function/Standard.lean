import FormulaTable.Function.Numeric
import FormulaTable.Function.Registry
import FormulaTable.Series.Cast
import FormulaTable.Text.Case

/-!
# The standard functions

The functions that a registry holds unless others are asked for: mathematics, texts, casts
and reductions.
-/

namespace FormulaTable

namespace SeriesFunction

/-- The texts of a column of texts. -/
def textsOf (s : Series) : List (Option String) :=
  s.elements.map fun e =>
    match e with
    | some (.text t) => some t
    | _ => none

/-- A function on texts, applied to every element. -/
def text (name : String) (f : String → String) : SeriesFunction :=
  unary name .string (requireText name) (fun _ => .utf8) fun s => do
    requireText name s.type
    return Series.ofCells .string ((textsOf s).map (·.map f)).toArray

/-- The number of bytes of every text. -/
def length : SeriesFunction :=
  unary "length" .string (requireText "length") (fun _ => .int32) fun s => do
    requireText "length" s.type
    let lengths := (textsOf s).map (·.map fun t => Int32.ofNat t.utf8ByteSize)
    return ⟨.int32, lengths.toArray⟩

/-- The cast of a column to a kind. -/
def cast (name : String) (target : Kind) : SeriesFunction :=
  let accept (source : ElementType) : Except Error Unit :=
    if source.castsTo target then .ok ()
    else failed name ("cannot cast " ++ source.name ++ " to " ++ target.elementType.name)
  unary name .cast accept (fun _ => target.elementType) fun s =>
    match s.cast target with
    | .ok result => .ok result
    | .error fault => failed name fault.message

/-- The standard functions. -/
def standard : List SeriesFunction :=
  [math "sqrt" Float.sqrt, math "exp" Float.exp, math "ln" Float.log,
   math "log10" Float.log10, negate,
   text "upper" Text.upper, text "lower" Text.lower, text "trim" Text.trim, length,
   cast "to_int64" .int64, cast "to_float64" .float64, cast "to_utf8" .string,
   cast "to_date" .date,
   reduction "sum" Reduction.sum?, reduction "min" Reduction.min?,
   reduction "max" Reduction.max?, count, reduction "mean" Reduction.mean?]

end SeriesFunction

/-- The registry of the standard functions. -/
def Registry.standard : Registry := Registry.ofList SeriesFunction.standard

end FormulaTable
