import FormulaTable.Function.Registry
import FormulaTable.Program.Builtin

/-!
# What a formula may call

A formula may call the built-in functions and, where that is allowed, the registered
functions that treat every row by itself. Nothing else can be called: a name is looked up in
this list before the formula is accepted, without regard to the case of ASCII letters. Where
a registered function has the name of a built-in one, the built-in one is called.

A registered function works on columns. Called on a row it gets columns of one element each,
and it is not called at all when an argument is null.
-/

namespace FormulaTable

/-- The column whose only element is the given value. -/
def Value.toSeries : Value → Series
  | .null => ⟨.null, #[none]⟩
  | .int n => Series.singleton .int64 (some n)
  | .float x => Series.singleton .float64 (some x)
  | .bool b => Series.singleton .bool (some b)
  | .text s => Series.singleton .string (some s)
  | .date day => Series.singleton .date (some day)
  | .timestamp micros => Series.singleton .timestamp (some micros)

namespace SeriesFunction

/-- A failure on columns as a failure of the row. -/
def rowFailure {α : Type} (f : SeriesFunction) : Except Error α → Except RowError α
  | .ok a => .ok a
  | .error e => .error (.function f.name e.message)

/-- The first element of a result; an empty result counts as null. -/
def firstValue (f : SeriesFunction) (result : Series) : Except RowError Value :=
  if result.size = 0 then .ok .null
  else
    match result.value? 0 with
    | some v => .ok v
    | none => .error (.function f.name ("unsupported output type " ++ result.type.name))

/-- The value of a function on the arguments of one row. -/
def onRow (f : SeriesFunction) (args : List Value) : Except RowError Value :=
  if args.any Value.isNull then .ok .null
  else do
    let columns := args.map Value.toSeries
    f.rowFailure (f.accept (columns.map (·.type)))
    f.firstValue (← f.rowFailure (f.run columns))

end SeriesFunction

/-- A function on the evaluated arguments of one row. -/
inductive RowFunction where
  | builtin (b : Builtin)
  | registered (f : SeriesFunction)

/-- The value of a function on the arguments of one row. -/
def RowFunction.apply : RowFunction → List Value → Except RowError Value
  | builtin b, args => b.apply args
  | registered f, args => f.onRow args

/-- How a call is evaluated. -/
inductive Callee where
  /-- `if`: the condition decides which of the other two arguments is evaluated. -/
  | conditional
  /-- Arguments are evaluated up to the first one that is not null. -/
  | firstPresent
  | function (f : RowFunction)

/-- What a name stands for in a call. -/
structure Callable where
  callee : Callee
  count : ArgumentCount

namespace Callable

/-- A built-in function of a fixed number of arguments. -/
def fixed (b : Builtin) (n : Nat) : Callable := ⟨.function (.builtin b), ⟨n, some n⟩⟩

/-- A built-in function of at least so many arguments. -/
def atLeast (b : Builtin) (n : Nat) : Callable := ⟨.function (.builtin b), ⟨n, none⟩⟩

/-- A built-in function of a number of arguments between two bounds. -/
def between (b : Builtin) (least most : Nat) : Callable :=
  ⟨.function (.builtin b), ⟨least, some most⟩⟩

/-- The built-in functions by name. -/
def builtins : List (String × Callable) :=
  [("if", ⟨.conditional, ⟨3, some 3⟩⟩), ("coalesce", ⟨.firstPresent, ⟨1, none⟩⟩),
   ("if_null", ⟨.firstPresent, ⟨2, some 2⟩⟩), ("is_null", fixed .isNull 1),
   ("is_not_null", fixed .isNotNull 1), ("abs", fixed .abs 1),
   ("round", between .round 1 2),
   ("floor", fixed .floor 1), ("ceil", fixed .ceil 1), ("pow", fixed .pow 2),
   ("min", atLeast .min 1),
   ("max", atLeast .max 1), ("len", fixed .len 1), ("concat", atLeast .concat 0),
   ("substr", between .substr 2 3), ("contains", fixed .contains 2),
   ("starts_with", fixed .startsWith 2), ("ends_with", fixed .endsWith 2),
   ("replace", fixed .replace 3), ("int", fixed (.convert .int64) 1),
   ("float", fixed (.convert .float64) 1), ("string", fixed (.convert .string) 1),
   ("bool", fixed (.convert .bool) 1), ("date", fixed (.convert .date) 1),
   ("timestamp", fixed (.convert .timestamp) 1)]

/-- A registered function as something to call. -/
def ofRegistered (f : SeriesFunction) : Callable :=
  ⟨.function (.registered f), ⟨f.arity, some f.arity⟩⟩

end Callable

/-- What formulas may call beside the built-in functions. -/
structure Environment where
  registered : List SeriesFunction

namespace Environment

/-- The environment of a registry; without one there are only the built-in functions. -/
def permitting : Option Registry → Environment
  | some r => ⟨r.elementwise⟩
  | none => ⟨[]⟩

/-- What a name stands for. -/
def find? (env : Environment) (name : String) : Option Callable :=
  Callable.builtins.lookup (Text.foldName name) <|>
    (env.registered.find? fun f => Text.sameName f.name name).map Callable.ofRegistered

end Environment

end FormulaTable
