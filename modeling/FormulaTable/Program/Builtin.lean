import FormulaTable.Value.Conversion

/-!
# Built-in functions

The functions that every formula may call on evaluated arguments. Null goes through most of
them; `min`, `max` and `concat` skip it.
-/

namespace FormulaTable

/-- The built-in functions whose arguments are all evaluated first. -/
inductive Builtin where
  | isNull
  | isNotNull
  | abs
  | round
  | floor
  | ceil
  | pow
  | min
  | max
  /-- The number of characters. -/
  | len
  | concat
  | substr
  | contains
  | startsWith
  | endsWith
  | replace
  /-- The conversion to a kind. -/
  | convert (target : Kind)
deriving DecidableEq

namespace Builtin

/-- A function rejects an argument of the wrong kind. -/
def wrongKind {α : Type} (name expected : String) (v : Value) : Except RowError α :=
  .error (.function name ("expects " ++ expected ++ ", got " ++ v.kindName))

/-- The argument as a double. -/
def expectNumber (name : String) (v : Value) : Except RowError Float :=
  match v.number? with
  | some x => .ok x
  | none => wrongKind name "a number" v

/-- The argument as a text. -/
def expectText (name : String) : Value → Except RowError String
  | .text s => .ok s
  | v => wrongKind name "a string" v

/-- The argument as a number of characters. -/
def expectIndex (name : String) : Value → Except RowError Nat
  | .int n =>
    if 0 ≤ n.toInt then .ok n.toInt.toNat
    else .error (.function name ("index must not be negative, got " ++ toString n.toInt))
  | v => wrongKind name "an integer" v

/-- The magnitude of a number. -/
def absolute : Value → Except RowError Value
  | .null => .ok .null
  | .int n =>
    match int64? n.toInt.natAbs with
    | some a => .ok (.int a)
    | none => .error (.overflow "abs")
  | v => do return .float (← expectNumber "abs" v).abs

/-- A number rounded to an integer; integers stay as they are. -/
def rounded (name : String) (f : Float → Float) : Value → Except RowError Value
  | .null => .ok .null
  | .int n => .ok (.int n)
  | v => do return .float (f (← expectNumber name v))

/-- A number rounded to a number of decimal places, halves away from zero. Integers stay as
they are unless places before the point are rounded off. -/
def roundTo (places : Int) : Value → Except RowError Value
  | .null => .ok .null
  | v =>
    if v.int?.isSome && 0 ≤ places then .ok v
    else do
      let x ← expectNumber "round" v
      let scale := Binary.powInt 10.0 places
      return .float (Binary.round (x * scale) / scale)

/-- The number of decimal places that an argument asks for; null asks for none at all. -/
def expectPlaces : Value → Except RowError (Option Int)
  | .null => .ok none
  | .int n =>
    match int32? n.toInt with
    | some places => .ok (some places.toInt)
    | none => .error (.function "round" "digits out of range")
  | v => .error (.function "round" ("digits must be an integer, got " ++ v.kindName))

/-- The better of two values: the later one if it is ahead in the wanted direction. -/
def better (name : String) (wanted : Ordering) (current candidate : Value) :
    Except RowError Value :=
  match candidate.compare? current with
  | some o => .ok (if o = wanted then candidate else current)
  | none =>
    .error (.function name
        ("cannot compare " ++ candidate.kindName ++ " and " ++ current.kindName))

/-- The best of the arguments that are not null. -/
def extreme (name : String) (wanted : Ordering) (args : List Value) :
    Except RowError Value :=
  match args.filter (!·.isNull) with
  | [] => .ok .null
  | first :: rest => rest.foldlM (better name wanted) first

/-- A test on two texts. -/
def textTest (test : List Char → List Char → Bool) (text pattern : Value) :
    Except RowError Value := do
  let s ← expectText "string test" text
  let p ← expectText "string test" pattern
  return .bool (test s.toList p.toList)

/-- Does the pattern occur in the text? -/
def occursIn (pattern : List Char) : List Char → Bool
  | [] => pattern.isEmpty
  | c :: rest => pattern.isPrefixOf (c :: rest) || occursIn pattern rest

/-- The text with every occurrence of the pattern replaced, from left to right; the pattern
is not empty. The first argument counts the characters of an occurrence that are still to be
skipped. -/
def replaceAll (pattern replacement : List Char) : Nat → List Char → List Char
  | _, [] => []
  | skip + 1, _ :: rest => replaceAll pattern replacement skip rest
  | 0, c :: rest =>
    if pattern.isPrefixOf (c :: rest) then
      replacement ++ replaceAll pattern replacement (pattern.length - 1) rest
    else c :: replaceAll pattern replacement 0 rest

/-- The part of a text from a position on, of at most the given length. -/
def substring (text start : Value) (count : Option Value) : Except RowError Value := do
  let s ← expectText "substr" text
  let first ← expectIndex "substr" start
  let tail := s.toList.drop first
  match count with
  | none => return .text (String.ofList tail)
  | some n => return .text (String.ofList (tail.take (← expectIndex "substr" n)))

/-- The text with a pattern replaced; an empty pattern occurs nowhere. -/
def replaced (text pattern replacement : Value) : Except RowError Value := do
  let s ← expectText "replace" text
  let p ← expectText "replace" pattern
  let r ← expectText "replace" replacement
  if p.isEmpty then return .text s
  else return .text (String.ofList (replaceAll p.toList r.toList 0 s.toList))

/-- The power of two numbers. -/
def power (base exponent : Value) : Except RowError Value := do
  let x ← expectNumber "pow" base
  let y ← expectNumber "pow" exponent
  return .float (Float.pow x y)

/-- The value of a function on arguments, or null as soon as one of them is null. -/
def unlessNull (args : List Value) (result : Except RowError Value) :
    Except RowError Value :=
  if args.any Value.isNull then .ok .null else result

/-- The value of a built-in function on evaluated arguments. Formulas are checked for the
number of arguments; on any other number the value is null. -/
def apply : Builtin → List Value → Except RowError Value
  | isNull, [v] => .ok (.bool v.isNull)
  | isNotNull, [v] => .ok (.bool !v.isNull)
  | abs, [v] => absolute v
  | round, [v] => roundTo 0 v
  | round, [v, places] => do
    match ← expectPlaces places with
    | none => return .null
    | some n => roundTo n v
  | floor, [v] => rounded "floor" Binary.floor v
  | ceil, [v] => rounded "ceil" Binary.ceil v
  | pow, [x, y] => unlessNull [x, y] (power x y)
  | min, args => extreme "min" .lt args
  | max, args => extreme "max" .gt args
  | len, [v] => .ok (if v.isNull then .null else .int (Int64.ofNat v.toText.length))
  | concat, args => .ok (.text (String.join (args.map Value.toText)))
  | substr, [s, start] => unlessNull [s, start] (substring s start none)
  | substr, [s, start, count] =>
    unlessNull [s, start, count] (substring s start (some count))
  | contains, [s, p] => unlessNull [s, p] (textTest (fun s p => occursIn p s) s p)
  | startsWith, [s, p] => unlessNull [s, p] (textTest (fun s p => p.isPrefixOf s) s p)
  | endsWith, [s, p] => unlessNull [s, p] (textTest (fun s p => p.isSuffixOf s) s p)
  | replace, [s, p, r] => unlessNull [s, p, r] (replaced s p r)
  | convert target, [v] => v.convert target
  | _, _ => .ok .null

end Builtin

end FormulaTable
