import FormulaTable.Decimal.Shortest

/-!
# Written forms of a floating-point number

The digits of a number are the shortest that read back; a `Layout` says how they are set
out. Two layouts are in use: cells show a number in plain positional notation (`plain`), and
conversions to text and JSON use a point in every number and an exponent for the very large
and the very small (`compact`).
-/

namespace FormulaTable.Decimal

/-- How the digits of a number are set out. -/
structure Layout where
  /-- The decimal points that are written in positional notation; `none` stands for all of
  them. -/
  positional : Option (Int × Int)
  /-- What follows the digits of a whole number in positional notation. -/
  wholeEnding : List Char

/-- Positional notation throughout, with nothing after the last digit of a whole number. -/
def plain : Layout := ⟨none, []⟩

/-- Positional notation when the value is at least `10 ^ -5` and below `10 ^ 16`, always
with a point. -/
def compact : Layout := ⟨some (-4, 16), ['.', '0']⟩

/-- The compact layout of a single: from `10 ^ -6` up to `10 ^ 13`. -/
def compactSingle : Layout := ⟨some (-5, 13), ['.', '0']⟩

/-- Positional notation of a positive decimal. -/
def Digits.positional (d : Digits) (wholeEnding : List Char) : List Char :=
  let count := d.digits.length
  if d.point ≤ 0 then
    ['0', '.'] ++ List.replicate (-d.point).toNat '0' ++ d.digits
  else if (count : Int) ≤ d.point then
    d.digits ++ List.replicate (d.point - count).toNat '0' ++ wholeEnding
  else
    d.digits.take d.point.toNat ++ ['.'] ++ d.digits.drop d.point.toNat

/-- Scientific notation of a positive decimal: one digit, the others after a point, and the
exponent. -/
def Digits.scientific (d : Digits) : List Char :=
  d.digits.take 1 ++ (if d.digits.length ≤ 1 then [] else '.' :: d.digits.drop 1) ++
    'e' :: (toString (d.point - 1)).toList

/-- The digits of a positive decimal in a layout. -/
def Layout.arrange (layout : Layout) (d : Digits) : List Char :=
  match layout.positional with
  | none => d.positional layout.wholeEnding
  | some (low, high) =>
    if low ≤ d.point ∧ d.point ≤ high then d.positional layout.wholeEnding else d.scientific

/-- The text of a number of the given format in a layout. -/
def Layout.write (layout : Layout) (f : Binary.Format) : Binary.Number → String
  | .nan => "NaN"
  | .infinite negative => if negative then "-inf" else "inf"
  | .finite negative significand exponent =>
    let magnitude :=
      if significand = 0 then '0' :: layout.wholeEnding
      else layout.arrange (shortest f significand exponent)
    String.ofList (if negative then '-' :: magnitude else magnitude)

/-- The text of a double as cells show it. -/
def plainText (x : Float) : String :=
  plain.write Binary.double (Binary.parts x)

/-- The text of a double in the compact layout. -/
def compactText (x : Float) : String :=
  compact.write Binary.double (Binary.parts x)

end FormulaTable.Decimal
