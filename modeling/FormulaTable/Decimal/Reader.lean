import FormulaTable.Binary.Format

/-!
# Reading numbers

Integers are an optional sign and decimal digits. Floating-point numbers are an optional
sign followed by digits with at most one point among them and an optional exponent, or by
one of the words `inf`, `infinity` and `nan` in any case; they are rounded to the nearest
double.
-/

namespace FormulaTable.Decimal

/-- The number that a row of decimal digits writes. -/
def digitsValue (digits : List Char) : Nat :=
  digits.foldl (fun n c => 10 * n + (c.toNat - '0'.toNat)) 0

/-- Splits a sign off: the flag says whether it is a minus. -/
def takeSign : List Char → Bool × List Char
  | '-' :: rest => (true, rest)
  | '+' :: rest => (false, rest)
  | cs => (false, cs)

/-- The natural number that the whole list writes. -/
def readNat? (cs : List Char) : Option Nat :=
  if !cs.isEmpty && cs.all Char.isDigit then some (digitsValue cs) else none

/-- The integer that the whole list writes, with an optional sign. -/
def readInt? (cs : List Char) : Option Int :=
  let (negative, rest) := takeSign cs
  (readNat? rest).map fun n => if negative then -(n : Int) else n

/-- The double nearest to `significand · 10 ^ exponent`. -/
def nearestDouble (significand : Nat) (exponent : Int) : Float :=
  Float.ofScientific significand (exponent < 0) exponent.natAbs

/-- The exponent at the end of a number: nothing at all, or `e` and an integer. -/
def readExponent? : List Char → Option Int
  | [] => some 0
  | c :: rest => if c = 'e' || c = 'E' then readInt? rest else none

/-- The magnitude that the whole list writes: digits, perhaps a point and more digits,
perhaps an exponent. There is at least one digit before the exponent. -/
def readMagnitude? (cs : List Char) : Option Float :=
  let whole := cs.takeWhile Char.isDigit
  let afterWhole := cs.dropWhile Char.isDigit
  let (fraction, tail) :=
    match afterWhole with
    | '.' :: rest => (rest.takeWhile Char.isDigit, rest.dropWhile Char.isDigit)
    | rest => ([], rest)
  if whole.isEmpty && fraction.isEmpty then none
  else
    (readExponent? tail).map fun e =>
      nearestDouble (digitsValue (whole ++ fraction)) (e - (fraction.length : Int))

/-- The magnitude that the whole list writes, as a number or as a word. -/
def readUnsigned? (cs : List Char) : Option Float :=
  let word := String.ofList (cs.map Char.toLower)
  if word = "inf" || word = "infinity" then some (Binary.infinity false)
  else if word = "nan" then some Binary.notANumber
  else readMagnitude? cs

/-- The double that the whole list writes. -/
def readFloat? (cs : List Char) : Option Float :=
  let (negative, rest) := takeSign cs
  (readUnsigned? rest).map fun x => if negative then -x else x

end FormulaTable.Decimal
