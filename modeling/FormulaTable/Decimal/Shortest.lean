import FormulaTable.Binary.Format

/-!
# The shortest decimal that reads back

A binary number stands for every real that rounds to it. Among the decimals in that interval
`shortest` takes those with the fewest digits, and of these the one nearest to the number
itself.

For each count of digits the candidates are the two neighbours of the number on the decimal
grid of that count, tested in exact integer arithmetic: if any point of a grid lies in the
interval, one of these two does.
-/

namespace FormulaTable.Decimal

/-- A positive decimal `0.d₁d₂… · 10 ^ point`, without trailing zeros. -/
structure Digits where
  digits : List Char
  point : Int

/-- A positive number and the interval of the reals that round to it, all three over one
denominator. -/
structure Interval where
  low : Nat
  value : Nat
  high : Nat
  denominator : Nat
  /-- Do the two ends themselves round to the number? -/
  closed : Bool

/-- The interval of `significand · 2 ^ exponent`. Below a power of two the neighbours are
half as far away, except at the bottom of the format. -/
def Interval.ofParts (f : Binary.Format) (significand : Nat) (exponent : Int) : Interval :=
  let narrow := significand == Nat.pow 2 (f.precision - 1) && f.lowestExponent < exponent
  let scale := Nat.pow 2 (exponent - 2).toNat
  ⟨(4 * significand - (if narrow then 1 else 2)) * scale, 4 * significand * scale,
    (4 * significand + 2) * scale, Nat.pow 2 (2 - exponent).toNat, significand % 2 == 0⟩

namespace Interval

/-- The decimal point's place: `10 ^ (point - 1) ≤ value / denominator < 10 ^ point`. -/
def point (i : Interval) : Int :=
  if i.denominator ≤ i.value then
    ((Nat.toDigits 10 (i.value / i.denominator)).length : Int)
  else
    1 - ((Nat.toDigits 10 ((i.denominator - 1) / i.value)).length : Int)

/-- Does the decimal `candidate · 10 ^ place` lie in the interval? -/
def contains (i : Interval) (candidate : Nat) (place : Int) : Bool :=
  let scaled := candidate * Nat.pow 10 place.toNat * i.denominator
  let unit := Nat.pow 10 (-place).toNat
  if i.closed then i.low * unit ≤ scaled && scaled ≤ i.high * unit
  else i.low * unit < scaled && scaled < i.high * unit

/-- The better of the two neighbours of the value on the grid of multiples of `10 ^ place`,
if one of them lies in the interval. Of two that are equally near the even one is better. -/
def candidate? (i : Interval) (place : Int) : Option Nat :=
  let unit := i.denominator * Nat.pow 10 place.toNat
  let value := i.value * Nat.pow 10 (-place).toNat
  let below := value / unit
  let rest := value % unit
  match i.contains below place, i.contains (below + 1) place with
  | true, true =>
    if 2 * rest < unit || (2 * rest == unit && below % 2 == 0) then some below
    else some (below + 1)
  | true, false => some below
  | false, true => some (below + 1)
  | false, false => none

end Interval

/-- A list of digits without the zeros at its end. -/
def dropTrailingZeros (digits : List Char) : List Char :=
  (digits.reverse.dropWhile (· == '0')).reverse

/-- The shortest decimal that reads back as `significand · 2 ^ exponent`, a positive number
of the format. Seventeen digits are enough for every double, and fewer for the narrower
formats. -/
def shortest (f : Binary.Format) (significand : Nat) (exponent : Int) : Digits :=
  let interval := Interval.ofParts f significand exponent
  let point := interval.point
  let attempt (count : Nat) : Option Digits :=
    let place := point - ((count + 1 : Nat) : Int)
    (interval.candidate? place).map fun n =>
      let digits := Nat.toDigits 10 n
      ⟨dropTrailingZeros digits, place + (digits.length : Int)⟩
  ((List.range 17).findSome? attempt).getD ⟨['0'], 1⟩

end FormulaTable.Decimal
