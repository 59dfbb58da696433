import FormulaTable.Binary.Format

/-!
# Exact operations on doubles

Rounding to an integer, the remainder of a division, the conversion to an integer and the
total order, each computed on the exact parts of a number. None of them rounds: every result
is a double already.
-/

namespace FormulaTable.Binary

/-- Which integer stands for a number between two integers. -/
inductive Direction where
  /-- The one nearer to zero. -/
  | towardZero
  /-- The lower one. -/
  | down
  /-- The higher one. -/
  | up
  /-- The nearer one, and of two equally near the one farther from zero. -/
  | nearestAway

/-- The magnitude of `± significand / Nat.pow 2 places` rounded to an integer. -/
def Direction.roundMagnitude (d : Direction) (negative : Bool) (significand places : Nat) :
    Nat :=
  let whole := significand / Nat.pow 2 places
  let rest := significand % Nat.pow 2 places
  let outward :=
    match d with
    | .towardZero => false
    | .down => negative && rest != 0
    | .up => !negative && rest != 0
    | .nearestAway => Nat.pow 2 places ≤ 2 * rest
  if outward then whole + 1 else whole

/-- The integer that stands for `x`, as a double: a zero keeps the sign of `x`, and
infinities and NaNs stand for themselves. -/
def roundTo (d : Direction) (x : Float) : Float :=
  match parts x with
  | .finite negative significand exponent =>
    if 0 ≤ exponent then x
    else
      let magnitude := d.roundMagnitude negative significand (-exponent).toNat
      let rounded := Float.ofNat magnitude
      if negative then -rounded else rounded
  | _ => x

/-- The greatest integer not above. -/
def floor : Float → Float := roundTo .down

/-- The least integer not below. -/
def ceil : Float → Float := roundTo .up

/-- The nearest integer, halves away from zero. -/
def round : Float → Float := roundTo .nearestAway

/-- The integer part of a finite number. -/
def toInt? (x : Float) : Option Int := (parts x).truncate?

/-- The remainder of a division that cuts the quotient toward zero; it has the sign of the
dividend. -/
def remainder (x y : Float) : Float :=
  match parts x, parts y with
  | .finite negative m q, .finite _ n r =>
    if n = 0 then notANumber
    else
      let e := min q r
      ofParts negative ((m * Nat.pow 2 (q - e).toNat) % (n * Nat.pow 2 (r - e).toNat)) e
  | .finite _ _ _, .infinite _ => x
  | _, _ => notANumber

/-- The key of the IEEE total order: `-∞ < … < -0 < 0 < … < ∞ < NaN`. -/
def orderKey (x : Float) : Int :=
  let bits : Int := x.toBits.toNat
  if bits < 0x8000000000000000 then bits else 0x7fffffffffffffff - bits

/-- The power by repeated squaring: the base is squared once per binary digit of the
exponent, and the squares under the digits `1` are multiplied up, lowest digit first. -/
def powNat (base : Float) (n : Nat) : Float :=
  go base n 1.0
where
  /-- The product of `acc` and the power, for the digits that are left. -/
  go (base : Float) (n : Nat) (acc : Float) : Float :=
    let acc := if n % 2 = 1 then acc * base else acc
    if n / 2 = 0 then acc else go (base * base) (n / 2) acc
  termination_by n
  decreasing_by omega

/-- The power with an integer exponent; a negative exponent inverts the power at the end. -/
def powInt (base : Float) : Int → Float
  | .ofNat n => powNat base n
  | .negSucc n => 1.0 / powNat base (n + 1)

end FormulaTable.Binary
