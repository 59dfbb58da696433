/-!
# Binary interchange formats

The three IEEE 754 formats that columns may hold, as bit patterns. `Format.decode` splits a
pattern into its sign, its significand and its exponent, so that a finite number is exactly
`± significand · 2 ^ exponent`; `ofParts` is the double with given parts. Widening a half or
a single goes through the two.
-/

namespace FormulaTable.Binary

/-- A binary floating-point format: how many significant bits a normal number has, the
leading one included, and how many bits hold its exponent. -/
structure Format where
  precision : Nat
  exponentBits : Nat

/-- Two bytes. -/
def half : Format := ⟨11, 5⟩

/-- Four bytes. -/
def single : Format := ⟨24, 8⟩

/-- Eight bytes. -/
def double : Format := ⟨53, 11⟩

namespace Format

/-- The exponent field that marks infinities and NaNs. -/
def topField (f : Format) : Nat := Nat.pow 2 f.exponentBits - 1

/-- The exponent of the last place of the smallest numbers: `-1074` for doubles. -/
def lowestExponent (f : Format) : Int :=
  3 - (Nat.pow 2 (f.exponentBits - 1) : Nat) - (f.precision : Int)

end Format

/-- What a bit pattern stands for. -/
inductive Number where
  | nan
  | infinite (negative : Bool)
  | finite (negative : Bool) (significand : Nat) (exponent : Int)
deriving DecidableEq

/-- The number that a bit pattern of the format stands for. -/
def Format.decode (f : Format) (bits : Nat) : Number :=
  let fraction := bits % Nat.pow 2 (f.precision - 1)
  let field := bits / Nat.pow 2 (f.precision - 1) % Nat.pow 2 f.exponentBits
  let negative := bits / Nat.pow 2 (f.precision - 1 + f.exponentBits) % 2 == 1
  if field = f.topField then
    if fraction = 0 then .infinite negative else .nan
  else if field = 0 then
    .finite negative fraction f.lowestExponent
  else
    .finite negative (fraction + Nat.pow 2 (f.precision - 1))
      (f.lowestExponent + (field - 1 : Nat))

/-- The parts of a double. -/
def parts (x : Float) : Number :=
  double.decode x.toBits.toNat

/-- The parts under which a format holds a number: the significand is shifted up until it
fills the precision or the exponent is the lowest one. -/
def Format.align (f : Format) (significand : Nat) (exponent : Int) : Nat × Int :=
  let room := (exponent - f.lowestExponent).toNat
  let shift := min (f.precision - 1 - significand.log2) room
  (significand * Nat.pow 2 shift, exponent - shift)

/-- The double `± significand · 2 ^ exponent`. The significand is below `2 ^ 53` and the
exponent is that of a double, so nothing is rounded. -/
def ofParts (negative : Bool) (significand : Nat) (exponent : Int) : Float :=
  let sign := if negative then 0x8000000000000000 else 0
  if significand = 0 then
    Float.ofBits (UInt64.ofNat sign)
  else
    let (aligned, place) := double.align significand exponent
    let field := if aligned < 0x10000000000000 then 0
      else (place - double.lowestExponent).toNat + 1
    Float.ofBits
      (UInt64.ofNat (sign + field * 0x10000000000000 + aligned % 0x10000000000000))

/-- Not a number. -/
def notANumber : Float := Float.ofBits 0x7ff8000000000000

/-- Positive or negative infinity. -/
def infinity (negative : Bool) : Float :=
  if negative then Float.ofBits 0xfff0000000000000 else Float.ofBits 0x7ff0000000000000

/-- The double that equals a number of a narrower format. -/
def Number.toFloat : Number → Float
  | .nan => notANumber
  | .infinite negative => infinity negative
  | .finite negative significand exponent => ofParts negative significand exponent

/-- The integer part of a finite number. -/
def Number.truncate? : Number → Option Int
  | .finite negative significand exponent =>
    let magnitude :=
      if 0 ≤ exponent then significand * Nat.pow 2 exponent.toNat
      else significand / Nat.pow 2 (-exponent).toNat
    some (if negative then -(magnitude : Int) else magnitude)
  | _ => none

/-- The same number with the parts under which a wider format holds it. -/
def Number.widen (f : Format) : Number → Number
  | .finite negative significand exponent =>
    let (aligned, place) := f.align significand exponent
    .finite negative aligned place
  | n => n

/-- Reads a half from its two bytes. -/
def ofHalf (bits : UInt16) : Float := (half.decode bits.toNat).toFloat

/-- Reads a single from its four bytes. -/
def ofSingle (bits : UInt32) : Float := (single.decode bits.toNat).toFloat

end FormulaTable.Binary
