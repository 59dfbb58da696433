import FormulaTable.Binary.Format
import FormulaTable.Decimal.Reader
import FormulaTable.Document.Basic

/-!
# Numbers in documents

A number that is written as an integer is exact as long as it fits 64 bits. Any other one is
a double, computed fast and not always correctly rounded: as many digits as fit 64 bits make
up a significand, and this is multiplied or divided by a power of ten. Digits that no longer
fit are dropped; before the point each of them counts as a zero, and after it they end the
significand.
-/

namespace FormulaTable.Document

/-- A number as it is written: digits, the digits after the point if there is one, and the
exponent. -/
structure WrittenNumber where
  negative : Bool
  whole : List Char
  fraction : Option (List Char)
  /-- Is the exponent negative, and its digits. -/
  exponent : Option (Bool × List Char)
deriving DecidableEq

/-- Digits taken into a significand of 64 bits: the significand, and how many digits were
taken. -/
def takeDigits (significand : Nat) (digits : List Char) : Nat × Nat :=
  go significand 0 digits
where
  /-- The rest of the digits, after some were taken. -/
  go (significand taken : Nat) : List Char → Nat × Nat
    | [] => (significand, taken)
    | c :: rest =>
      let next := 10 * significand + (c.toNat - '0'.toNat)
      if next < 0x10000000000000000 then go next (taken + 1) rest else (significand, taken)

/-- The greatest exponent whose power of ten is a double. -/
def topPower : Nat := 308

/-- The power of ten nearest to `10 ^ n`. -/
def powerOfTen (n : Nat) : Float := Decimal.nearestDouble 1 n

/-- `significand · 10 ^ exponent`, unless it is too large. Far down the exponent is worked
off in steps of `topPower`. -/
def scaled? (significand : Float) (exponent : Int) : Option Float :=
  if 0 ≤ exponent then
    if exponent.toNat ≤ topPower then
      let x := significand * powerOfTen exponent.toNat
      if x.isInf then none else some x
    else if significand == 0.0 then some significand
    else none
  else some (shrink significand exponent.natAbs)
where
  /-- The number divided by `10 ^ n`. -/
  shrink (x : Float) (n : Nat) : Float :=
    if n ≤ topPower then x / powerOfTen n
    else if x == 0.0 then x
    else shrink (x / powerOfTen topPower) (n - topPower)
  termination_by n
  decreasing_by
    simp only [topPower] at *
    omega

namespace WrittenNumber

/-- The exponent that is written out. -/
def tenExponent (w : WrittenNumber) : Int :=
  match w.exponent with
  | none => 0
  | some (negative, digits) =>
    let n := Decimal.digitsValue digits
    if negative then -(n : Int) else n

/-- The significand and its exponent before the written one is added. -/
def significand (w : WrittenNumber) : Nat × Int :=
  let (whole, taken) := takeDigits 0 w.whole
  let dropped := w.whole.length - taken
  match w.fraction with
  | none => (whole, dropped)
  | some digits =>
    let (significand, taken) := takeDigits whole digits
    (significand, (dropped : Int) - taken)

/-- The magnitude as a double, if there is one. An exponent beyond 32 bits leaves only
zero. -/
def magnitude? (w : WrittenNumber) : Option Float :=
  let (significand, exponent) := w.significand
  let written := w.tenExponent
  if written.natAbs < 0x80000000 then
    scaled? (Float.ofNat significand) (exponent + written)
  else if 0 ≤ written ∧ significand ≠ 0 then none
  else some 0.0

/-- The exact integer, if the number is written as one that fits 64 bits. Zero with a minus
is no integer. -/
def integer? (w : WrittenNumber) : Option Int :=
  if w.fraction.isSome ∨ w.exponent.isSome then none
  else
    let n := Decimal.digitsValue w.whole
    if w.negative then
      if n ≠ 0 ∧ n ≤ 0x8000000000000000 then some (-(n : Int)) else none
    else if n < 0x10000000000000000 then some n
    else none

/-- What the number stands for. -/
def toDocument (w : WrittenNumber) : Document :=
  match w.integer? with
  | some n => .integer n
  | none =>
    match w.magnitude? with
    | some x => .number (if w.negative then -x else x)
    | none => .unreadable

end WrittenNumber

end FormulaTable.Document
