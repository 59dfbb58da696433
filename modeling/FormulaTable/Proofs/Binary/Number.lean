import FormulaTable.Binary.Format
import Mathlib.Algebra.Order.Field.Power
import Mathlib.Algebra.Order.Field.Rat
import Mathlib.Order.WithBot
import Mathlib.Tactic.FieldSimp
import Mathlib.Tactic.Ring

/-!
# What a number amounts to

A finite number is a rational, and the infinities lie below and above all of these. A format
holds each number in one way: the significand fills its precision, or the exponent is the
lowest one. So numbers of a format are in the order of their exponents, and of their
significands where these agree.

* `Format.holds_decode`, `Format.holds_align` — what a bit pattern stands for, and what is
  aligned, is held in this way.
* `compare_magnitude` — the order of two numbers that a format holds.
* `Number.same_widen` — a wider format changes the parts, but not the number.
-/

namespace FormulaTable.Binary

/-- A rational, or one of the infinities. -/
abbrev Amount := WithBot (WithTop ℚ)

/-- The amount that is a rational. -/
def Amount.ofRat (q : ℚ) : Amount := ((q : WithTop ℚ) : Amount)

/-- The absolute value of a finite number. -/
def magnitude (significand : Nat) (exponent : Int) : ℚ := significand * 2 ^ exponent

namespace Number

/-- What a number amounts to; a NaN amounts to nothing. -/
def amount? : Number → Option Amount
  | nan => none
  | infinite true => some ⊥
  | infinite false => some ⊤
  | finite true m e => some (.ofRat (-magnitude m e))
  | finite false m e => some (.ofRat (magnitude m e))

/-- Is the number marked as negative? Zero may be, too. -/
def isNegative : Number → Bool
  | nan => false
  | infinite negative => negative
  | finite negative _ _ => negative

/-- Two ways to write the same number. -/
def Same (x y : Number) : Prop := x.amount? = y.amount? ∧ x.isNegative = y.isNegative

/-- The order of two numbers; a NaN has none. -/
def order? (x y : Number) : Option Ordering := do
  return compare (← x.amount?) (← y.amount?)

end Number

namespace Amount

/-- Numbers are in the order of the rationals they are made from. -/
theorem strictMono_ofRat : StrictMono ofRat :=
  WithBot.coe_strictMono.comp WithTop.coe_strictMono

/-- Rationals keep their order among the amounts. -/
theorem compare_ofRat (a b : ℚ) : compare (ofRat a) (ofRat b) = compare a b := by
  rw [← cmp_eq_compare, strictMono_ofRat.cmp_map_eq, cmp_eq_compare]

end Amount

/-- The order of two numbers, seen from the second one. -/
theorem Number.order?_swap (x y : Number) :
    y.order? x = (x.order? y).map Ordering.swap := by
  cases hx : x.amount? <;> cases hy : y.amount? <;>
    simp [Number.order?, hx, hy, ← Std.OrientedCmp.eq_swap]

/-- A format holds a number in this way: the significand fits, and fills the precision
unless the exponent is the lowest one. -/
structure Format.Holds (f : Format) (significand : Nat) (exponent : Int) : Prop where
  fits : significand < 2 ^ f.precision
  lowest_le : f.lowestExponent ≤ exponent
  le_highest : exponent < f.lowestExponent + 2 ^ f.exponentBits - 2
  full : 2 ^ (f.precision - 1) ≤ significand ∨ exponent = f.lowestExponent

section Formats

variable {f : Format}

/-- What a bit pattern stands for is held in this way. -/
theorem Format.holds_decode (hprecision : 0 < f.precision) (hexponent : 2 ≤ f.exponentBits)
    {bits : Nat} {negative : Bool} {m : Nat} {e : Int}
    (h : f.decode bits = .finite negative m e) : f.Holds m e := by
  have hsplit : 2 ^ f.precision = 2 * 2 ^ (f.precision - 1) := by
    rw [← pow_succ', Nat.sub_add_cancel hprecision]
  have hfraction : bits % 2 ^ (f.precision - 1) < 2 ^ (f.precision - 1) :=
    Nat.mod_lt _ (Nat.two_pow_pos _)
  have hfield := Nat.mod_lt (bits / 2 ^ (f.precision - 1)) (Nat.two_pow_pos f.exponentBits)
  have hfour : 2 ^ 2 ≤ 2 ^ f.exponentBits := Nat.pow_le_pow_right Nat.two_pos hexponent
  have hcast : ((2 ^ f.exponentBits : Nat) : Int) = 2 ^ f.exponentBits := Nat.cast_pow 2 _
  simp only [Format.decode, Format.topField, Nat.pow_eq] at h
  split at h
  · split at h <;> cases h
  split at h
  · cases h
    exact ⟨by omega, Int.le_refl _, by omega, .inr rfl⟩
  · cases h
    exact ⟨by omega, by omega, by omega, .inl (Nat.le_add_left _ _)⟩

/-- No mantissa, no magnitude. -/
theorem magnitude_zero (e : Int) : magnitude 0 e = 0 := by
  rw [magnitude, Nat.cast_zero, zero_mul]

/-- A mantissa that is not zero has a positive magnitude. -/
theorem magnitude_pos {m : Nat} (e : Int) (hm : 0 < m) : 0 < magnitude m e :=
  mul_pos (Nat.cast_pos.2 hm) (by positivity)

/-- A greater exponent makes a greater number, if the significand fills the precision. -/
theorem magnitude_lt_magnitude (hprecision : 0 < f.precision) {m n : Nat} {e k : Int}
    (hm : m < 2 ^ f.precision) (hn : 2 ^ (f.precision - 1) ≤ n) (hek : e < k) :
    magnitude m e < magnitude n k := by
  have htwo : (0 : ℚ) < 2 ^ e := by positivity
  have hm : (m : ℚ) < 2 ^ f.precision := by exact_mod_cast hm
  have hn : (2 : ℚ) ^ (f.precision - 1) ≤ n := by exact_mod_cast hn
  calc (m : ℚ) * 2 ^ e
      < 2 ^ f.precision * 2 ^ e := mul_lt_mul_of_pos_right hm htwo
    _ = 2 ^ (f.precision - 1) * 2 ^ (e + 1) := by
        rw [zpow_add_one₀ two_ne_zero, ← Nat.sub_add_cancel hprecision, pow_succ,
          Nat.add_sub_cancel]
        ring
    _ ≤ n * 2 ^ (e + 1) := by gcongr
    _ ≤ n * 2 ^ k :=
      mul_le_mul_of_nonneg_left (zpow_le_zpow_right₀ one_le_two hek) (Nat.cast_nonneg n)

/-- Under one exponent, magnitudes are in the order of their mantissas. -/
theorem strictMono_magnitude (e : Int) : StrictMono fun m => magnitude m e := fun _ _ h =>
  mul_lt_mul_of_pos_right (Nat.cast_lt.2 h) (by positivity)

/-- **Numbers that a format holds** are in the order of their exponents and significands. -/
theorem compare_magnitude (hprecision : 0 < f.precision) {m n : Nat} {e k : Int}
    (hm : f.Holds m e) (hn : f.Holds n k) :
    compare (magnitude m e) (magnitude n k) = (compare e k).then (compare m n) := by
  rcases lt_trichotomy e k with h | rfl | h
  · have hfull := hn.full.resolve_right fun hk => absurd hm.lowest_le (by omega)
    rw [compare_lt_iff_lt.2 h,
      compare_lt_iff_lt.2 (magnitude_lt_magnitude hprecision hm.fits hfull h)]
    rfl
  · rw [compare_eq_iff_eq.2 (rfl : e = e), ← cmp_eq_compare,
      (strictMono_magnitude e).cmp_map_eq, cmp_eq_compare]
    rfl
  · have hfull := hm.full.resolve_right fun he => absurd hn.lowest_le (by omega)
    rw [compare_gt_iff_gt.2 h,
      compare_gt_iff_gt.2 (magnitude_lt_magnitude hprecision hn.fits hfull h)]
    rfl

/-- **A number is aligned** so that the format holds it. -/
theorem Format.holds_align {m : Nat} {e : Int} (hpos : m ≠ 0) (hm : m < 2 ^ f.precision)
    (hlow : f.lowestExponent ≤ e) (hhigh : e < f.lowestExponent + 2 ^ f.exponentBits - 2) :
    f.Holds (f.align m e).1 (f.align m e).2 := by
  have hlog : m.log2 < f.precision := (Nat.log2_lt hpos).2 hm
  have hlower : 2 ^ m.log2 ≤ m := Nat.log2_self_le hpos
  have hupper : m < 2 ^ (m.log2 + 1) := Nat.lt_log2_self
  simp only [Format.align, Nat.pow_eq]
  generalize hshift : min (f.precision - 1 - m.log2) (e - f.lowestExponent).toNat = shift
  refine ⟨?_, by omega, by omega, ?_⟩
  · calc m * 2 ^ shift
        < 2 ^ (m.log2 + 1) * 2 ^ shift :=
          Nat.mul_lt_mul_of_pos_right hupper (Nat.two_pow_pos _)
      _ = 2 ^ (m.log2 + 1 + shift) := (pow_add ..).symm
      _ ≤ 2 ^ f.precision := Nat.pow_le_pow_right Nat.two_pos (by omega)
  · rcases Nat.le_total (f.precision - 1 - m.log2)
      (e - f.lowestExponent).toNat with hroom | hroom
    · refine .inl ?_
      have hfill : m.log2 + shift = f.precision - 1 := by omega
      calc 2 ^ (f.precision - 1)
          = 2 ^ m.log2 * 2 ^ shift := by rw [← pow_add, hfill]
        _ ≤ m * 2 ^ shift := Nat.mul_le_mul_right _ hlower
    · exact .inr (by omega)

/-- A shift of the significand is made up for by the exponent. -/
theorem magnitude_shift (m shift : Nat) (e : Int) :
    magnitude (m * 2 ^ shift) (e - shift) = magnitude m e := by
  rw [magnitude, magnitude, zpow_sub₀ two_ne_zero, zpow_natCast]
  push_cast
  field_simp

/-- **A wider format** changes the parts, but not the number. -/
theorem Number.same_widen (f : Format) (x : Number) : (x.widen f).Same x := by
  cases x with
  | nan => exact ⟨rfl, rfl⟩
  | infinite negative => exact ⟨rfl, rfl⟩
  | finite negative m e =>
      have hsame : magnitude (f.align m e).1 (f.align m e).2 = magnitude m e :=
        magnitude_shift m _ e
      cases negative <;> exact ⟨by simp only [Number.widen, Number.amount?, hsame], rfl⟩

end Formats

end FormulaTable.Binary
