import FormulaTable.Document.Number
import FormulaTable.Proofs.Binary.Nearest

/-!
# Scaling by a power of ten

A significand is turned into a double and multiplied or divided by a power of ten, which is
a double as well: three roundings where the nearest double needs one. The first two do
nothing to a significand below `2 ^ 53` and to the powers up to `10 ^ 22`, which are doubles
themselves, so that within these limits the nearest double comes out.

* `isParts_powerOfTen` — a power of ten is the double nearest to it.
* `exists_scaled?` — within the limits the scaled number is the double in whose interval the
  exact one lies.
* `isSome_scaled?` — what is not beyond the second greatest double is not too large.
-/

namespace FormulaTable.Document

open Binary
open Float.Model (UnpackedFloat)
open Float.Model.UnpackedFloat
open Float.Model.Format (binary64)

section Exponents

variable {k m v : Nat} {e : Int}

/-- The exponent of a number that is at least one. -/
theorem low_le_of_magnitude (hfits : m < 2 ^ 53) (h : magnitude m e = v) (hv : 0 < v) :
    -52 ≤ e := by
  have hfits : (m : ℚ) < 2 ^ (53 : Int) := by exact_mod_cast hfits
  have hlt : (2 : ℚ) ^ (0 : Int) < 2 ^ (53 + e) := by
    calc (2 : ℚ) ^ (0 : Int)
        ≤ v := by rw [zpow_zero]; exact_mod_cast hv
      _ = magnitude m e := h.symm
      _ < 2 ^ (53 : Int) * 2 ^ e := mul_lt_mul_of_pos_right hfits (by positivity)
      _ = 2 ^ (53 + e) := (zpow_add₀ two_ne_zero _ _).symm
  have := (zpow_lt_zpow_iff_right₀ one_lt_two).1 hlt
  omega

/-- The exponent of a number that is below a power of two. -/
theorem high_lt_of_magnitude (hfull : 2 ^ 52 ≤ m) (h : magnitude m e = v) (hv : v < 2 ^ k) :
    52 + e < k := by
  have hfull : (2 : ℚ) ^ (52 : Int) ≤ m := by exact_mod_cast hfull
  have hlt : (2 : ℚ) ^ (52 + e) < 2 ^ (k : Int) := by
    calc (2 : ℚ) ^ (52 + e)
        = 2 ^ (52 : Int) * 2 ^ e := zpow_add₀ two_ne_zero _ _
      _ ≤ magnitude m e := mul_le_mul_of_nonneg_right hfull (by positivity)
      _ = v := h
      _ < 2 ^ (k : Int) := by rw [zpow_natCast]; exact_mod_cast hv
  exact (zpow_lt_zpow_iff_right₀ one_lt_two).1 hlt

end Exponents

/-! ### Powers of ten -/

/-- The parts of a double that is a natural number: a significand of full length, and an
exponent. -/
structure IsParts (x : Float) (v : Nat) (m : Nat) (e : Int) : Prop where
  parts_eq : parts x = .finite false m e
  full : 2 ^ 52 ≤ m
  fits : m < 2 ^ 53
  magnitude_eq : magnitude m e = v

section Parts

variable {x y : Float} {k m n v : Nat} {e p : Int}

/-- A positive integer of 64 bits is a double with the rounded magnitude. -/
theorem isParts_ofNat (hn : n ≠ 0) (hbound : n < 2 ^ 64) :
    ∃ m e, IsParts (Float.ofNat n) (nearest n) m e := by
  obtain ⟨m, e, hpos, hunpack, hfull, hfits, -, -, hmagnitude⟩ := unpack_ofNat hn hbound
  refine ⟨m, e, ?_, hfull, hfits, hmagnitude⟩
  rw [parts_eq_ofUnpacked, hunpack]
  rfl

/-- The significand of a small power of ten, at full length. -/
def tenSignificand (k : Nat) : Nat := 10 ^ k * 2 ^ 52 / 2 ^ (10 ^ k).log2

/-- The small powers of ten are doubles. -/
theorem parts_powerOfTen_of_le : ∀ k < 23,
    parts (powerOfTen k) = .finite false (tenSignificand k) ((10 ^ k).log2 - 52 : Int) ∧
      2 ^ 52 ≤ tenSignificand k ∧ tenSignificand k < 2 ^ 53 ∧
      tenSignificand k * 2 ^ (10 ^ k).log2 = 10 ^ k * 2 ^ 52 := by
  decide +kernel

/-- The powers of ten up to `10 ^ 22` are doubles. -/
theorem nearest_ten_pow : ∀ k < 23, nearest (10 ^ k) = 10 ^ k := by
  decide +kernel

/-- A large power of ten is rounded once. -/
theorem powerOfTen_eq (hsmall : 22 < k) (hlarge : k ≤ 308) : powerOfTen k =
    ⟨.pack
      (roundWithAccuracy binary64 .positive (10 ^ k * 2 ^ 53) (-(53 : Nat)) .exact)⟩ := by
  have hscientific : UnpackedFloat.ofScientific binary64 1 k =
      roundWithAccuracy binary64 .positive (10 ^ k * 2 ^ 53) (-(53 : Nat)) .exact := by
    rw [UnpackedFloat.ofScientific, dif_neg one_ne_zero, if_neg, if_neg,
      if_pos (Int.natCast_nonneg k)]
    · rw [UnpackedFloat.mul, Nat.shiftLeft_eq, Int.toNat_natCast, Nat.one_mul, Nat.mul_comm]
      rfl
    · show ¬ (k : Int) < -(2 ^ 11 + ((1 : Nat).log2 : Int))
      omega
    · show ¬ (k : Int) > 2 ^ 11
      omega
  show Float.ofScientific 1 (decide ((k : Int) < 0)) k = _
  rw [Float.ofScientific, dif_neg fun h => by omega, decide_eq_false (by omega)]
  exact congrArg (fun x => Float.ofModel (.pack x)) hscientific

/-- **A power of ten** is the double nearest to it. -/
theorem isParts_powerOfTen (hk : k ≤ 308) :
    ∃ m e, IsParts (powerOfTen k) (nearest (10 ^ k)) m e := by
  rcases Nat.lt_or_ge 22 k with hlarge | hsmall
  · have hpower : 10 ^ k ≠ 0 := (Nat.pow_pos (by decide)).ne'
    have hlog := log2_mul_two_pow hpower 53
    obtain ⟨m, e, hpos, hround, hfull, hfits, hlow, -, hmagnitude⟩ :=
      @roundWithAccuracy_eq .positive (10 ^ k * 2 ^ 53) (-(53 : Nat)) (by omega) (by omega)
    rw [hlog, roundedQuotient_mul_two_pow (by omega)] at hmagnitude
    have hbound : nearest (10 ^ k) < 2 ^ 1024 :=
      (nearest_mono (Nat.pow_le_pow_right (by decide) hk)).trans_lt (by decide +kernel)
    have hhigh := high_lt_of_magnitude hfull hmagnitude hbound
    refine ⟨m, e, ?_, hfull, hfits, hmagnitude⟩
    rw [powerOfTen_eq hlarge hk, hround]
    exact parts_pack hfull hfits (by omega) (by omega)
  · obtain ⟨hparts, hfull, hfits, hexact⟩ := parts_powerOfTen_of_le k (by omega)
    refine ⟨_, _, hparts, hfull, hfits, ?_⟩
    have hexact : (tenSignificand k : ℚ) * 2 ^ (10 ^ k).log2 = (10 ^ k : Nat) * 2 ^ 52 := by
      exact_mod_cast hexact
    have hlast : (2 : ℚ) ^ (52 : Int) = 2 ^ 52 := rfl
    rw [nearest_ten_pow k (by omega), magnitude, zpow_sub₀ two_ne_zero, zpow_natCast,
      ← mul_div_assoc, hexact, hlast, mul_div_cancel_right₀ _ (by positivity)]

end Parts

/-! ### Scaled significands -/

section Scaled

variable {x : Float} {negative : Bool} {S m : Nat} {K e : Int}

/-- What has finite parts is not infinite. -/
theorem isInf_eq_false (h : parts x = .finite negative m e) : x.isInf = false := by
  rw [parts_eq_ofUnpacked] at h
  show x.toModel.unpack.isInf = false
  generalize x.toModel.unpack = u at h
  cases u with
  | infinity s => cases h
  | notANumber | zero s | finite s n k hn => rfl

/-- A positive integer is not rounded to zero. -/
theorem nearest_pos {n : Nat} (hn : n ≠ 0) : 0 < nearest n :=
  (Nat.two_pow_pos _).trans_le (nearest_bounds hn).1

/-- A power of ten that needs no steps is divided by. -/
theorem scaled?_of_neg (x : Float) (hneg : K < 0) (hK : -308 ≤ K) :
    scaled? x K = some (x / powerOfTen K.natAbs) := by
  rw [scaled?, if_neg (not_le.2 hneg), scaled?.shrink,
    if_pos (by show K.natAbs ≤ 308; omega)]

/-- A power of ten that is not negative is a factor, if the product is finite. -/
theorem scaled?_of_nonneg (hnonneg : 0 ≤ K) (hK : K ≤ 308)
    (h : parts (x * powerOfTen K.natAbs) = .finite negative m e) :
    scaled? x K = some (x * powerOfTen K.natAbs) := by
  have hnat : K.toNat = K.natAbs := by omega
  rw [scaled?, if_pos hnonneg, if_pos (by show K.toNat ≤ 308; omega), hnat]
  dsimp only
  rw [isInf_eq_false h]
  rfl

/-- **Within the limits** the scaled number is the double in whose interval the exact one
lies. -/
theorem exists_scaled? (hS : S ≠ 0) (hfits : S < 2 ^ 53) (hK : K.natAbs ≤ 22)
    (hm : 2 ^ 52 ≤ m) (hm' : m < 2 ^ 53) (hlow : -1074 ≤ e) (hhigh : e ≤ 971)
    (h : RoundsTo (S * 10 ^ K) m e) :
    ∃ x, scaled? (Float.ofNat S) K = some x ∧ parts x = .finite false m e := by
  have hten : 10 ^ K.natAbs < 2 ^ 74 :=
    (Nat.pow_le_pow_right (by decide) hK).trans_lt (by decide)
  have hpower : 0 < 10 ^ K.natAbs := Nat.pow_pos (by decide)
  obtain ⟨i, p, hi, hi', hi'', hsignificand⟩ := isParts_ofNat hS (by omega)
  obtain ⟨j, q, hj, hj', hj'', hscale⟩ := isParts_powerOfTen (k := K.natAbs) (by omega)
  rw [nearest_eq_self hfits] at hsignificand
  rw [nearest_ten_pow _ (by omega)] at hscale
  have hp := low_le_of_magnitude hi'' hsignificand (by omega)
  have hq := low_le_of_magnitude hj'' hscale hpower
  have hq' := high_lt_of_magnitude hj' hscale hten
  rcases lt_or_ge K 0 with hneg | hnonneg
  · have hquotient : (S * 10 ^ K : ℚ) = magnitude i p / magnitude j q := by
      rw [hsignificand, hscale, show K = -(K.natAbs : Int) by omega, zpow_neg, zpow_natCast,
        Int.natAbs_neg, Int.natAbs_natCast, Nat.cast_pow, Nat.cast_ofNat, div_eq_mul_inv]
    rw [hquotient] at h
    exact ⟨_, scaled?_of_neg _ hneg (by omega),
      parts_div hi hj hi' hi'' hj' hj'' (by omega) hm hm' hlow hhigh h⟩
  · have hproduct : (S * 10 ^ K : ℚ) = magnitude i p * magnitude j q := by
      rw [hsignificand, hscale, show K = (K.natAbs : Int) by omega, zpow_natCast,
        Int.natAbs_natCast, Nat.cast_pow, Nat.cast_ofNat]
    rw [hproduct] at h
    have hparts := parts_mul hi hj hi' hj' (by omega) hm hm' hlow hhigh h
    exact ⟨_, scaled?_of_nonneg hnonneg (by omega) hparts, hparts⟩

/-- The upper end of the interval of the second greatest double. -/
def secondEnd : Nat := (4 * (2 ^ 53 - 2) + 2) * 2 ^ 969

/-- The shortest decimal of the greatest double; its exponent is 292. -/
def greatestSignificand : Nat := 17976931348623157

/-- The roundings of a significand and of a power of ten do not carry their product over the
end of the doubles. -/
theorem nearest_mul_nearest_lt {k : Nat} (hS : S ≤ 10 ^ 17) (h : S * 10 ^ k ≤ secondEnd)
    (hk : k ≤ 308) :
    nearest S * nearest (10 ^ k) < overflowEnd := by
  rcases Nat.lt_or_ge k 292 with hsmall | hlarge
  · calc nearest S * nearest (10 ^ k)
        ≤ nearest (10 ^ 17) * nearest (10 ^ 291) :=
          Nat.mul_le_mul (nearest_mono hS)
            (nearest_mono (Nat.pow_le_pow_right (by decide) (by omega)))
      _ < overflowEnd := by decide +kernel
  · -- Seventeen powers are left, each with its own greatest significand.
    have hcheck : ∀ j < 17,
        nearest (secondEnd / 10 ^ (292 + j)) * nearest (10 ^ (292 + j)) < overflowEnd := by
      decide +kernel
    have hquotient : S ≤ secondEnd / 10 ^ k :=
      (Nat.le_div_iff_mul_le (Nat.pow_pos (by decide))).2 h
    obtain ⟨j, rfl⟩ := Nat.exists_eq_add_of_le hlarge
    exact (Nat.mul_le_mul_right _ (nearest_mono hquotient)).trans_lt (hcheck j (by omega))

/-- **What is not beyond the second greatest double** is not too large, and the shortest
decimal of the greatest one is not, either. -/
theorem isSome_scaled? (hS : S ≠ 0) (hle : S ≤ 10 ^ 17)
    (h : (S : ℚ) * 10 ^ K ≤ secondEnd ∨ S = greatestSignificand ∧ K = 292) :
    (scaled? (Float.ofNat S) K).isSome = true := by
  rcases lt_or_ge K 0 with hneg | hnonneg
  · rw [scaled?, if_neg (not_le.2 hneg)]
    rfl
  obtain ⟨k, rfl⟩ := Int.eq_ofNat_of_zero_le hnonneg
  have hsmall : k ≤ 308 ∧ nearest S * nearest (10 ^ k) < overflowEnd := by
    rcases h with hsecond | ⟨rfl, hk⟩
    · have hsecond : S * 10 ^ k ≤ secondEnd := by
        rw [zpow_natCast] at hsecond
        exact_mod_cast hsecond
      have hpower {j : Nat} (hend : secondEnd < 10 ^ j) : k < j := by
        by_contra hlarge
        have hle : 10 ^ j ≤ 10 ^ k := Nat.pow_le_pow_right (by decide) (not_lt.1 hlarge)
        exact absurd (hle.trans ((Nat.le_mul_of_pos_left _ (by omega)).trans hsecond))
          (not_le.2 hend)
      have hk : k ≤ 308 := Nat.le_of_lt_succ (hpower (by decide +kernel))
      exact ⟨hk, nearest_mul_nearest_lt hle hsecond hk⟩
    · obtain rfl : k = 292 := by omega
      exact ⟨by decide, by decide +kernel⟩
  obtain ⟨hk, hlt⟩ := hsmall
  have hpower : 0 < 10 ^ k := Nat.pow_pos (by decide)
  obtain ⟨i, p, hi, hi', hi'', hsignificand⟩ := isParts_ofNat hS (by omega)
  obtain ⟨j, q, hj, hj', hj'', hscale⟩ := isParts_powerOfTen hk
  have hproduct : magnitude i p * magnitude j q < overflowEnd := by
    rw [hsignificand, hscale]
    exact_mod_cast hlt
  have hp := low_le_of_magnitude hi'' hsignificand (nearest_pos hS)
  have hq := low_le_of_magnitude hj'' hscale (nearest_pos hpower.ne')
  obtain ⟨m, e, hparts⟩ := exists_parts_mul hi hj hi' hj' (by omega) hproduct
  rw [scaled?_of_nonneg hnonneg (by omega) hparts]
  rfl

end Scaled

end FormulaTable.Document
