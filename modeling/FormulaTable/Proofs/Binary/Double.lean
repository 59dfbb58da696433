import Mathlib
import FormulaTable.Proofs.Binary.Number
import FormulaTable.Value.Basic

/-!
# Doubles as numbers

A double is computed with in its unpacked form and stored as bits. Both stand for one
number, the parts of the double: doubles are compared as the numbers that their parts are,
and a double that is put together from parts is the number with these parts.

* `ofUnpacked_unpack` — what is unpacked from bits is the number that they stand for.
* `parts_ofBits`, `same_ofParts` — the parts of a double that is made from bits, or from
  parts.
* `same_ofHalf`, `same_ofSingle` — what is read from two or four bytes is the same number.
* `compareFloats?_eq` — the order of two doubles is that of the numbers.
-/

namespace FormulaTable.Binary

open Float.Model (UnpackedFloat)
open Float.Model.UnpackedFloat
open Float.Model.Format (binary64)

/-- Is the sign that of negative numbers? -/
def isMinus : Sign → Bool
  | .negative => true
  | .positive => false

/-- The number that the parts of a double, without its leading bit, stand for. -/
def ofUnpacked : UnpackedFloat → Number
  | .notANumber => .nan
  | .infinity s => .infinite (isMinus s)
  | .zero s => .finite (isMinus s) 0 double.lowestExponent
  | .finite s m e _ => .finite (isMinus s) m e

/-- The number with a sign, an exponent field and a fraction. -/
def ofFields (negative : Bool) (field fraction : Nat) : Number :=
  if field = 2047 then if fraction = 0 then .infinite negative else .nan
  else if field = 0 then .finite negative fraction (-1074)
  else .finite negative (fraction + 2 ^ 52) (-1074 + (field - 1 : Nat))

/-- A double is decoded by its sign, its eleven bits of exponent and its 52 bits of
fraction. -/
theorem decode_double (n : Nat) :
    double.decode n = ofFields (n / 2 ^ 63 % 2 == 1) (n / 2 ^ 52 % 2 ^ 11) (n % 2 ^ 52) :=
      rfl

section Fields

variable (b : BitVec 64)

/-- The fraction of a double is the number of its last 52 bits. -/
theorem toNat_unpackMantissa : (@unpackMantissa binary64 b).toNat = b.toNat % 2 ^ 52 := by
  simp [unpackMantissa]

/-- The exponent of a double is the number of the eleven bits before the fraction. -/
theorem toNat_unpackExponent :
    (@unpackExponent binary64 b).toNat = b.toNat / 2 ^ 52 % 2 ^ 11 := by
  simp [unpackExponent, Nat.shiftRight_eq_div_pow]

/-- The sign of a double is the bit in front. -/
theorem toNat_unpackSign : (@unpackSign binary64 b).toNat = b.toNat / 2 ^ 63 % 2 := by
  simp [unpackSign, Nat.shiftRight_eq_div_pow]

/-- A sign bit that is set stands for a minus. -/
theorem isMinus_ofBitVec (v : BitVec 1) : isMinus (Sign.ofBitVec v) = (v.toNat == 1) := by
  revert v
  decide

/-- The implicit bit in front of a fraction adds `2 ^ 52` to it. -/
theorem toNat_append_implicit (v : BitVec 52) : (1#1 ++ v).toNat = v.toNat + 2 ^ 52 := by
  rw [BitVec.toNat_append, ← Nat.shiftLeft_add_eq_or_of_lt v.isLt]
  simp [Nat.shiftLeft_eq, Nat.add_comm]

/-- What a bit pattern stands for, by its fields. -/
theorem decode_fields : double.decode b.toNat =
    if @unpackExponent binary64 b = -1#11 then
      if @unpackMantissa binary64 b = 0#52 then
        .infinite (isMinus (.ofBitVec (@unpackSign binary64 b))) else .nan
    else if @unpackExponent binary64 b = 0#11 then
      .finite (isMinus (.ofBitVec (@unpackSign binary64 b)))
        (@unpackMantissa binary64 b).toNat (-1074)
    else
      .finite (isMinus (.ofBitVec (@unpackSign binary64 b)))
        ((@unpackMantissa binary64 b).toNat + 2 ^ 52)
        (-1074 + ((@unpackExponent binary64 b).toNat - 1 : Nat)) := by
  rw [decode_double, isMinus_ofBitVec, toNat_unpackSign, ← toNat_unpackExponent,
    ← toNat_unpackMantissa, ofFields]
  simp only [← BitVec.toNat_inj]
  rfl

/-- **Unpacking** a bit pattern gives the number that it stands for. -/
theorem ofUnpacked_unpack : ofUnpacked (unpack binary64 b) = double.decode b.toNat := by
  rw [decode_fields, unpack]
  dsimp only
  -- Both sides ask the same of the fields.
  split
  · split <;> rfl
  split
  · next hlow =>
    split
    · next hnone =>
      rw [hnone]
      rfl
    · rw [hlow]
      rfl
  · next hlow =>
    have hpos : (@unpackExponent binary64 b).toNat ≠ 0 := fun h =>
      hlow (BitVec.eq_of_toNat_eq h)
    have hplace : ((@unpackExponent binary64 b).toNat : Int) - 1075 =
        -1074 + ((@unpackExponent binary64 b).toNat - 1 : Nat) := by omega
    rw [ofUnpacked, toNat_append_implicit]
    exact congrArg _ hplace

/-- The parts of a double that is made from bits are those of the bits; only the bits of a
NaN may change. -/
theorem parts_ofBits (a : UInt64) : parts (Float.ofBits a) = double.decode a.toNat := by
  have hpack := @pack_unpack binary64 a.toBitVec (by decide)
  show double.decode (pack binary64 (unpack binary64 a.toBitVec)).toNat =
    double.decode a.toBitVec.toNat
  rw [hpack]
  split
  · next hnan =>
    obtain ⟨htop, hsome⟩ := of_decide_eq_true hnan
    rw [decode_fields a.toBitVec, if_pos htop, if_neg hsome]
    rfl
  · rfl

end Fields

section Parts

/-- The parts of the double with a sign, an exponent field and a fraction. -/
theorem parts_word (negative : Bool) {field fraction : Nat} (hfield : field < 2 ^ 11)
    (hfraction : fraction < 2 ^ 52) :
    parts (Float.ofBits (UInt64.ofNat
        ((if negative then 0x8000000000000000 else 0) + field * 0x10000000000000
      + fraction))) = ofFields negative field fraction := by
  rw [parts_ofBits, UInt64.toNat_ofNat_of_lt' (by rw [UInt64.size]; split <;> omega),
    decode_double]
  congr 1
  · cases negative <;> simp <;> omega
  · split <;> omega
  · split <;> omega

/-- The fields of a number that the format holds. -/
theorem parts_ofHeld (negative : Bool) {m : Nat} {e : Int} (h : double.Holds m e) :
    parts (Float.ofBits (UInt64.ofNat ((if negative then 0x8000000000000000 else 0)
      + (if m < 0x10000000000000 then 0 else (e - double.lowestExponent).toNat + 1) *
        0x10000000000000
      + m % 0x10000000000000))) = .finite negative m e := by
  have hlow : double.lowestExponent = -1074 := rfl
  have hfits : m < 2 ^ 53 := h.fits
  have hlowest : -1074 ≤ e := h.lowest_le
  have hhighest : e < -1074 + 2 ^ 11 - 2 := h.le_highest
  have hfull : 2 ^ 52 ≤ m ∨ e = -1074 := h.full
  have hfraction : m % 0x10000000000000 < 2 ^ 52 := Nat.mod_lt _ (by decide)
  rw [hlow, parts_word negative _ hfraction, ofFields]
  · split
    · next hsmall =>
      rw [if_neg (by decide), if_pos rfl, Nat.mod_eq_of_lt hsmall,
        hfull.resolve_left (by omega)]
    · next hlarge =>
      rw [if_neg (by omega), if_neg (by omega)]
      congr 1 <;> omega
  · split <;> omega

/-- **A double that is put together from parts** is the number with these parts. -/
theorem same_ofParts {m : Nat} {e : Int} (negative : Bool) (hm : m < 2 ^ 53)
    (hlow : -1074 ≤ e) (hhigh : e ≤ 971) :
    (parts (ofParts negative m e)).Same (.finite negative m e) := by
  by_cases hzero : m = 0
  · have hparts : parts (ofParts negative m e) = ofFields negative 0 0 := by
      rw [ofParts, if_pos hzero]
      simpa using @parts_word negative 0 0 (by decide) (by decide)
    rw [hparts, hzero]
    cases negative <;> simp [ofFields, Number.Same, Number.amount?,
      Number.isNegative, magnitude]
  · have hhigh : e < double.lowestExponent + 2 ^ double.exponentBits - 2 := by
      show e < -1074 + 2 ^ 11 - 2
      omega
    have hparts : parts (ofParts negative m e) =
        (Number.finite negative m e).widen double := by
      rw [ofParts, if_neg hzero]
      exact parts_ofHeld negative (Format.holds_align hzero hm hlow hhigh)
    rw [hparts]
    exact Number.same_widen double _

/-- The bit pattern of the NaN stands for no number. -/
theorem parts_notANumber : parts notANumber = .nan := parts_ofBits _

/-- The bit patterns of the infinities stand for them. -/
theorem parts_infinity (negative : Bool) :
    parts (infinity negative) = .infinite negative := by
  cases negative <;> exact parts_ofBits _

/-- **A number of a narrower format** is the same number as a double. -/
theorem same_toFloat {f : Format} (hprecision : 0 < f.precision)
    (hexponent : 2 ≤ f.exponentBits) (hnarrow : f.precision ≤ 53)
    (hlow : -1074 ≤ f.lowestExponent) (hhigh : f.lowestExponent + 2 ^ f.exponentBits ≤ 974)
    (bits : Nat) :
    (parts (f.decode bits).toFloat).Same (f.decode bits) := by
  generalize hx : f.decode bits = x
  cases x with
  | nan =>
      rw [Number.toFloat, parts_notANumber]
      exact ⟨rfl, rfl⟩
  | infinite negative =>
      rw [Number.toFloat, parts_infinity]
      exact ⟨rfl, rfl⟩
  | finite negative m e =>
      have hholds := Format.holds_decode hprecision hexponent hx
      have hm := hholds.fits.trans_le (Nat.pow_le_pow_right Nat.two_pos hnarrow)
      have := hholds.lowest_le
      have := hholds.le_highest
      exact same_ofParts negative hm (by omega) (by omega)

/-- A half is read as the number that its bits stand for. -/
theorem same_ofHalf (bits : UInt16) : (parts (ofHalf bits)).Same (half.decode bits.toNat) :=
  same_toFloat (by decide) (by decide) (by decide) (by decide) (by decide) bits.toNat

/-- A single is read as the number that its bits stand for. -/
theorem same_ofSingle (bits : UInt32) :
    (parts (ofSingle bits)).Same (single.decode bits.toNat) :=
  same_toFloat (by decide) (by decide) (by decide) (by decide) (by decide) bits.toNat

end Parts

section Order

/-- The unpacked finite numbers are held by the format. -/
def Canonical (x : UnpackedFloat) : Prop :=
  ∀ s m e h, x = .finite s m e h → double.Holds m e

/-- The parts of a double can be read off its unpacked form. -/
theorem parts_eq_ofUnpacked (a : Float) : parts a = ofUnpacked a.toModel.unpack :=
  (ofUnpacked_unpack a.toModel.toBits.toBitVec).symm

/-- The unpacked form of a double is canonical. -/
theorem canonical_unpack (a : Float) : Canonical a.toModel.unpack := by
  intro s m e h hx
  have hparts : parts a = .finite (isMinus s) m e := by
    rw [parts_eq_ofUnpacked, hx, ofUnpacked]
  exact Format.holds_decode (by decide) (by decide) hparts

/-- Finite numbers are compared by sign, and then by exponent and significand. -/
theorem compare_finite {s t : Sign} {m n : Nat} {e k : Int} {hm : 0 < m} {hn : 0 < n}
    (hx : Canonical (.finite s m e hm)) (hy : Canonical (.finite t n k hn)) :
    (finite s m e hm).compare (finite t n k hn) =
      (ofUnpacked (finite s m e hm)).order? (ofUnpacked (finite t n k hn)) := by
  have hcompare := compare_magnitude (by decide) (hx _ _ _ _ rfl) (hy _ _ _ _ rfl)
  have hxpos := magnitude_pos e hm
  have hypos := magnitude_pos k hn
  have hneg : StrictAnti (Neg.neg : ℚ → ℚ) := fun _ _ => neg_lt_neg
  cases s <;> cases t
  all_goals
    refine congrArg some ?_
    rw [Amount.compare_ofRat, eq_comm]
  · rw [← hcompare, ← cmp_eq_compare, ← cmp_eq_compare, cmp_swap, hneg.cmp_map_eq]
  · exact compare_lt_iff_lt.2 ((neg_neg_of_pos hxpos).trans hypos)
  · exact compare_gt_iff_gt.2 ((neg_neg_of_pos hypos).trans hxpos)
  · exact hcompare

/-- What was unpacked is in the order of the numbers that it stands for. -/
theorem compare_unpacked {x y : UnpackedFloat} (hx : Canonical x) (hy : Canonical y) :
    x.compare y = (ofUnpacked x).order? (ofUnpacked y) := by
  rcases x with (_ | _) | _ | (_ | _) | ⟨_ | _, m, e, hm⟩ <;>
    rcases y with (_ | _) | _ | (_ | _) | ⟨_ | _, n, k, hn⟩
  -- An infinity is compared by computation, and a zero by the sign of the other number.
  all_goals first
    | rfl
    | exact compare_finite hx hy
    | simp (disch := assumption) [UnpackedFloat.compare, ofUnpacked, Number.order?,
        Number.amount?, isMinus,
        Amount.compare_ofRat, magnitude_zero, magnitude_pos, @eq_comm _ Ordering.lt,
        @eq_comm _ Ordering.gt, compare_lt_iff_lt, compare_gt_iff_gt]

/-- **Two doubles** are in the order of the numbers that they are. -/
theorem compareFloats?_eq (a b : Float) :
    Value.compareFloats? a b = (parts a).order? (parts b) := by
  have hcompare (a b : Float) : a.toModel.unpack.compare b.toModel.unpack = (parts a).order?
      (parts b) := by
    rw [parts_eq_ofUnpacked, parts_eq_ofUnpacked]
    exact compare_unpacked (canonical_unpack a) (canonical_unpack b)
  have hlt (a b : Float) : a < b ↔ (parts a).order? (parts b) = some .lt := by
    rw [← hcompare]
    show Float.lt a b = true ↔ _
    rw [Float.lt, decide_eq_true_iff]
    show a.toModel.unpack.lt b.toModel.unpack = true ↔ _
    simp [UnpackedFloat.lt]
  have heq : (a == b) = true ↔ (parts a).order? (parts b) = some .eq := by
    rw [← hcompare]
    show a.toModel.unpack.beq b.toModel.unpack = true ↔ _
    simp [UnpackedFloat.beq]
  rw [Value.compareFloats?]
  simp only [hlt, heq, Number.order?_swap (parts a) (parts b)]
  rcases (parts a).order? (parts b) with _ | _ | _ | _ <;> rfl

end Order

end FormulaTable.Binary
