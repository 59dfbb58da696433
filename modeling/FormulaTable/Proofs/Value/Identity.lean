import Mathlib
import FormulaTable.Value.Basic

/-!
# Equality of values, and their bytes

Equality of content is what a hash table asks for, beside the bytes that it files a value
under. It is symmetric and transitive, and all values but a NaN are equal to themselves.
Equal values have the same bytes, with one exception: the two zeros are equal as numbers,
but a double is filed under its bits.

* `Value.beq_iff` — equal values are identical ones, except for the two zeros.
* `Value.toBits_ofBits` — a double has the bits that it is made from, unless they are those
  of a NaN.
* `Value.equality_and_bytes` — what equality and bytes have in common.
-/

namespace FormulaTable.Value

/-- Is it a double that is no number? -/
def isNaN : Value → Bool
  | float x => x.isNaN
  | _ => false

/-- The two zeros, one of each sign. -/
def OppositeZeros (a b : Value) : Prop :=
  (a = float 0 ∧ b = float (-0)) ∨ (a = float (-0) ∧ b = float 0)

variable {a b c : Value}

/-! ### Equality -/

namespace OppositeZeros

/-- Opposite zeros are so either way round. -/
theorem symm (h : OppositeZeros a b) : OppositeZeros b a := by
  rcases h with ⟨ha, hb⟩ | ⟨ha, hb⟩
  · exact .inr ⟨hb, ha⟩
  · exact .inl ⟨hb, ha⟩

/-- Opposite zeros are two values. -/
theorem ne (h : OppositeZeros a b) : a ≠ b := by
  rcases h with ⟨rfl, rfl⟩ | ⟨rfl, rfl⟩ <;> decide

/-- Opposite zeros are numbers. -/
theorem isNaN_eq_false (h : OppositeZeros a b) : a.isNaN = false := by
  rcases h with ⟨rfl, rfl⟩ | ⟨rfl, rfl⟩ <;> decide

/-- There are no three zeros. -/
theorem eq_of_common (hab : OppositeZeros a b) (hbc : OppositeZeros b c) : a = c := by
  rcases hab with ⟨rfl, rfl⟩ | ⟨rfl, rfl⟩ <;> rcases hbc with ⟨h, rfl⟩ | ⟨h, rfl⟩ <;>
    first | rfl | exact absurd h (by decide)

end OppositeZeros

/-- Doubles are equal if they are the same number or opposite zeros. -/
theorem equals_float {x y : Float} : (float x).equals (float y) = true ↔
    (float x = float y ∧ (float x).isNaN = false) ∨ OppositeZeros (float x) (float y) := by
  have hplus : (0 : Float) ≠ Float.nan := by decide
  have hminus : (-0 : Float) ≠ Float.nan := by decide
  show (x == y) = true ↔ _
  rw [Float.beq_iff_ne_nan_and_eq, isNaN, Float.isNaN_eq_decide_eq_nan,
    decide_eq_false_iff_not, OppositeZeros]
  simp only [float.injEq]
  constructor
  · rintro ⟨hx, -, rfl | hzeros⟩
    · exact .inl ⟨rfl, hx⟩
    · exact .inr hzeros
  · rintro (⟨rfl, hx⟩ | ⟨rfl, rfl⟩ | ⟨rfl, rfl⟩)
    · exact ⟨hx, hx, .inl rfl⟩
    · exact ⟨hplus, hminus, .inr (.inl ⟨rfl, rfl⟩)⟩
    · exact ⟨hminus, hplus, .inr (.inr ⟨rfl, rfl⟩)⟩

/-- **Equal values** are identical and no NaN, or they are the two zeros. -/
theorem beq_iff : (a == b) = true ↔ (a = b ∧ a.isNaN = false) ∨ OppositeZeros a b := by
  show a.equals b = true ↔ _
  cases a <;> cases b
  case float.float x y => exact equals_float
  all_goals simp [equals, isNaN, OppositeZeros]

/-- A value is equal to itself unless it is a NaN. -/
theorem beq_self_iff : (a == a) = true ↔ a.isNaN = false := by
  rw [beq_iff]
  exact ⟨fun h => h.elim And.right fun h => absurd rfl h.ne, fun h => .inl ⟨rfl, h⟩⟩

/-- **Equality is symmetric and transitive.** -/
instance : PartialEquivBEq Value where
  symm {a b} h := by
    rw [beq_iff] at h ⊢
    rcases h with ⟨rfl, ha⟩ | hzeros
    · exact .inl ⟨rfl, ha⟩
    · exact .inr hzeros.symm
  trans {a b c} hab hbc := by
    rw [beq_iff] at hab hbc ⊢
    rcases hab with ⟨rfl, -⟩ | hab
    · exact hbc
    rcases hbc with ⟨rfl, -⟩ | hbc
    · exact .inr hab
    · exact .inl ⟨hab.eq_of_common hbc, hab.isNaN_eq_false⟩

/-! ### Bytes -/

/-- The two zeros have different bytes. -/
theorem OppositeZeros.hashBytes_ne (h : OppositeZeros a b) : a.hashBytes ≠ b.hashBytes := by
  rcases h with ⟨rfl, rfl⟩ | ⟨rfl, rfl⟩ <;> decide

/-- The bytes of equal values are the same, except for the two zeros. -/
theorem hashBytes_eq_iff (h : (a == b) = true) :
    a.hashBytes = b.hashBytes ↔ ¬ OppositeZeros a b := by
  rcases beq_iff.1 h with ⟨rfl, -⟩ | hzeros
  · exact iff_of_true rfl fun hzeros => hzeros.ne rfl
  · exact iff_of_false hzeros.hashBytes_ne fun hnot => hnot hzeros

open Float.Model.UnpackedFloat in
/-- A double has the bits that it is made from, unless they are those of a NaN. -/
theorem toBits_ofBits {w : UInt64} (h : (Float.ofBits w).isNaN = false) :
    (Float.ofBits w).toBits = w := by
  have hpacked : (Float.ofBits w).toBits.toBitVec =
      if @isNaNBits .binary64 w.toBitVec then packedNaN .binary64 else w.toBitVec :=
    @pack_unpack .binary64 w.toBitVec (by decide)
  split at hpacked
  · have hnan : (Float.ofBits w).isNaN = true := by
      show (unpack .binary64 (Float.ofBits w).toBits.toBitVec).isNaN = true
      rw [hpacked, unpack_packedNaN]
      rfl
    rw [h] at hnan
    cases hnan
  · exact UInt64.toBitVec_inj.1 hpacked

/-- A double is filed under its bits, whatever they are, as long as they make a number. -/
theorem hashBytes_ofBits {w : UInt64} (h : (Float.ofBits w).isNaN = false) :
    (float (Float.ofBits w)).hashBytes = 1 :: wordBytes 8 w.toNat := by
  rw [hashBytes, toBits_ofBits h]

/-- What equality has in common with the bytes that a value is filed under. -/
structure EqualityAndBytes (a b c : Value) : Prop where
  /-- All values but a NaN are equal to themselves. -/
  self : (a == a) = true ↔ a.isNaN = false
  symm : (a == b) = true → (b == a) = true
  trans : (a == b) = true → (b == c) = true → (a == c) = true
  /-- Equal values are filed under the same bytes, except for the two zeros. -/
  bytes : (a == b) = true → (a.hashBytes = b.hashBytes ↔ ¬ OppositeZeros a b)
  /-- The two zeros are equal. -/
  zeros : OppositeZeros a b → (a == b) = true

/-- **Equality and bytes agree**, except for a NaN, which is not equal to itself, and for
the two zeros, which are equal but filed under different bytes. -/
theorem equality_and_bytes (a b c : Value) : EqualityAndBytes a b c where
  self := beq_self_iff
  symm := PartialEquivBEq.symm
  trans := PartialEquivBEq.trans
  bytes := hashBytes_eq_iff
  zeros h := beq_iff.2 (.inr h)

/-- An integer is equal to itself; the zeros are equal, but their bytes are not. -/
theorem equality_and_bytes_zeros :
    (int 7 == int 7) = true ∧ (float 0 == float (-0)) = true ∧
    (float 0).hashBytes ≠ (float (-0)).hashBytes :=
  have hzeros : OppositeZeros (float 0) (float (-0)) := .inl ⟨rfl, rfl⟩
  have hequal := (equality_and_bytes (float 0) (float (-0)) .null).zeros hzeros
  ⟨(equality_and_bytes (int 7) (int 7) (int 7)).self.2 rfl, hequal,
    fun hbytes => ((equality_and_bytes (float 0) (float (-0)) .null).bytes hequal).1
      hbytes hzeros⟩

/-- The bytes of one half: those of its kind, and of its bits from the lowest. -/
example : (float (Float.ofBits 0x3fe0000000000000)).hashBytes =
    [1, 0, 0, 0, 0, 0, 0, 0xe0, 0x3f] :=
  hashBytes_ofBits (by decide)

/-- **A NaN is not equal to itself**, and the two zeros are equal but have different
bytes. -/
theorem nan_ne_self_and_zeros_apart :
    (float Binary.notANumber == float Binary.notANumber) = false ∧
      (float 0 == float (-0)) = true ∧ (float 0).hashBytes ≠ (float (-0)).hashBytes :=
  ⟨rfl, rfl, by decide⟩

end FormulaTable.Value
