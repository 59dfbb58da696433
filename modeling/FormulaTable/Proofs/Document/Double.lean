import FormulaTable.Document.Printer
import FormulaTable.Proofs.Decimal.Shortest
import FormulaTable.Proofs.Document.Number
import FormulaTable.Proofs.Document.Scaling

/-!
# Doubles in documents

A finite double is written as the shortest decimal that is rounded to it, and this is one
number of the form that documents ask for. It is read as its digits, scaled by a power of
ten. All its digits fit 64 bits, and none is too large to be read. What is read is the
double itself, if its digits and its power of ten are doubles.

* `writeFloat_eq`, `wellFormed_ofFinite` — what is written for a finite double is one
  number.
* `toDocument_ofFinite` — what that number is read as.
* `isSome_reread?` — every finite double is read as a number.
* `reread?_eq_self` — a double with few digits is read as it was written.
-/

namespace FormulaTable.Document

open Binary (parts double magnitude RoundsTo lowerEnd upperEnd)
open Decimal (AllDigits Digits digitsValue)

/-! ### The written number -/

namespace WrittenNumber

/-- How a positive decimal is written in the compact layout. -/
def ofDigits (negative : Bool) (d : Digits) : WrittenNumber :=
  let count := d.digits.length
  if -4 ≤ d.point ∧ d.point ≤ 16 then
    if d.point ≤ 0 then
      ⟨negative, ['0'], some (List.replicate (-d.point).toNat '0' ++ d.digits), none⟩
    else if (count : Int) ≤ d.point then
      ⟨negative, d.digits ++ List.replicate (d.point - count).toNat '0', some ['0'], none⟩
    else ⟨negative, d.digits.take d.point.toNat, some (d.digits.drop d.point.toNat), none⟩
  else
    ⟨negative, d.digits.take 1, if count ≤ 1 then none else some (d.digits.drop 1),
      some (d.point - 1 < 0, Nat.toDigits 10 (d.point - 1).natAbs)⟩

/-- How the number `± m · 2 ^ e` is written. -/
def ofFinite (negative : Bool) (m : Nat) (e : Int) : WrittenNumber :=
  if m = 0 then ⟨negative, ['0'], some ['0'], none⟩
    else ofDigits negative (Decimal.shortest double m e)

section Writing

variable {negative : Bool} {d : Digits} {m : Nat} {e : Int}

/-- The sign of a written decimal is the one that is given. -/
theorem negative_ofDigits : (ofDigits negative d).negative = negative := by
  rw [ofDigits]
  split_ifs <;> rfl

/-- The sign of a written double is the one that is given. -/
theorem negative_ofFinite : (ofFinite negative m e).negative = negative := by
  rw [ofFinite]
  split_ifs
  · rfl
  · exact negative_ofDigits

/-- The characters of an exponent. -/
theorem writeExponent_toDigits (k : Int) :
    writeExponent (some (decide (k < 0), Nat.toDigits 10 k.natAbs)) = 'e' ::
      (toString k).toList := by
  rw [Decimal.toList_toString, writeExponent]
  rcases lt_or_ge k 0 with hneg | hnonneg
  · rw [decide_eq_true hneg, if_neg (not_le.2 hneg)]
    rfl
  · rw [decide_eq_false (not_lt.2 hnonneg), if_pos hnonneg]
    rfl

/-- The characters of a decimal are those of the compact layout, after the sign. -/
theorem write_ofDigits (negative : Bool) (d : Digits) :
    (ofDigits negative d).write = (if negative then ['-'] else []) ++
      Decimal.compact.arrange d := by
  rw [write, negative_ofDigits]
  refine congrArg _ ?_
  show _ = if -4 ≤ d.point ∧ d.point ≤ 16 then d.positional ['.', '0'] else d.scientific
  rw [ofDigits, Digits.positional, Digits.scientific, ← writeExponent_toDigits]
  split_ifs
  all_goals
    simp only [writeFraction, writeExponent, List.append_assoc, List.append_nil,
      List.cons_append, List.nil_append]

/-- What is written for the parts of a double is its compact decimal. -/
theorem write_ofFinite (negative : Bool) (m : Nat) (e : Int) :
    (ofFinite negative m e).write =
      (Decimal.compact.write double (.finite negative m e)).toList := by
  rw [ofFinite, Decimal.Layout.write, String.toList_ofList]
  by_cases hm : m = 0
  · rw [if_pos hm, if_pos hm]
    cases negative <;> rfl
  · rw [if_neg hm, if_neg hm, write_ofDigits]
    cases negative <;> rfl

/-- **What is written** for a finite double is one number. -/
theorem writeFloat_eq {x : Float} (h : parts x = .finite negative m e) :
    writeFloat x = (ofFinite negative m e).write := by
  rw [writeFloat, h, Decimal.compactText, h, write_ofFinite]

/-- A written decimal is of the form that documents ask for. -/
theorem wellFormed_ofDigits (h : d.IsDecimalOf m e) : (ofDigits negative d).WellFormed := by
  obtain ⟨hne, hall, hleading, -, -, -, -⟩ := h
  have hcount : 0 < d.digits.length := List.length_pos_iff.2 hne
  have htake (k : Nat) (hk : 0 < k) : IsRow (d.digits.take k) ∧
      (d.digits.take k).head? ≠ some '0' := by
    refine ⟨⟨?_, fun c hc => hall c (List.mem_of_mem_take hc)⟩, ?_⟩
    · rw [← List.length_pos_iff, List.length_take]
      omega
    · rwa [List.head?_take, if_neg hk.ne']
  have hdrop (k : Nat) (hk : k < d.digits.length) : IsRow (d.digits.drop k) := by
    refine ⟨?_, fun c hc => hall c (List.mem_of_mem_drop hc)⟩
    rw [← List.length_pos_iff, List.length_drop]
    omega
  have hexponent : IsRow (Nat.toDigits 10 (d.point - 1).natAbs) :=
    ⟨Nat.toDigits_ne_nil, Decimal.allDigits_toDigits _⟩
  rw [ofDigits]
  split_ifs with hrange hsmall hwhole hone
  · refine ⟨isRow_zero, fun _ => rfl, ?_, by simp⟩
    rintro ds ⟨⟩
    exact ⟨List.append_ne_nil_of_right_ne_nil _ hne,
      Decimal.allDigits_append.2 ⟨Decimal.allDigits_replicate_zero _, hall⟩⟩
  · refine ⟨⟨List.append_ne_nil_of_left_ne_nil hne _, ?_⟩, ?_, ?_, by simp⟩
    · exact Decimal.allDigits_append.2 ⟨hall, Decimal.allDigits_replicate_zero _⟩
    · rw [List.head?_append_of_ne_nil _ hne]
      exact fun hzero => absurd hzero hleading
    · rintro ds ⟨⟩
      exact isRow_zero
  · obtain ⟨hrow, hhead⟩ := htake d.point.toNat (by omega)
    refine ⟨hrow, fun hzero => absurd hzero hhead, ?_, by simp⟩
    rintro ds ⟨⟩
    exact hdrop _ (by omega)
  · obtain ⟨hrow, hhead⟩ := htake 1 Nat.one_pos
    refine ⟨hrow, fun hzero => absurd hzero hhead, by simp, ?_⟩
    rintro ds ⟨⟩
    exact hexponent
  · obtain ⟨hrow, hhead⟩ := htake 1 Nat.one_pos
    refine ⟨hrow, fun hzero => absurd hzero hhead, ?_, ?_⟩
    · rintro ds ⟨⟩
      exact hdrop _ (by omega)
    · rintro ds ⟨⟩
      exact hexponent

/-- The power of ten of a number with an exponent is the value of the exponent. -/
theorem tenExponent_of_eq {w : WrittenNumber} {k : Int}
    (h : w.exponent = some (decide (k < 0), Nat.toDigits 10 k.natAbs)) :
    w.tenExponent = k := by
  rw [tenExponent, h]
  dsimp only
  rw [Decimal.digitsValue_toDigits]
  rcases lt_or_ge k 0 with hneg | hnonneg
  · rw [decide_eq_true hneg, if_pos rfl]
    omega
  · rw [decide_eq_false (not_lt.2 hnonneg), if_neg Bool.false_ne_true]
    omega

/-- The digits of a written decimal, with the zeros that its layout puts before or behind
them. -/
theorem digits_ofDigits (negative : Bool) (hne : d.digits ≠ []) :
    (∃ k, (ofDigits negative d).digits = List.replicate k '0' ++ d.digits ∧
        (ofDigits negative d).power = d.lastPlace) ∨
      (d.digits.length : Int) ≤ d.point ∧ d.point ≤ 16 ∧
        (ofDigits negative d).digits = d.digits ++
        List.replicate (d.point - d.digits.length).toNat '0' ++ ['0'] ∧
        (ofDigits negative d).power = -1 := by
  have hcount : 0 < d.digits.length := List.length_pos_iff.2 hne
  rw [ofDigits, Digits.lastPlace]
  split_ifs with hrange hsmall hwhole hone
  · refine .inl ⟨(-d.point).toNat + 1, rfl, ?_⟩
    simp only [power, tenExponent, Option.getD_some, List.length_append,
      List.length_replicate]
    omega
  · exact .inr ⟨hwhole, hrange.2, rfl, rfl⟩
  · refine .inl ⟨0, List.take_append_drop _ _, ?_⟩
    simp only [power, tenExponent, Option.getD_some, List.length_drop]
    omega
  · refine .inl ⟨0, ?_, ?_⟩
    · rw [digits, Option.getD_none, List.append_nil]
      exact List.take_of_length_le hone
    · rw [power, tenExponent_of_eq rfl, Option.getD_none, List.length_nil]
      omega
  · refine .inl ⟨0, List.take_append_drop _ _, ?_⟩
    rw [power, tenExponent_of_eq rfl, Option.getD_some, List.length_drop]
    omega

/-- A written decimal stands for a number in the interval of the double, and its digits
fit. -/
theorem roundsTo_ofDigits (h : d.IsDecimalOf m e) :
    digitsValue (ofDigits negative d).digits ≤ 10 ^ 17 ∧
      RoundsTo (digitsValue (ofDigits negative d).digits *
          10 ^ (ofDigits negative d).power) m e := by
  obtain ⟨hne, hall, -, hle, hrounds, -, -⟩ := h
  rcases digits_ofDigits negative hne with
    ⟨k, hdigits, hpower⟩ | ⟨hwhole, htop, hdigits, hpower⟩
  · have hvalue : digitsValue (ofDigits negative d).digits = digitsValue d.digits := by
      rw [hdigits, Decimal.digitsValue_append, Decimal.digitsValue_replicate_zero,
        Nat.mul_zero, Nat.zero_add]
    rw [hvalue, hpower]
    exact ⟨hle, hrounds⟩
  · obtain ⟨k, hk⟩ : ∃ k : Nat, d.point = d.digits.length + k :=
      ⟨(d.point - d.digits.length).toNat, by omega⟩
    have hvalue : digitsValue (ofDigits negative d).digits =
        10 ^ (k + 1) * digitsValue d.digits := by
      rw [hdigits, List.append_assoc, show (d.point - d.digits.length).toNat = k by omega,
        ← List.replicate_succ', Decimal.digitsValue_append,
        Decimal.digitsValue_replicate_zero, List.length_replicate, Nat.add_zero]
    have hlast : d.lastPlace = k := by
      rw [Digits.lastPlace]
      omega
    constructor
    · calc digitsValue (ofDigits negative d).digits
          = 10 ^ (k + 1) * digitsValue d.digits := hvalue
        _ ≤ 10 ^ (k + 1) * 10 ^ d.digits.length :=
            Nat.mul_le_mul_left _ (Decimal.digitsValue_lt hall).le
        _ = 10 ^ (k + 1 + d.digits.length) := (pow_add ..).symm
        _ ≤ 10 ^ 17 := Nat.pow_le_pow_right (by decide) (by omega)
    · rw [hlast, zpow_natCast] at hrounds
      convert hrounds using 1
      rw [hvalue, hpower, pow_succ]
      push_cast
      field_simp

/-- The exponent of a written decimal is not far away. -/
theorem tenExponent_ofDigits (h : d.IsDecimalOf m e) :
    (ofDigits negative d).tenExponent.natAbs < 0x80000000 := by
  have hlow := h.point_low
  have hhigh := h.point_high
  rw [ofDigits]
  split_ifs
  case pos | pos | neg => exact (by decide : (0 : Int).natAbs < 0x80000000)
  all_goals
    rw [tenExponent_of_eq rfl]
    omega

/-- A written decimal has a point or an exponent. -/
theorem isSome_ofDigits :
    (ofDigits negative d).fraction.isSome = true ∨
      (ofDigits negative d).exponent.isSome = true := by
  rw [ofDigits]
  split_ifs
  case pos | pos | neg => exact .inl rfl
  all_goals exact .inr rfl

end Writing

end WrittenNumber

/-! ### Reading it back -/

/-- The number as which a finite double is written. -/
def WrittenNumber.ofFloat? (x : Float) : Option WrittenNumber :=
  match parts x with
  | .finite negative m e => some (ofFinite negative m e)
  | _ => none

/-- The double that is read where a finite double was written: its digits, scaled by a power
of ten. -/
def reread? (x : Float) : Option Float := do
  let w ← WrittenNumber.ofFloat? x
  let y ← scaled? (Float.ofNat (digitsValue w.digits)) w.power
  return if w.negative then -y else y

/-- Are the digits with which a double is written, as one integer, below `2 ^ 53`, and is
the power of ten that they are scaled by not beyond `10 ^ 22` or `10 ^ -22`? The integer and
the power are doubles then. -/
def FewDigits (x : Float) : Prop :=
  ∀ w ∈ WrittenNumber.ofFloat? x, digitsValue w.digits < 2 ^ 53 ∧ w.power.natAbs ≤ 22

instance (x : Float) : Decidable (FewDigits x) :=
  inferInstanceAs (Decidable (∀ w ∈ WrittenNumber.ofFloat? x,
      digitsValue w.digits < 2 ^ 53 ∧ w.power.natAbs ≤ 22))

section Reading

variable {x : Float} {negative : Bool} {m : Nat} {e : Int}

/-- A finite double is written as a number. -/
theorem ofFloat?_of_parts (h : parts x = .finite negative m e) :
    WrittenNumber.ofFloat? x = some (.ofFinite negative m e) := by
  rw [WrittenNumber.ofFloat?, h]

/-- A finite double is read again by scaling the number of its digits. -/
theorem reread?_of_parts (h : parts x = .finite negative m e) :
    reread? x =
      (scaled? (Float.ofNat (digitsValue (WrittenNumber.ofFinite negative m e).digits))
        (WrittenNumber.ofFinite negative m e).power).map fun y =>
          if negative then -y else y := by
  rw [reread?, ofFloat?_of_parts h, Option.map_eq_bind]
  simp only [Option.bind_eq_bind, Option.bind_some, WrittenNumber.negative_ofFinite]
  rfl

/-- A double is finite if its parts are those of a number. -/
theorem isFinite_eq (x : Float) :
    x.isFinite = match parts x with | .finite _ _ _ => true | _ => false := by
  rw [Binary.parts_eq_ofUnpacked]
  show x.toModel.unpack.isFinite = _
  cases x.toModel.unpack <;> rfl

/-- A finite double has a sign, a mantissa and an exponent. -/
theorem exists_parts_of_isFinite (h : x.isFinite = true) :
    ∃ negative m e, parts x = .finite negative m e := by
  rw [isFinite_eq] at h
  cases hx : parts x with
  | finite negative m e => exact ⟨negative, m, e, rfl⟩
  | nan | infinite =>
    rw [hx] at h
    cases h

/-- The bounds on the parts of a double. -/
theorem bounds_of_parts (h : parts x = .finite negative m e) :
    m < 2 ^ 53 ∧ -1074 ≤ e ∧ e ≤ 971 ∧ (2 ^ 52 ≤ m ∨ e = -1074) := by
  have hholds := Binary.Format.holds_decode (by decide) (by decide) h
  have hhigh : e < -1074 + 2 ^ 11 - 2 := hholds.le_highest
  exact ⟨hholds.fits, hholds.lowest_le, by omega, hholds.full⟩

/-- The shortest decimal of a double that is not zero is a decimal of it. -/
theorem isDecimalOf_of_parts (h : parts x = .finite negative m e) (hm : m ≠ 0) :
    (Decimal.shortest double m e).IsDecimalOf m e := by
  obtain ⟨hfits, hlow, hhigh, -⟩ := bounds_of_parts h
  exact Decimal.isDecimalOf_shortest (Nat.pos_of_ne_zero hm) hfits hlow hhigh

/-- **What is written** for a finite double is of the form that documents ask for. -/
theorem wellFormed_ofFinite (h : parts x = .finite negative m e) :
    (WrittenNumber.ofFinite negative m e).WellFormed := by
  rw [WrittenNumber.ofFinite]
  split_ifs with hm
  · refine ⟨isRow_zero, fun _ => rfl, ?_, by simp⟩
    rintro ds ⟨⟩
    exact isRow_zero
  · exact WrittenNumber.wellFormed_ofDigits (isDecimalOf_of_parts h hm)

/-- The digits of a finite double fit. -/
theorem digits_ofFinite_le (h : parts x = .finite negative m e) :
    digitsValue (WrittenNumber.ofFinite negative m e).digits ≤ 10 ^ 17 := by
  rw [WrittenNumber.ofFinite]
  split_ifs with hm
  · exact (by decide : digitsValue ['0', '0'] ≤ 10 ^ 17)
  · exact (WrittenNumber.roundsTo_ofDigits (isDecimalOf_of_parts h hm)).1

/-- A finite double is written as a number in its interval. -/
theorem roundsTo_ofFinite (h : parts x = .finite negative m e) (hm : m ≠ 0) :
    RoundsTo (digitsValue (WrittenNumber.ofFinite negative m e).digits *
      10 ^ (WrittenNumber.ofFinite negative m e).power) m e := by
  rw [WrittenNumber.ofFinite, if_neg hm]
  exact (WrittenNumber.roundsTo_ofDigits (isDecimalOf_of_parts h hm)).2

/-- A double that is not zero has digits that are not all zeros. -/
theorem digits_ofFinite_ne_zero (h : parts x = .finite negative m e) (hm : m ≠ 0) :
    digitsValue (WrittenNumber.ofFinite negative m e).digits ≠ 0 := by
  intro hzero
  have hpos := (roundsTo_ofFinite h hm).pos (Nat.pos_of_ne_zero hm)
  rw [hzero, Nat.cast_zero, zero_mul] at hpos
  exact lt_irrefl 0 hpos

/-- **What is written** for a finite double is read as its digits, scaled by a power of
ten. -/
theorem toDocument_ofFinite (h : parts x = .finite negative m e) :
    (WrittenNumber.ofFinite negative m e).toDocument =
      (reread? x).elim .unreadable .number := by
  have hpoint : (WrittenNumber.ofFinite negative m e).fraction.isSome = true ∨
      (WrittenNumber.ofFinite negative m e).exponent.isSome = true := by
    rw [WrittenNumber.ofFinite]
    split_ifs with hm
    · exact .inl rfl
    · exact WrittenNumber.isSome_ofDigits
  have hten : (WrittenNumber.ofFinite negative m e).tenExponent.natAbs < 0x80000000 := by
    rw [WrittenNumber.ofFinite]
    split_ifs with hm
    · exact (by decide : (0 : Int).natAbs < 0x80000000)
    · exact WrittenNumber.tenExponent_ofDigits (isDecimalOf_of_parts h hm)
  have hdigits := digits_ofFinite_le h
  rw [WrittenNumber.toDocument_eq hpoint (by omega) hten, reread?_of_parts h,
    WrittenNumber.negative_ofFinite]
  cases scaled? _ _ <;> rfl

/-- The greatest double is written with these digits. -/
theorem greatest_digits (negative : Bool) :
    digitsValue (WrittenNumber.ofFinite negative (2 ^ 53 - 1) 971).digits =
      greatestSignificand ∧
      (WrittenNumber.ofFinite negative (2 ^ 53 - 1) 971).power = 292 := by
  revert negative
  decide +kernel

/-- The interval of any other double ends where that of the second greatest does, or
before. -/
theorem upperEnd_le (hfits : m < 2 ^ 53) (hhigh : e ≤ 971)
    (hother : ¬ (m = 2 ^ 53 - 1 ∧ e = 971)) :
    upperEnd m e ≤ secondEnd := by
  have hcast (a k : Nat) : ((a * 2 ^ k : Nat) : ℚ) = a * 2 ^ (k : Int) := by
    rw [Nat.cast_mul, Nat.cast_pow, Nat.cast_ofNat, zpow_natCast]
  rw [upperEnd, secondEnd, hcast]
  rcases hhigh.lt_or_eq with hlt | rfl
  · have hfits : (m : ℚ) + 1 ≤ 2 ^ 53 := by exact_mod_cast hfits
    have hplace : (2 : ℚ) ^ (e - 2) ≤ 2 ^ (968 : Int) :=
      zpow_le_zpow_right₀ one_le_two (by omega)
    have hdouble : (2 : ℚ) ^ ((969 : Nat) : Int) = 2 * 2 ^ (968 : Int) :=
      zpow_one_add₀ two_ne_zero 968
    have hunit : (0 : ℚ) < 2 ^ (968 : Int) := by positivity
    calc (4 * m + 2 : ℚ) * 2 ^ (e - 2)
        ≤ (4 * 2 ^ 53) * 2 ^ (968 : Int) :=
          mul_le_mul (by linarith) hplace (by positivity) (by positivity)
      _ ≤ ((4 * (2 ^ 53 - 2) + 2 : Nat) : ℚ) * (2 * 2 ^ (968 : Int)) := by
          rw [← mul_assoc]
          exact mul_le_mul_of_nonneg_right (by norm_num) hunit.le
      _ = ((4 * (2 ^ 53 - 2) + 2 : Nat) : ℚ) * 2 ^ ((969 : Nat) : Int) := by rw [hdouble]
  · have hle : 4 * m + 2 ≤ 4 * (2 ^ 53 - 2) + 2 := by omega
    exact mul_le_mul_of_nonneg_right (by exact_mod_cast hle) (by positivity)

/-- **Every finite double** is read as a number. -/
theorem isSome_reread? (h : parts x = .finite negative m e) :
    (reread? x).isSome = true := by
  obtain ⟨hfits, -, hhigh, -⟩ := bounds_of_parts h
  rw [reread?_of_parts h, Option.isSome_map]
  by_cases hm : m = 0
  · rw [WrittenNumber.ofFinite, if_pos hm]
    rfl
  have hle := digits_ofFinite_le h
  have hrounds := roundsTo_ofFinite h hm
  have hdigits := digits_ofFinite_ne_zero h hm
  by_cases hgreatest : m = 2 ^ 53 - 1 ∧ e = 971
  · obtain ⟨rfl, rfl⟩ := hgreatest
    exact isSome_scaled? hdigits hle (.inr (greatest_digits negative))
  · exact isSome_scaled? hdigits hle
      (.inl (hrounds.le_upper.trans (upperEnd_le hfits hhigh hgreatest)))

/-- Both zeros are read as they were written. -/
theorem reread?_zero (h : parts x = .finite negative 0 (-1074)) : reread? x = some x := by
  have hscaled : scaled? (Float.ofNat 0) (-1) = some (Float.ofNat 0 / powerOfTen 1) :=
    scaled?_of_neg _ (by decide) (by decide)
  have hzero : ∀ negative : Bool,
      parts (if negative then -(Float.ofNat 0 / powerOfTen 1)
          else Float.ofNat 0 / powerOfTen 1) =
        .finite negative 0 (-1074) := by
    decide +kernel
  rw [reread?_of_parts h]
  refine (congrArg (Option.map _) hscaled).trans ?_
  rw [Option.map_some, Binary.parts_injective ((hzero negative).trans h.symm)]

/-- A double that is not below a small power of ten has a significand of full length. -/
theorem full_of_roundsTo {S : Nat} {K : Int} (hS : S ≠ 0) (hK : -22 ≤ K)
    (hrounds : RoundsTo (S * 10 ^ K) m e) (hfull : 2 ^ 52 ≤ m ∨ e = -1074) :
    2 ^ 52 ≤ m := by
  rcases hfull with hfull | rfl
  · exact hfull
  by_contra hshort
  have hone : (1 : ℚ) ≤ S := by exact_mod_cast Nat.pos_of_ne_zero hS
  have hm : (m : ℚ) + 1 ≤ 2 ^ 52 := by exact_mod_cast Nat.lt_of_not_le hshort
  have hsmall : upperEnd m (-1074) < 10 ^ (-22 : Int) := by
    calc upperEnd m (-1074)
        ≤ 2 ^ 54 * 2 ^ (-1074 - 2 : Int) :=
          mul_le_mul_of_nonneg_right (by linarith) (by positivity)
      _ ≤ 2 ^ 54 * 2 ^ (-200 : Int) :=
          mul_le_mul_of_nonneg_left (zpow_le_zpow_right₀ one_le_two (by decide))
            (by positivity)
      _ < 10 ^ (-22 : Int) := by norm_num
  have hlarge : (10 : ℚ) ^ (-22 : Int) ≤ S * 10 ^ K := by
    calc (10 : ℚ) ^ (-22 : Int)
        ≤ 10 ^ K := zpow_le_zpow_right₀ (by norm_num) hK
      _ ≤ S * 10 ^ K := le_mul_of_one_le_left (by positivity) hone
  linarith [hrounds.le_upper]

/-- **A double with few digits** is read as it was written: its digits and its power of ten
are doubles. -/
theorem reread?_eq_self (h : x.isFinite = true) (hfew : FewDigits x) :
    reread? x = some x := by
  obtain ⟨negative, m, e, h⟩ := exists_parts_of_isFinite h
  obtain ⟨hdigits, hpower⟩ := hfew _ (ofFloat?_of_parts h)
  obtain ⟨hfits, hlow, hhigh, hfull⟩ := bounds_of_parts h
  by_cases hm : m = 0
  · subst hm
    obtain rfl : e = -1074 := hfull.resolve_left (by decide)
    exact reread?_zero h
  have hrounds := roundsTo_ofFinite h hm
  have hne := digits_ofFinite_ne_zero h hm
  have hfull := full_of_roundsTo hne (by omega) hrounds hfull
  obtain ⟨y, hscaled, hy⟩ :=
    exists_scaled? hne hdigits hpower hfull hfits hlow hhigh hrounds
  have hsigned : parts (if negative then -y else y) = parts x := by
    rw [h]
    cases negative with
    | true => exact Binary.parts_neg hy hfull hfits hlow hhigh
    | false => exact hy
  rw [reread?_of_parts h, hscaled, Option.map_some, Binary.parts_injective hsigned]

/-- **The finite doubles** are those that are read back. -/
theorem isSome_reread?_eq (x : Float) : (reread? x).isSome = x.isFinite := by
  rw [isFinite_eq]
  cases hx : parts x with
  | finite negative m e => exact isSome_reread? hx
  | nan | infinite =>
    rw [reread?, WrittenNumber.ofFloat?, hx]
    rfl

end Reading

end FormulaTable.Document
