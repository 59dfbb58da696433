import FormulaTable.Decimal.Shortest
import FormulaTable.Proofs.Binary.Nearest
import FormulaTable.Proofs.Decimal.Digits

/-!
# The shortest decimal is in the interval

The interval of a double is kept in integers over one denominator. It is the interval of the
numbers that are rounded to the double, and the digits that the search ends with are those
of a number in it: with seventeen digits the grid is so fine that the better of the two
neighbours of the double is nearer to it than the ends of the interval are.

* `Interval.contains_iff` — the test in integers asks whether a decimal is rounded to the
  double.
* `Interval.point_bounds` — where the decimal point is.
* `isDecimalOf_shortest` — the shortest decimal is one that is rounded to the double,
  without a zero in front.
-/

namespace FormulaTable.Decimal

open Binary (RoundsTo lowerEnd upperEnd magnitude double)

/-- A power with an integer as exponent is the quotient of two with natural ones. -/
theorem pow_toNat {b : ℚ} (hb : b ≠ 0) (k : Int) :
    b ^ k.toNat = b ^ k * b ^ (-k).toNat := by
  rw [← zpow_natCast, ← zpow_natCast, ← zpow_add₀ hb]
  congr 1
  omega

/-- The unit in which the ends of an interval are counted is a quarter of the last place. -/
theorem magnitude_eq_quarters (m : Nat) (e : Int) :
    magnitude m e = 4 * m * 2 ^ (e - 2) := by
  rw [magnitude, zpow_sub₀ two_ne_zero]
  norm_num
  ring

/-! ### The interval of a double -/

namespace Interval

variable {i : Interval} {m n : Nat} {e place : Int}

/-- The common denominator of an interval is positive. -/
theorem denominator_pos (m : Nat) (e : Int) : 0 < (ofParts double m e).denominator :=
  Nat.two_pow_pos _

/-- The integers of the interval stand for the double and for the ends of its interval. -/
theorem ofParts_eq (hm : 0 < m) (e : Int) :
    ((ofParts double m e).low : ℚ) = lowerEnd m e * (ofParts double m e).denominator ∧
    ((ofParts double m e).value : ℚ) = magnitude m e * (ofParts double m e).denominator ∧
    ((ofParts double m e).high : ℚ) = upperEnd m e * (ofParts double m e).denominator := by
  have hscale : ((Nat.pow 2 (e - 2).toNat : Nat) : ℚ) =
      2 ^ (e - 2) * (Nat.pow 2 (2 - e).toNat : Nat) := by
    rw [Nat.pow_eq, Nat.pow_eq, Nat.cast_pow, Nat.cast_pow, Nat.cast_ofNat,
      pow_toNat two_ne_zero, neg_sub]
  have hnarrow : (m == Nat.pow 2 (double.precision - 1) &&
        decide (double.lowestExponent < e)) = true ↔
      m = 2 ^ 52 ∧ -1074 < e := by
    rw [Bool.and_eq_true, beq_iff_eq, decide_eq_true_iff]
    rfl
  refine ⟨?_, ?_, ?_⟩
  · simp only [ofParts, lowerEnd, hnarrow]
    rw [Nat.cast_mul, hscale, ← mul_assoc, Nat.cast_sub (by split_ifs <;> omega)]
    congr 2
    push_cast
    rfl
  · rw [ofParts, Nat.cast_mul, hscale, magnitude_eq_quarters]
    push_cast
    ring
  · rw [ofParts, Nat.cast_mul, hscale, upperEnd]
    push_cast
    ring

/-- The numerator of a positive magnitude is positive. -/
theorem value_pos (hm : 0 < m) (e : Int) : 0 < (ofParts double m e).value :=
  Nat.mul_pos (Nat.mul_pos (by decide) hm) (Nat.two_pow_pos _)

/-- The numerator over the common denominator is the magnitude of the double. -/
theorem value_div_denominator (hm : 0 < m) (e : Int) :
    ((ofParts double m e).value : ℚ) / (ofParts double m e).denominator =
      magnitude m e := by
  rw [(ofParts_eq hm e).2.1,
    mul_div_cancel_right₀ _ (Nat.cast_ne_zero.2 (denominator_pos m e).ne')]

/-- **The test in integers** asks whether a decimal is rounded to the double. -/
theorem contains_iff (hm : 0 < m) :
    (ofParts double m e).contains n place = true ↔ RoundsTo (n * 10 ^ place) m e := by
  obtain ⟨hlow, -, hhigh⟩ := ofParts_eq hm e
  have hclosed : (ofParts double m e).closed = true ↔ m % 2 = 0 := beq_iff_eq
  have hden := denominator_pos m e
  rw [contains]
  generalize ofParts double m e = i at *
  have hunit : 0 < Nat.pow 10 (-place).toNat := Nat.pow_pos (by decide)
  have hscaled : ((n * Nat.pow 10 place.toNat * i.denominator : Nat) : ℚ) =
      n * 10 ^ place * (i.denominator * (Nat.pow 10 (-place).toNat : Nat)) := by
    rw [Nat.cast_mul, Nat.cast_mul, Nat.pow_eq, Nat.pow_eq, Nat.cast_pow, Nat.cast_pow,
      Nat.cast_ofNat, pow_toNat (by decide) place]
    ring
  have hlower : ((i.low * Nat.pow 10 (-place).toNat : Nat) : ℚ) =
      lowerEnd m e * (i.denominator * (Nat.pow 10 (-place).toNat : Nat)) := by
    rw [Nat.cast_mul, hlow, mul_assoc]
  have hupper : ((i.high * Nat.pow 10 (-place).toNat : Nat) : ℚ) =
      upperEnd m e * (i.denominator * (Nat.pow 10 (-place).toNat : Nat)) := by
    rw [Nat.cast_mul, hhigh, mul_assoc]
  have hfactor : (0 : ℚ) < i.denominator * (Nat.pow 10 (-place).toNat : Nat) := by
    exact_mod_cast Nat.mul_pos hden hunit
  split_ifs with heven
  · rw [Bool.and_eq_true, decide_eq_true_iff, decide_eq_true_iff, ← Nat.cast_le (α := ℚ),
      ← Nat.cast_le (α := ℚ), hscaled, hlower, hupper, mul_le_mul_iff_left₀ hfactor,
      mul_le_mul_iff_left₀ hfactor]
    rw [hclosed] at heven
    exact ⟨fun h => ⟨h.1, h.2, fun hodd => by omega⟩, fun h => ⟨h.lower_le, h.le_upper⟩⟩
  · rw [Bool.and_eq_true, decide_eq_true_iff, decide_eq_true_iff, ← Nat.cast_lt (α := ℚ),
      ← Nat.cast_lt (α := ℚ), hscaled, hlower, hupper, mul_lt_mul_iff_left₀ hfactor,
      mul_lt_mul_iff_left₀ hfactor]
    rw [hclosed] at heven
    exact ⟨fun h => ⟨h.1.le, h.2.le, fun _ => h⟩, fun h => h.inside (by omega)⟩

/-! ### The decimal point and the two neighbours -/

/-- **The decimal point** is where it is said to be. -/
theorem point_bounds (hvalue : 0 < i.value) (hden : 0 < i.denominator) :
    (10 : ℚ) ^ (i.point - 1) ≤ i.value / i.denominator ∧
      (i.value / i.denominator : ℚ) < 10 ^ i.point := by
  have hdenominator : (0 : ℚ) < i.denominator := Nat.cast_pos.2 hden
  rw [point, le_div_iff₀ hdenominator, div_lt_iff₀ hdenominator]
  split_ifs with hwhole
  · have hne : i.value / i.denominator ≠ 0 := (Nat.div_pos hwhole hden).ne'
    have hbelow := ten_pow_length_le hne
    have habove := lt_ten_pow_length (i.value / i.denominator)
    rw [Nat.le_div_iff_mul_le hden] at hbelow
    rw [Nat.div_lt_iff_lt_mul hden] at habove
    have hlength : 0 < (Nat.toDigits 10 (i.value / i.denominator)).length :=
      List.length_pos_iff.2 Nat.toDigits_ne_nil
    generalize (Nat.toDigits 10 (i.value / i.denominator)).length = length at *
    rw [show (length : Int) - 1 = (length - 1 : Nat) by omega, zpow_natCast, zpow_natCast]
    exact ⟨by exact_mod_cast hbelow, by exact_mod_cast habove⟩
  · have hne : (i.denominator - 1) / i.value ≠ 0 := (Nat.div_pos (by omega) hvalue).ne'
    have hbelow := ten_pow_length_le hne
    have habove := lt_ten_pow_length ((i.denominator - 1) / i.value)
    rw [Nat.le_div_iff_mul_le hvalue] at hbelow
    rw [Nat.div_lt_iff_lt_mul hvalue] at habove
    have hlength : 0 < (Nat.toDigits 10 ((i.denominator - 1) / i.value)).length :=
      List.length_pos_iff.2 Nat.toDigits_ne_nil
    generalize (Nat.toDigits 10 ((i.denominator - 1) / i.value)).length = length at *
    rw [show (1 : Int) - length - 1 = -(length : Nat) by omega,
      show (1 : Int) - length = -(length - 1 : Nat) by omega,
      zpow_neg, zpow_neg, zpow_natCast, zpow_natCast, inv_mul_le_iff₀ (by positivity),
      lt_inv_mul_iff₀ (by positivity)]
    have habove : i.denominator ≤ 10 ^ length * i.value := by omega
    have hbelow : 10 ^ (length - 1) * i.value < i.denominator := by omega
    exact ⟨by exact_mod_cast habove, by exact_mod_cast hbelow⟩

/-- The neighbour below on the grid of multiples of `10 ^ place`. -/
def below (i : Interval) (place : Int) : Nat :=
  i.value * Nat.pow 10 (-place).toNat / (i.denominator * Nat.pow 10 place.toNat)

/-- The decimal below a number is the last one of its place that is not above it. -/
theorem below_bounds (hden : 0 < i.denominator) (place : Int) :
    (i.below place : ℚ) * 10 ^ place ≤ i.value / i.denominator ∧
      (i.value / i.denominator : ℚ) < (i.below place + 1) * 10 ^ place := by
  have hunit : 0 < i.denominator * Nat.pow 10 place.toNat :=
    Nat.mul_pos hden (Nat.pow_pos (by decide))
  obtain ⟨hbelow, habove⟩ :=
    (Binary.locates_accuracyOfFraction (i.value * Nat.pow 10 (-place).toNat) hunit).bounds
  have hquotient : ((i.value * Nat.pow 10 (-place).toNat : Nat) : ℚ) /
      (i.denominator * Nat.pow 10 place.toNat : Nat) =
      i.value / i.denominator / 10 ^ place := by
    have hten : (10 : ℚ) ^ (-place).toNat ≠ 0 := by positivity
    have hplace : (10 : ℚ) ^ place ≠ 0 := by positivity
    rw [Nat.cast_mul, Nat.cast_mul, Nat.pow_eq, Nat.pow_eq, Nat.cast_pow, Nat.cast_pow,
      Nat.cast_ofNat, pow_toNat (by decide) place, ← mul_assoc,
      mul_div_mul_right _ _ hten, div_div]
  have hplace : (0 : ℚ) < 10 ^ place := by positivity
  rw [hquotient] at hbelow habove
  exact ⟨(le_div_iff₀ hplace).1 hbelow, (div_lt_iff₀ hplace).1 habove⟩

/-- The double is where the decimal point of its interval is. -/
theorem magnitude_bounds (hm : 0 < m) (e : Int) :
    (10 : ℚ) ^ ((ofParts double m e).point - 1) ≤ magnitude m e ∧
      magnitude m e < 10 ^ (ofParts double m e).point := by
  have hden := denominator_pos m e
  have hbounds := point_bounds (value_pos hm e) hden
  rwa [value_div_denominator hm] at hbounds

/-- The double is between its two neighbours on a grid. -/
theorem magnitude_below (hm : 0 < m) (e place : Int) :
    ((ofParts double m e).below place : ℚ) * 10 ^ place ≤ magnitude m e ∧
      magnitude m e < ((ofParts double m e).below place + 1) * 10 ^ place := by
  have hbounds := below_bounds (denominator_pos m e) place
  rwa [value_div_denominator hm] at hbounds

/-- What the better neighbour is: one that lies in the interval. -/
theorem of_candidate? (h : i.candidate? place = some n) :
    i.contains n place = true ∧ (n = i.below place ∨ n = i.below place + 1) := by
  rw [candidate?] at h
  split at h
  · next hfirst hsecond =>
    split at h <;> obtain rfl := Option.some.inj h
    · exact ⟨hfirst, .inl rfl⟩
    · exact ⟨hsecond, .inr rfl⟩
  · next hfirst _ =>
    obtain rfl := Option.some.inj h
    exact ⟨hfirst, .inl rfl⟩
  · next _ hsecond =>
    obtain rfl := Option.some.inj h
    exact ⟨hsecond, .inr rfl⟩
  · cases h

/-- Without a better neighbour none of the two lies in the interval. -/
theorem of_candidate?_eq_none (h : i.candidate? place = none) :
    i.contains (i.below place) place = false ∧
      i.contains (i.below place + 1) place = false := by
  rw [candidate?] at h
  split at h
  · split at h <;> cases h
  · cases h
  · cases h
  · next hfirst hsecond => exact ⟨hfirst, hsecond⟩

end Interval

/-! ### Seventeen digits -/

section Search

variable {m n : Nat} {e : Int}

/-- What differs from a double by one part in `2 · 10 ^ 16` is rounded to it. -/
theorem roundsTo_of_near {v : ℚ} (hm : m < 2 ^ 53)
    (h : 2 * 10 ^ 16 * |v - magnitude m e| ≤ magnitude m e) :
    RoundsTo v m e := by
  have hquarter : (0 : ℚ) < 2 ^ (e - 2) := by positivity
  have hmagnitude := magnitude_eq_quarters m e
  have hfits : (m : ℚ) + 1 ≤ 2 ^ 53 := by exact_mod_cast hm
  have hwide : |v - magnitude m e| < 2 * 2 ^ (e - 2) := by
    have : (m : ℚ) * 2 ^ (e - 2) ≤ 2 ^ 53 * 2 ^ (e - 2) :=
      mul_le_mul_of_nonneg_right (by linarith) hquarter.le
    rw [hmagnitude] at h ⊢
    linarith
  have hends : lowerEnd m e < v ∧ v < upperEnd m e := by
    rw [abs_lt, hmagnitude] at hwide
    rw [lowerEnd, upperEnd]
    split_ifs with hnarrow
    · -- Below a power of two there is half of the room, but the double is only half as
      -- large.
      have hclose : |v - magnitude m e| < 2 ^ (e - 2) := by
        rw [hmagnitude, hnarrow.1] at h ⊢
        push_cast at h ⊢
        linarith
      rw [abs_lt, hmagnitude] at hclose
      constructor <;> linarith
    · constructor <;> linarith
  exact ⟨hends.1.le, hends.2.le, fun _ => hends⟩

/-- With seventeen digits one of the two neighbours of a double lies in its interval. -/
theorem exists_candidate? (hpos : 0 < m) (hm : m < 2 ^ 53) (e : Int) :
    ∃ n, (Interval.ofParts double m e).candidate?
      ((Interval.ofParts double m e).point - 17) = some n := by
  rw [← Option.isSome_iff_exists, Option.isSome_iff_ne_none]
  intro hnone
  obtain ⟨hfirst, hsecond⟩ := Interval.of_candidate?_eq_none hnone
  obtain ⟨hpoint, -⟩ := Interval.magnitude_bounds hpos e
  obtain ⟨hbelow, habove⟩ :=
    Interval.magnitude_below hpos e ((Interval.ofParts double m e).point - 17)
  rw [← Bool.not_eq_true, Interval.contains_iff hpos] at hfirst hsecond
  generalize (Interval.ofParts double m e).below _ = n at *
  generalize (Interval.ofParts double m e).point = point at *
  -- The grid is finer than the double by sixteen digits.
  have hgrid : 10 ^ 16 * (10 : ℚ) ^ (point - 17) ≤ magnitude m e := by
    rw [show point - 1 = 16 + (point - 17) by ring, zpow_add₀ (by decide)] at hpoint
    exact_mod_cast hpoint
  have hunit : (0 : ℚ) < 10 ^ (point - 17) := by positivity
  rcases le_or_gt (2 * (magnitude m e - n * 10 ^ (point - 17)))
    ((10 : ℚ) ^ (point - 17)) with hnear | hfar
  · refine hfirst (roundsTo_of_near hm ?_)
    rw [abs_of_nonpos (by linarith)]
    linarith
  · refine hsecond (roundsTo_of_near hm ?_)
    push_cast
    rw [abs_of_nonneg (by linarith)]
    linarith

end Search

/-! ### The digits -/

/-- What is dropped from the end of digits is a row of zeros. -/
theorem exists_append_zeros (ds : List Char) :
    ∃ k, ds = dropTrailingZeros ds ++ List.replicate k '0' := by
  have hsplit : ds.reverse.takeWhile (· == '0') ++ ds.reverse.dropWhile (· == '0') =
      ds.reverse :=
    List.takeWhile_append_dropWhile
  have hzeros : ds.reverse.takeWhile (· == '0') =
      List.replicate (ds.reverse.takeWhile (· == '0')).length '0' :=
    List.eq_replicate_of_mem fun c hc => by simpa using List.mem_takeWhile_imp hc
  refine ⟨(ds.reverse.takeWhile (· == '0')).length, ?_⟩
  rw [dropTrailingZeros, ← List.reverse_replicate, ← hzeros, ← List.reverse_append, hsplit,
    List.reverse_reverse]

/-- The digits of `n · 10 ^ place`, without the zeros at their end. -/
def Digits.ofNat (n : Nat) (place : Int) : Digits :=
  ⟨dropTrailingZeros (Nat.toDigits 10 n), place + (Nat.toDigits 10 n).length⟩

/-- The exponent of the last digit. -/
def Digits.lastPlace (d : Digits) : Int := d.point - d.digits.length

/-- The digits of a decimal that is rounded to `m · 2 ^ e`. -/
structure Digits.IsDecimalOf (d : Digits) (m : Nat) (e : Int) : Prop where
  ne_nil : d.digits ≠ []
  allDigits : AllDigits d.digits
  leading : d.digits.head? ≠ some '0'
  value_le : digitsValue d.digits ≤ 10 ^ 17
  roundsTo : RoundsTo (digitsValue d.digits * 10 ^ d.lastPlace) m e
  point_low : -2000 < d.point
  point_high : d.point < 2000

section Digits

variable {m n : Nat} {e place : Int}

/-- The zeros at the end are what the digits lack. -/
theorem Digits.exists_zeros (n : Nat) (place : Int) : ∃ k,
    Nat.toDigits 10 n = (ofNat n place).digits ++ List.replicate k '0' ∧
      n = 10 ^ k * digitsValue (ofNat n place).digits := by
  obtain ⟨k, hk⟩ := exists_append_zeros (Nat.toDigits 10 n)
  refine ⟨k, hk, ?_⟩
  conv_lhs => rw [← digitsValue_toDigits n, hk, digitsValue_append,
    digitsValue_replicate_zero, List.length_replicate]
  rfl

/-- The decimal of a number of units has its value. -/
theorem Digits.value_ofNat (n : Nat) (place : Int) :
    (digitsValue (ofNat n place).digits : ℚ) * 10 ^ (ofNat n place).lastPlace =
      n * 10 ^ place := by
  obtain ⟨k, hk, hvalue⟩ := exists_zeros n place
  have hplace : (ofNat n place).lastPlace = place + k := by
    have hlength := congrArg List.length hk
    have hpoint : (ofNat n place).point = place + (Nat.toDigits 10 n).length := rfl
    rw [List.length_append, List.length_replicate] at hlength
    rw [lastPlace, hpoint]
    omega
  rw [hplace, zpow_add₀ (by decide), zpow_natCast]
  conv_rhs => rw [hvalue]
  push_cast
  ring

/-- A number of at most 17 digits that is rounded to a double is a decimal of it. -/
theorem Digits.isDecimalOf_ofNat (hn : n ≠ 0) (hle : n ≤ 10 ^ 17)
    (h : RoundsTo (n * 10 ^ place) m e) (hlow : -2000 < place) (hhigh : place + 18 < 2000) :
    (ofNat n place).IsDecimalOf m e := by
  obtain ⟨k, hk, hvalue⟩ := exists_zeros n place
  have hne : (ofNat n place).digits ≠ [] := by
    intro hnil
    rw [hnil] at hvalue
    exact hn hvalue
  have hlength : (Nat.toDigits 10 n).length ≤ 18 :=
    (Nat.length_toDigits_le_iff (by decide) (by decide)).2 (hle.trans_lt (by decide))
  have hsome : 0 < (Nat.toDigits 10 n).length := List.length_pos_iff.2 Nat.toDigits_ne_nil
  refine ⟨hne, ?_, fun hhead => hn (eq_zero_of_head?_toDigits ?_), ?_, ?_, ?_, ?_⟩
  · have hall := allDigits_toDigits n
    rw [hk, allDigits_append] at hall
    exact hall.1
  · rw [hk, List.head?_append_of_ne_nil _ hne]
    exact hhead
  · refine le_trans ?_ hle
    conv_rhs => rw [hvalue]
    exact Nat.le_mul_of_pos_left _ (Nat.pow_pos (by decide))
  · rwa [value_ofNat]
  · show -2000 < place + (Nat.toDigits 10 n).length
    omega
  · show place + (Nat.toDigits 10 n).length < 2000
    omega

/-- The decimal point of a double is not far away. -/
theorem Interval.point_near (hm : 0 < m) (hfits : m < 2 ^ 53) (hlow : -1074 ≤ e)
    (hhigh : e ≤ 971) :
    -1074 < (ofParts double m e).point ∧ (ofParts double m e).point ≤ 1024 := by
  obtain ⟨hbelow, habove⟩ := magnitude_bounds hm e
  generalize (ofParts double m e).point = point at *
  have hten {k : Int} (hk : 0 ≤ k) : (2 : ℚ) ^ k ≤ 10 ^ k :=
    zpow_le_zpow_left₀ hk (by decide) (by decide)
  constructor
  · by_contra hfar
    have hinverse : (10 : ℚ) ^ point ≤ 2 ^ point := by
      have hle := inv_anti₀ (by positivity) (hten (k := -point) (by omega))
      rwa [zpow_neg, zpow_neg, inv_inv, inv_inv] at hle
    have hplace : (2 : ℚ) ^ point ≤ 2 ^ e := zpow_le_zpow_right₀ one_le_two (by omega)
    have hone : (2 : ℚ) ^ e ≤ magnitude m e :=
      le_mul_of_one_le_left (by positivity) (by exact_mod_cast hm)
    linarith
  · by_contra hfar
    have hle := hten (k := point - 1) (by omega)
    have hplace : (2 : ℚ) ^ (53 + e) ≤ 2 ^ (point - 1) :=
      zpow_le_zpow_right₀ one_le_two (by omega)
    have hlt : magnitude m e < 2 ^ (53 + e) := by
      rw [zpow_add₀ two_ne_zero]
      exact mul_lt_mul_of_pos_right (by exact_mod_cast hfits) (by positivity)
    linarith

/-- What the search for the shortest decimal ends with. -/
theorem exists_shortest_eq (hm : 0 < m) (hfits : m < 2 ^ 53) (e : Int) : ∃ count < 17, ∃ n,
    (Interval.ofParts double m e).candidate?
      ((Interval.ofParts double m e).point - (count + 1 : Nat)) = some n ∧
      shortest double m e =
        .ofNat n ((Interval.ofParts double m e).point - (count + 1 : Nat)) := by
  obtain ⟨last, hlast⟩ := exists_candidate? hm hfits e
  rw [shortest]
  dsimp only
  generalize hsearch : List.findSome? _ _ = found
  cases found with
  | none =>
    have hnone := List.findSome?_eq_none_iff.1 hsearch 16 (by decide)
    rw [show ((16 + 1 : Nat) : Int) = 17 from rfl, hlast] at hnone
    cases hnone
  | some d =>
    obtain ⟨count, hcount, hattempt⟩ := List.exists_of_findSome?_eq_some hsearch
    obtain ⟨n, hcandidate, rfl⟩ := Option.map_eq_some_iff.1 hattempt
    exact ⟨count, List.mem_range.1 hcount, n, hcandidate, rfl⟩

/-- **The shortest decimal** is one that is rounded to the double. -/
theorem isDecimalOf_shortest (hm : 0 < m) (hfits : m < 2 ^ 53) (hlow : -1074 ≤ e)
    (hhigh : e ≤ 971) :
    (shortest double m e).IsDecimalOf m e := by
  obtain ⟨count, hcount, n, hcandidate, hshortest⟩ := exists_shortest_eq hm hfits e
  obtain ⟨hcontains, hneighbour⟩ := Interval.of_candidate? hcandidate
  obtain ⟨hnear, hfar⟩ := Interval.point_near hm hfits hlow hhigh
  obtain ⟨hbelow, -⟩ :=
    Interval.magnitude_below hm e ((Interval.ofParts double m e).point - (count + 1 : Nat))
  obtain ⟨-, habove⟩ := Interval.magnitude_bounds hm e
  rw [Interval.contains_iff hm] at hcontains
  rw [hshortest]
  generalize (Interval.ofParts double m e).below _ = below at *
  generalize (Interval.ofParts double m e).point = point at *
  have hplace : (0 : ℚ) < 10 ^ (point - (count + 1 : Nat)) := by positivity
  have hn : n ≠ 0 := by
    rintro rfl
    rw [Nat.cast_zero, zero_mul] at hcontains
    exact lt_irrefl 0 (hcontains.pos hm)
  have hle : n ≤ 10 ^ 17 := by
    have hlt : (below : ℚ) < (10 ^ (count + 1) : Nat) := by
      have hlt := hbelow.trans_lt habove
      rw [← lt_div_iff₀ hplace, ← zpow_sub₀ (by decide), sub_sub_cancel, zpow_natCast]
        at hlt
      exact_mod_cast hlt
    have hpower : 10 ^ (count + 1) ≤ 10 ^ 17 := Nat.pow_le_pow_right (by decide) (by omega)
    have := Nat.cast_lt.1 hlt
    omega
  exact Digits.isDecimalOf_ofNat hn hle hcontains (by omega) (by omega)

end Digits

end FormulaTable.Decimal
