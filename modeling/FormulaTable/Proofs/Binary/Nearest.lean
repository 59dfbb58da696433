import FormulaTable.Proofs.Binary.Rounding

/-!
# The nearest double

The numbers that are rounded to a double make up an interval: they reach half way to its two
neighbours, and the ends belong to it if the significand is even. A product and a quotient
of doubles are rounded once, so that a double is the result as soon as the exact product or
quotient lies in its interval.

* `RoundsTo` — the interval of a double.
* `roundWithAccuracy_of_roundsTo` — a significand with its accuracy is rounded to the double
  in whose interval it lies.
* `parts_mul`, `parts_div` — products and quotients of doubles are the doubles nearest to
  the exact ones.
-/

namespace FormulaTable.Binary

open Float.Model (UnpackedFloat)
open Float.Model.UnpackedFloat
open Float.Model.Format (binary64)

/-! ### The interval of a double -/

/-- The lower end of the numbers that are rounded to `m · 2 ^ e`. Below a power of two the
neighbour is half as far away, except at the bottom of the format. -/
def lowerEnd (m : Nat) (e : Int) : ℚ :=
  (4 * m - if m = 2 ^ 52 ∧ -1074 < e then 1 else 2) * 2 ^ (e - 2)

/-- The upper end of the numbers that are rounded to `m · 2 ^ e`. -/
def upperEnd (m : Nat) (e : Int) : ℚ := (4 * m + 2) * 2 ^ (e - 2)

/-- Is `m · 2 ^ e` the double that a number is rounded to? -/
structure RoundsTo (v : ℚ) (m : Nat) (e : Int) : Prop where
  lower_le : lowerEnd m e ≤ v
  le_upper : v ≤ upperEnd m e
  /-- The ends themselves are rounded to the even neighbour. -/
  inside : m % 2 = 1 → lowerEnd m e < v ∧ v < upperEnd m e

/-- What is rounded to a positive number is positive. -/
theorem RoundsTo.pos {v : ℚ} {m : Nat} {e : Int} (h : RoundsTo v m e) (hm : 0 < m) :
    0 < v := by
  have hone : (1 : ℚ) ≤ m := by exact_mod_cast hm
  refine lt_of_lt_of_le (mul_pos ?_ (by positivity)) h.lower_le
  split_ifs <;> linarith

/-- Does a number lie where a significand and its accuracy say? -/
def Locates (q : Nat) (v : ℚ) : Accuracy → Prop
  | .exact => v = q
  | .inexact o => q < v ∧ v < q + 1 ∧ compare (2 * v) (2 * q + 1) = o

section Quotients

variable {n k q r : Nat} {v : ℚ} {acc : Accuracy}

/-- The rounded quotient is the number that the quotient is nearest to. -/
theorem roundedQuotient_eq (hlow : 2 * (r * 2 ^ k) ≤ 2 * n + 2 ^ k)
    (hhigh : 2 * n ≤ 2 * (r * 2 ^ k) + 2 ^ k)
    (hodd : r % 2 = 1 → 2 * (r * 2 ^ k) < 2 * n + 2 ^ k ∧ 2 * n < 2 * (r * 2 ^ k) + 2 ^ k) :
    roundedQuotient n k = r := by
  have hsplit := Nat.div_add_mod n (2 ^ k)
  have hrest := Nat.mod_lt n (Nat.two_pow_pos k)
  rw [roundedQuotient]
  generalize 2 ^ k = u at *
  generalize n / u = i at *
  generalize n % u = rest at *
  rw [Nat.mul_comm u i] at hsplit
  have hle : i ≤ r := by
    by_contra hlt
    have : (r + 1) * u ≤ i * u := Nat.mul_le_mul_right u (by omega)
    rw [Nat.add_mul] at this
    omega
  have hge : r ≤ i + 1 := by
    by_contra hlt
    have : (i + 2) * u ≤ r * u := Nat.mul_le_mul_right u (by omega)
    rw [Nat.add_mul] at this
    omega
  rcases hle.lt_or_eq with hlt | rfl
  · obtain rfl : r = i + 1 := by omega
    rw [Nat.add_mul] at *
    split_ifs <;> omega
  · split_ifs <;> omega

/-- A rounded quotient is at most half a unit too large. -/
theorem two_mul_roundedQuotient_le (n k : Nat) :
    2 * (roundedQuotient n k * 2 ^ k) ≤ 2 * n + 2 ^ k := by
  have hsplit := Nat.div_add_mod n (2 ^ k)
  have hrest := Nat.mod_lt n (Nat.two_pow_pos k)
  rw [roundedQuotient]
  generalize 2 ^ k = u at *
  generalize n % u = rest at *
  generalize n / u = i at *
  rw [Nat.mul_comm u i] at hsplit
  have hbit := Nat.mod_two_eq_zero_or_one i
  split_ifs
  · omega
  · rcases hbit with hbit | hbit <;> rw [hbit, Nat.add_mul] <;> omega
  · rw [Nat.add_mul]
    omega

/-- Is a number in the same order to all halves as `n` quarters are? -/
def SameHalves (v : ℚ) (n : Nat) : Prop :=
  ∀ j : Nat, ((j : ℚ) ≤ 2 * v ↔ 2 * j ≤ n) ∧ (2 * v ≤ j ↔ n ≤ 2 * j)

/-- A number of halves lies where twice as many quarters do. -/
theorem sameHalves_of_eq {a : Nat} (h : 2 * v = a) : SameHalves v (2 * a) := by
  intro j
  rw [h, Nat.cast_le, Nat.cast_le]
  omega

/-- A number between two halves lies where the quarters between them do. -/
theorem sameHalves_of_lt {a : Nat} (hlow : (a : ℚ) < 2 * v) (hhigh : 2 * v < a + 1) :
    SameHalves v (2 * a + 1) := by
  intro j
  have hle : (j : ℚ) ≤ 2 * v ↔ j ≤ a := by
    constructor
    · intro hj
      exact Nat.le_of_lt_add_one (by exact_mod_cast hj.trans_lt hhigh)
    · intro hj
      exact (Nat.cast_le.2 hj).trans hlow.le
  have hge : 2 * v ≤ j ↔ a + 1 ≤ j := by
    constructor
    · intro hj
      exact Nat.cast_lt.1 (hlow.trans_le hj)
    · intro hj
      exact hhigh.le.trans (by exact_mod_cast hj)
  rw [hle, hge]
  omega

/-- With two more bits a significand carries what its accuracy says. -/
theorem Locates.exists_carries (h : Locates q v acc) :
    ∃ n, Carries (.ofMantissaAndAccuracy q acc) n 2 ∧ SameHalves v n := by
  have hmod (i : Nat) (hi : i < 4) : (4 * q + i) / 2 ^ 2 = q ∧ (4 * q + i) % 2 ^ 2 = i := by
    omega
  cases acc with
  | exact =>
    obtain rfl : v = q := h
    obtain ⟨hquotient, hrest⟩ := hmod 0 (by decide)
    refine ⟨2 * (2 * q), ?_, sameHalves_of_eq (by push_cast; ring)⟩
    rw [show 2 * (2 * q) = 4 * q + 0 by omega]
    constructor <;> simp only [ExtendedMantissa.ofMantissaAndAccuracy, hquotient,
      hrest] <;> decide
  | inexact o =>
    obtain ⟨hlow, hhigh, horder⟩ := h
    cases o with
    | lt =>
      have hhalf : 2 * v < 2 * q + 1 := compare_lt_iff_lt.1 horder
      obtain ⟨hquotient, hrest⟩ := hmod 1 (by decide)
      refine ⟨2 * (2 * q) + 1, ?_,
        sameHalves_of_lt (by push_cast; linarith) (by push_cast; linarith)⟩
      rw [show 2 * (2 * q) + 1 = 4 * q + 1 by omega]
      constructor <;> simp only [ExtendedMantissa.ofMantissaAndAccuracy, hquotient,
        hrest] <;> decide
    | eq =>
      have hhalf : 2 * v = 2 * q + 1 := compare_eq_iff_eq.1 horder
      obtain ⟨hquotient, hrest⟩ := hmod 2 (by decide)
      refine ⟨2 * (2 * q + 1), ?_, sameHalves_of_eq (by push_cast; linarith)⟩
      rw [show 2 * (2 * q + 1) = 4 * q + 2 by omega]
      constructor <;> simp only [ExtendedMantissa.ofMantissaAndAccuracy, hquotient,
        hrest] <;> decide
    | gt =>
      have hhalf : 2 * q + 1 < 2 * v := compare_gt_iff_gt.1 horder
      obtain ⟨hquotient, hrest⟩ := hmod 3 (by decide)
      refine ⟨2 * (2 * q + 1) + 1, ?_,
        sameHalves_of_lt (by push_cast; linarith) (by push_cast; linarith)⟩
      rw [show 2 * (2 * q + 1) + 1 = 4 * q + 3 by omega]
      constructor <;> simp only [ExtendedMantissa.ofMantissaAndAccuracy, hquotient,
        hrest] <;> decide

/-- A number between the halves next to `r` is rounded to `r`. -/
theorem SameHalves.roundedQuotient_eq {L : Nat} (h : SameHalves v n) (hr : 0 < r)
    (hlow : (2 * r - 1) * 2 ^ L ≤ 2 * v) (hhigh : 2 * v ≤ (2 * r + 1) * 2 ^ L)
    (hodd : r % 2 = 1 → (2 * r - 1) * 2 ^ L < 2 * v ∧ 2 * v < (2 * r + 1) * 2 ^ L) :
    roundedQuotient n (2 + L) = r := by
  have hquarters : 2 ^ (2 + L) = 4 * 2 ^ L := pow_add 2 2 L
  have hproduct : r * (4 * 2 ^ L) = 4 * (r * 2 ^ L) := Nat.mul_left_comm ..
  have hlower : (((2 * r - 1) * 2 ^ L : Nat) : ℚ) = (2 * r - 1) * 2 ^ L := by
    push_cast [Nat.cast_sub (show 1 ≤ 2 * r by omega)]
    rfl
  have hupper : (((2 * r + 1) * 2 ^ L : Nat) : ℚ) = (2 * r + 1) * 2 ^ L := by push_cast; rfl
  have hdown : (2 * r - 1) * 2 ^ L + 2 ^ L = 2 * (r * 2 ^ L) := by
    rw [← Nat.succ_mul, ← Nat.mul_assoc]
    congr 1
    omega
  have hup : (2 * r + 1) * 2 ^ L = 2 * (r * 2 ^ L) + 2 ^ L := by ring
  rw [← hlower] at hlow hodd
  rw [← hupper] at hhigh hodd
  have hlow := (h _).1.1 hlow
  have hhigh := (h _).2.1 hhigh
  refine Binary.roundedQuotient_eq ?_ ?_ fun hr => ?_
  · rw [hquarters, hproduct]
    omega
  · rw [hquarters, hproduct]
    omega
  · obtain ⟨hlow, hhigh⟩ := hodd hr
    have hlow := not_le.1 (mt (h _).2.2 (not_le.2 hlow))
    have hhigh := not_le.1 (mt (h _).1.2 (not_le.2 hhigh))
    rw [hquarters, hproduct]
    omega

/-- A significand is at most the number that it is the whole part of. -/
theorem Locates.bounds (h : Locates q v acc) : (q : ℚ) ≤ v ∧ v < q + 1 := by
  cases acc with
  | exact =>
    obtain rfl : v = q := h
    exact ⟨le_rfl, by linarith⟩
  | inexact o => exact ⟨h.1.le, h.2.1⟩

end Quotients

/-! ### One rounding -/

section Rounding

variable {s : Sign} {q m : Nat} {v : ℚ} {e place : Int} {acc : Accuracy}

/-- The interval of a double is no wider than its power of two. -/
theorem RoundsTo.bounds (h : RoundsTo v m e) (hfull : 2 ^ 52 ≤ m) (hfits : m < 2 ^ 53) :
    (2 : ℚ) ^ (51 + e) < v ∧ v < 2 ^ (53 + e) := by
  have hquarter : (0 : ℚ) < 2 ^ (e - 2) := by positivity
  have hfull : (2 : ℚ) ^ 52 ≤ m := by exact_mod_cast hfull
  have hfits : (m : ℚ) + 1 ≤ 2 ^ 53 := by exact_mod_cast hfits
  have hdown : (2 : ℚ) ^ (51 + e) = 2 ^ 53 * 2 ^ (e - 2) := by
    rw [← zpow_natCast, ← zpow_add₀ two_ne_zero]
    congr 1
    push_cast
    ring
  have hup : (2 : ℚ) ^ (53 + e) = 2 ^ 55 * 2 ^ (e - 2) := by
    rw [← zpow_natCast, ← zpow_add₀ two_ne_zero]
    congr 1
    push_cast
    ring
  constructor
  · refine lt_of_lt_of_le ?_ h.lower_le
    rw [hdown, lowerEnd]
    refine mul_lt_mul_of_pos_right ?_ hquarter
    split_ifs <;> linarith
  · refine h.le_upper.trans_lt ?_
    rw [hup, upperEnd]
    exact mul_lt_mul_of_pos_right (by linarith) hquarter

/-- The interval of a double in the places of a number. -/
structure InPlaces (v : ℚ) (m L : Nat) : Prop where
  lower_le : (2 * m - 1) * 2 ^ L ≤ 2 * v
  le_upper : 2 * v ≤ (2 * m + 1) * 2 ^ L
  inside : m % 2 = 1 → (2 * m - 1) * 2 ^ L < 2 * v ∧ 2 * v < (2 * m + 1) * 2 ^ L

/-- What rounds to a double lies around it in the places of the number. -/
theorem RoundsTo.inPlaces {L : Nat} (h : RoundsTo (v * 2 ^ place) m (place + L)) :
    InPlaces v m L := by
  have htwo : (0 : ℚ) < 2 ^ place := by positivity
  have hunit : (0 : ℚ) < 2 ^ L := by positivity
  have hend (a : ℚ) : (4 * a) * 2 ^ (place + L - 2) = a * 2 ^ L * 2 ^ place := by
    rw [add_sub_assoc, zpow_add₀ two_ne_zero, zpow_sub₀ two_ne_zero, zpow_natCast,
      show (2 : ℚ) ^ (2 : Int) = 4 by norm_num]
    ring
  have hlower : (m - 1 / 2 : ℚ) * 2 ^ L * 2 ^ place ≤ lowerEnd m (place + L) := by
    rw [← hend, lowerEnd]
    refine mul_le_mul_of_nonneg_right ?_ (by positivity)
    split_ifs <;> linarith
  have hupper : upperEnd m (place + L) = (m + 1 / 2 : ℚ) * 2 ^ L * 2 ^ place := by
    rw [← hend, upperEnd]
    ring
  obtain ⟨hlow, hhigh, hodd⟩ := h
  rw [hupper] at hhigh hodd
  refine ⟨?_, ?_, fun hm => ?_⟩
  · have := le_of_mul_le_mul_right (hlower.trans hlow) htwo
    linarith
  · have := le_of_mul_le_mul_right hhigh htwo
    linarith
  · obtain ⟨hlow, hhigh⟩ := hodd hm
    have := lt_of_mul_lt_mul_right (hlower.trans_lt hlow) htwo.le
    have := lt_of_mul_lt_mul_right hhigh htwo.le
    constructor <;> linarith

/-- Below a power of two the interval is narrower: what lies there is rounded up from a
place with one bit more. -/
theorem RoundsTo.inPlaces_below {L : Nat} (hm : 2 ^ 52 ≤ m) (hlow : -1074 ≤ place)
    (hv : v < 2 ^ (53 + L)) (h : RoundsTo (v * 2 ^ place) m (place + (L + 1 : Nat))) :
    m = 2 ^ 52 ∧ InPlaces v (2 ^ 53) L := by
  have htwo : (0 : ℚ) < 2 ^ place := by positivity
  have hunit : (0 : ℚ) < 2 ^ L := by positivity
  rw [pow_add] at hv
  have hpower : m = 2 ^ 52 := by
    have hlower := h.inPlaces.lower_le
    rw [pow_succ] at hlower
    have hlt : (m : ℚ) * 2 ^ L < (2 ^ 52 + 1 : Nat) * 2 ^ L := by
      push_cast
      linarith
    have := Nat.cast_lt.1 (lt_of_mul_lt_mul_right hlt hunit.le)
    omega
  have hlower := h.lower_le
  rw [lowerEnd, if_pos ⟨hpower, by omega⟩,
    show place + (L + 1 : Nat) - 2 = (L - 1 : Int) + place by push_cast; ring,
    zpow_add₀ two_ne_zero, zpow_sub_one₀ two_ne_zero, zpow_natCast, ← mul_assoc,
    hpower] at hlower
  have hlower := le_of_mul_le_mul_right hlower htwo
  push_cast at hlower
  refine ⟨hpower, ?_, ?_, fun hodd => absurd hodd (by decide)⟩
  · push_cast
    linarith
  · push_cast
    linarith

/-- Numbers with significands of full length are equal only if significands and exponents
are. -/
theorem eq_of_magnitude_eq {n : Nat} {k : Int} (hm : 2 ^ 52 ≤ m) (hm' : m < 2 ^ 53)
    (hn : 2 ^ 52 ≤ n) (hn' : n < 2 ^ 53) (h : magnitude m e = magnitude n k) :
    m = n ∧ e = k := by
  have hprecision : 0 < double.precision := by decide
  rcases lt_trichotomy e k with hlt | rfl | hgt
  · exact absurd h (magnitude_lt_magnitude hprecision hm' hn hlt).ne
  · exact ⟨(strictMono_magnitude e).injective h, rfl⟩
  · exact absurd h (magnitude_lt_magnitude hprecision hn' hm hgt).ne'

/-- A number lies in the binade of the double that it is rounded to, or in the one below
it. -/
theorem RoundsTo.binade {L : Nat} (h : RoundsTo (v * 2 ^ place) m e) (hfull : 2 ^ 52 ≤ m)
    (hfits : m < 2 ^ 53) (hlow : 2 ^ (52 + L) ≤ v) (hhigh : v < 2 ^ (53 + L)) :
    place + L ≤ e ∧ e ≤ place + L + 1 := by
  obtain ⟨hbelow, habove⟩ := h.bounds hfull hfits
  have htwo : (0 : ℚ) < 2 ^ place := by positivity
  have hplaces (t : Nat) : (2 : ℚ) ^ (t + L) * 2 ^ place =
      2 ^ ((t : Int) + (place + L)) := by
    rw [← zpow_natCast, ← zpow_add₀ two_ne_zero]
    congr 1
    push_cast
    ring
  constructor
  · have hlt : (2 : ℚ) ^ ((52 : Nat) + (place + L)) < 2 ^ (53 + e) := by
      rw [← hplaces 52]
      exact (mul_le_mul_of_nonneg_right hlow htwo.le).trans_lt habove
    have := (zpow_lt_zpow_iff_right₀ one_lt_two).1 hlt
    omega
  · have hlt : (2 : ℚ) ^ (51 + e) < 2 ^ ((53 : Nat) + (place + L)) := by
      rw [← hplaces 53]
      exact hbelow.trans (mul_lt_mul_of_pos_right hhigh htwo)
    have := (zpow_lt_zpow_iff_right₀ one_lt_two).1 hlt
    omega

/-- The bits of a significand bound the number that it is the whole part of. -/
theorem Locates.binade {L : Nat} (hv : Locates q v acc) (hL : q.log2 = 52 + L) :
    2 ^ (52 + L) ≤ v ∧ v < 2 ^ (53 + L) := by
  obtain ⟨hvlow, hvhigh⟩ := hv.bounds
  have hq : q ≠ 0 := by
    rintro rfl
    rw [show Nat.log2 0 = 0 from rfl] at hL
    omega
  obtain ⟨hlow, hhigh⟩ := (Nat.log2_eq_iff hq).1 hL
  have hhigh : q + 1 ≤ 2 ^ (53 + L) := by rwa [show 53 + L = 52 + L + 1 by omega]
  exact ⟨le_trans (by exact_mod_cast hlow) hvlow, hvhigh.trans_le (by exact_mod_cast hhigh)⟩

/-- **A significand with its accuracy** is rounded to the double in whose interval the
number lies. -/
theorem roundWithAccuracy_of_roundsTo (hv : Locates q v acc) (hlong : 52 ≤ q.log2)
    (hlow : -1074 ≤ place) (hfull : 2 ^ 52 ≤ m) (hfits : m < 2 ^ 53)
    (h : RoundsTo (v * 2 ^ place) m e) :
    roundWithAccuracy binary64 s q place acc = .finite s m e (by omega) := by
  obtain ⟨n, hcarries, hhalves⟩ := hv.exists_carries
  obtain ⟨i, k, hpos, hround, hi, hi', -, -, hmagnitude⟩ :=
    roundWithAccuracy_of_carries (s := s) hcarries hlong hlow
  obtain ⟨L, hL⟩ : ∃ L, q.log2 = 52 + L := ⟨q.log2 - 52, by omega⟩
  have hsurplus : q.log2 - 52 = L := by omega
  obtain ⟨hqlow, hqhigh⟩ := hv.binade hL
  obtain ⟨hle, hge⟩ := h.binade hfull hfits hqlow hqhigh
  rw [hsurplus] at hmagnitude
  have hsame : magnitude m e = magnitude i k := by
    rw [hmagnitude]
    rcases hle.lt_or_eq with hlt | rfl
    · -- Just below the power of two that the double is, the significand is rounded up to
      -- that power.
      obtain rfl : e = place + (L + 1 : Nat) := by push_cast; omega
      obtain ⟨rfl, hlow, hhigh, hodd⟩ := h.inPlaces_below hfull hlow hqhigh
      rw [hhalves.roundedQuotient_eq (by decide) hlow hhigh hodd, magnitude, Nat.cast_add,
        Nat.cast_one, ← add_assoc, zpow_add_one₀ two_ne_zero]
      push_cast
      ring
    · obtain ⟨hlow, hhigh, hodd⟩ := h.inPlaces
      rw [hhalves.roundedQuotient_eq (by omega) hlow hhigh hodd]
      rfl
  obtain ⟨rfl, rfl⟩ := eq_of_magnitude_eq hfull hfits hi hi' hsame
  exact hround

/-- From here on numbers are rounded to infinity. -/
def overflowEnd : Nat := 2 ^ 1024 - 2 ^ 970

/-- Overflow begins half a unit above the largest double. -/
theorem overflowEnd_eq : (overflowEnd : ℚ) = 2 ^ (1024 : Int) - 2 ^ (970 : Int) := by
  have hcast {a b : Nat} (h : a ≤ b) : ((2 ^ b - 2 ^ a : Nat) : ℚ) =
      2 ^ (b : Int) - 2 ^ (a : Int) := by
    rw [Nat.cast_sub (Nat.pow_le_pow_right Nat.two_pos h), Nat.cast_pow, Nat.cast_pow,
      Nat.cast_ofNat, zpow_natCast, zpow_natCast]
  exact hcast (show 970 ≤ 1024 by decide)

/-- The last place a double keeps of a number before the overflow is one that doubles
have. -/
theorem place_le_of_lt_overflowEnd {n L : Nat} (hn : n ≠ 0) (hL : n.log2 = 52 + L)
    (h : (n : ℚ) * 2 ^ place < overflowEnd) : place + L ≤ 971 := by
  have hbits : (2 : ℚ) ^ (52 + L) ≤ n := by
    have := Nat.log2_self_le hn
    rw [hL] at this
    exact_mod_cast this
  have hlt : (2 : ℚ) ^ ((52 + L : Nat) + place) < 2 ^ (1024 : Int) := by
    have htwo : (0 : ℚ) < 2 ^ place := by positivity
    rw [zpow_add₀ two_ne_zero, zpow_natCast]
    refine (mul_le_mul_of_nonneg_right hbits htwo.le).trans_lt (h.trans ?_)
    rw [overflowEnd_eq]
    exact sub_lt_self _ (by positivity)
  have := (zpow_lt_zpow_iff_right₀ one_lt_two).1 hlt
  omega

/-- A number below that end is rounded to one whose exponent is that of a double. -/
theorem le_of_lt_overflowEnd {n : Nat} (hn : n ≠ 0) (hlong : 52 ≤ n.log2)
    (hfull : 2 ^ 52 ≤ m)
    (hmagnitude : magnitude m e = roundedQuotient n (n.log2 - 52) *
        2 ^ (place + (n.log2 - 52 : Nat)))
    (h : (n : ℚ) * 2 ^ place < overflowEnd) : e ≤ 971 := by
  by_contra htop
  obtain ⟨L, hL⟩ : ∃ L, n.log2 = 52 + L := ⟨n.log2 - 52, by omega⟩
  have hsurplus : n.log2 - 52 = L := by omega
  have htwo : (0 : ℚ) < 2 ^ place := by positivity
  have hunit : (2 : ℚ) ^ (place + L) = 2 ^ L * 2 ^ place := by
    rw [zpow_add₀ two_ne_zero, zpow_natCast, mul_comm]
  have hlarge : (2 : ℚ) ^ (1024 : Int) ≤ magnitude m e := by
    rw [show (1024 : Int) = 52 + 972 by rfl, zpow_add₀ two_ne_zero, magnitude]
    have hfull : (2 : ℚ) ^ (52 : Int) ≤ m := by exact_mod_cast hfull
    have hplace : (2 : ℚ) ^ (972 : Int) ≤ 2 ^ e := zpow_le_zpow_right₀ one_le_two (by omega)
    gcongr
  have hsmall : place + L ≤ 971 := place_le_of_lt_overflowEnd hn hL h
  have hlast : (2 : ℚ) ^ (place + L) ≤ 2 ^ (971 : Int) :=
    zpow_le_zpow_right₀ one_le_two hsmall
  have hround : 2 * (roundedQuotient n L * (2 : ℚ) ^ (place + L)) ≤ 2 * (n * 2 ^ place) +
      2 ^ (place + L) := by
    have hle : (2 : ℚ) * (roundedQuotient n L * 2 ^ L) ≤ 2 * n + 2 ^ L := by
      exact_mod_cast two_mul_roundedQuotient_le n L
    have := mul_le_mul_of_nonneg_right hle htwo.le
    rw [hunit]
    linarith
  have hsplit : (2 : ℚ) ^ (971 : Int) = 2 * 2 ^ (970 : Int) := zpow_one_add₀ two_ne_zero 970
  rw [hmagnitude, hsurplus] at hlarge
  rw [overflowEnd_eq] at h
  rw [hsplit] at hlast
  generalize (2 : ℚ) ^ (1024 : Int) = top at *
  generalize (2 : ℚ) ^ (970 : Int) = margin at *
  linarith

end Rounding

/-! ### Operations on doubles -/

/-- An unpacked double is determined by its parts. -/
theorem ofUnpacked_injective : Function.Injective ofUnpacked := by
  have hminus : Function.Injective isMinus := by
    rintro (_ | _) (_ | _) h <;> first | rfl | cases h
  rintro (s | _ | s | ⟨s, m, e, hm⟩) (t | _ | t | ⟨t, n, k, hn⟩) h
  all_goals try first | rfl | cases h
  · exact congrArg _ (hminus (Number.infinite.inj h))
  · exact congrArg _ (hminus (Number.finite.inj h).1)
  · exact absurd (Number.finite.inj h).2.1 hn.ne
  · exact absurd (Number.finite.inj h).2.1 hm.ne'
  · obtain ⟨hsign, rfl, rfl⟩ := Number.finite.inj h
    obtain rfl := hminus hsign
    rfl

/-- **A double is determined** by its parts. -/
theorem parts_injective : Function.Injective parts := by
  intro x y h
  rw [parts_eq_ofUnpacked, parts_eq_ofUnpacked] at h
  have hbits := (unpack_inj_of_valid x.toModel.valid y.toModel.valid (by decide)).1
    (ofUnpacked_injective h)
  exact Float.toBits_inj.1 (UInt64.toBitVec_inj.1 hbits)

section Operations

variable {x y : Float} {a b : Bool} {m n i : Nat} {e k p : Int}

/-- The unpacked form of a finite double has its mantissa, its exponent and its sign. -/
theorem exists_unpack_eq (h : parts x = .finite a m e) (hm : 0 < m) :
    ∃ s, x.toModel.unpack = .finite s m e hm ∧ isMinus s = a := by
  rw [parts_eq_ofUnpacked] at h
  generalize x.toModel.unpack = u at h
  cases u with
  | notANumber | infinity s => cases h
  | zero s => exact absurd (Number.finite.inj h).2.1 hm.ne
  | finite s n k hn =>
    obtain ⟨hsign, rfl, rfl⟩ := Number.finite.inj h
    exact ⟨s, rfl, hsign⟩

/-- A product has a minus if one of its factors has. -/
theorem isMinus_mul (s t : Sign) : isMinus (s * t) = (isMinus s != isMinus t) := by
  cases s <;> cases t <;> rfl

/-- A quotient has a minus if one of its operands has. -/
theorem isMinus_div (s t : Sign) : isMinus (s / t) = (isMinus s != isMinus t) := by
  cases s <;> cases t <;> rfl

/-- The opposite of a normal double differs from it in the sign. -/
theorem parts_neg (h : parts x = .finite a m e) (hfull : 2 ^ 52 ≤ m) (hfits : m < 2 ^ 53)
    (hlow : -1074 ≤ e) (hhigh : e ≤ 971) : parts (-x) = .finite (!a) m e := by
  obtain ⟨s, hunpack, rfl⟩ := exists_unpack_eq h (by omega)
  show parts ⟨.pack x.toModel.unpack.neg⟩ = _
  rw [hunpack]
  refine (parts_pack hfull hfits hlow hhigh).trans ?_
  cases s <;> rfl

/-- Magnitudes are multiplied by their mantissas and exponents. -/
theorem magnitude_mul (m n : Nat) (e k : Int) :
    magnitude m e * magnitude n k = ((m * n : Nat) : ℚ) * 2 ^ (e + k) := by
  rw [magnitude, magnitude, zpow_add₀ two_ne_zero, Nat.cast_mul]
  ring

/-- **A product** is the double nearest to the exact product. -/
theorem parts_mul (hx : parts x = .finite a m e) (hy : parts y = .finite b n k)
    (hm : 2 ^ 52 ≤ m) (hn : 2 ^ 52 ≤ n) (hlow : -1074 ≤ e + k) (hi : 2 ^ 52 ≤ i)
    (hi' : i < 2 ^ 53) (hp : -1074 ≤ p) (hp' : p ≤ 971)
    (h : RoundsTo (magnitude m e * magnitude n k) i p) :
    parts (x * y) = .finite (a != b) i p := by
  obtain ⟨s, hs, rfl⟩ := exists_unpack_eq hx (by omega)
  obtain ⟨t, ht, rfl⟩ := exists_unpack_eq hy (by omega)
  have hlong : 52 ≤ (m * n).log2 := by
    rw [Nat.le_log2 (Nat.mul_ne_zero (by omega) (by omega))]
    exact hm.trans (Nat.le_mul_of_pos_right m (by omega))
  have hexact : Locates (m * n) ((m * n : Nat) : ℚ) .exact := rfl
  rw [magnitude_mul] at h
  show parts ⟨.pack (UnpackedFloat.mul binary64 x.toModel.unpack y.toModel.unpack)⟩ = _
  rw [hs, ht, UnpackedFloat.mul, roundWithAccuracy_of_roundsTo hexact hlong hlow hi hi' h,
    ← isMinus_mul]
  exact parts_pack hi hi' hp hp'

/-- **A product** that is small enough is not infinite. -/
theorem exists_parts_mul (hx : parts x = .finite a m e) (hy : parts y = .finite b n k)
    (hm : 2 ^ 52 ≤ m) (hn : 2 ^ 52 ≤ n) (hlow : -1074 ≤ e + k)
    (h : magnitude m e * magnitude n k < overflowEnd) :
    ∃ i p, parts (x * y) = .finite (a != b) i p := by
  obtain ⟨s, hs, rfl⟩ := exists_unpack_eq hx (by omega)
  obtain ⟨t, ht, rfl⟩ := exists_unpack_eq hy (by omega)
  have hpos : m * n ≠ 0 := Nat.mul_ne_zero (by omega) (by omega)
  have hlong : 52 ≤ (m * n).log2 := by
    rw [Nat.le_log2 hpos]
    exact hm.trans (Nat.le_mul_of_pos_right m (by omega))
  obtain ⟨i, p, hi, hround, hfull, hfits, hplace, -, hmagnitude⟩ :=
    roundWithAccuracy_eq (s := s * t) hlong hlow
  have htop : p ≤ 971 := by
    rw [magnitude_mul] at h
    exact le_of_lt_overflowEnd hpos hlong hfull hmagnitude h
  refine ⟨i, p, ?_⟩
  show parts ⟨.pack (UnpackedFloat.mul binary64 x.toModel.unpack y.toModel.unpack)⟩ = _
  rw [hs, ht, UnpackedFloat.mul, hround, ← isMinus_mul]
  exact parts_pack hfull hfits (hlow.trans hplace) htop

/-- The whole part of a quotient, with the accuracy that its rest gives, locates the
quotient. -/
theorem locates_accuracyOfFraction (m : Nat) (hn : 0 < n) :
    Locates (m / n) ((m : ℚ) / n) (accuracyOfFraction (m % n) n) := by
  have hpos : (0 : ℚ) < n := Nat.cast_pos.2 hn
  have hrest : ((m % n : Nat) : ℚ) < n := Nat.cast_lt.2 (Nat.mod_lt m hn)
  have hquotient : (m : ℚ) / n = (m / n : Nat) + ((m % n : Nat) : ℚ) / n := by
    rw [eq_comm, ← mul_div_cancel_right₀ ((m / n : Nat) : ℚ) hpos.ne', ← add_div]
    congr 1
    exact_mod_cast Nat.div_add_mod' m n
  rw [accuracyOfFraction]
  split
  · next hzero =>
    rw [hzero, Nat.cast_zero, zero_div, add_zero] at hquotient
    exact hquotient
  · next hsome =>
    have hsome : (0 : ℚ) < (m % n : Nat) := Nat.cast_pos.2 (Nat.pos_of_ne_zero hsome)
    have hfraction := div_pos hsome hpos
    have hbelow := (div_lt_one hpos).2 hrest
    refine ⟨by linarith, by linarith, ?_⟩
    rw [hquotient]
    rcases lt_trichotomy (2 * (m % n)) n with hlt | heq | hgt
    · rw [compare_lt_iff_lt.2 hlt, compare_lt_iff_lt]
      have hlt : 2 * ((m % n : Nat) : ℚ) < n := by exact_mod_cast hlt
      have := (div_lt_one hpos).2 hlt
      rw [mul_div_assoc] at this
      linarith
    · rw [compare_eq_iff_eq.2 heq, compare_eq_iff_eq]
      have heq : 2 * ((m % n : Nat) : ℚ) = n := by exact_mod_cast heq
      have := (div_eq_one_iff_eq hpos.ne').2 heq
      rw [mul_div_assoc] at this
      linarith
    · rw [compare_gt_iff_gt.2 hgt, compare_gt_iff_gt]
      have hgt : (n : ℚ) < 2 * ((m % n : Nat) : ℚ) := by exact_mod_cast hgt
      have := (one_lt_div hpos).2 hgt
      rw [mul_div_assoc] at this
      linarith

/-- The significand of a quotient has one bit more than a double, so that no bits are
missing. -/
theorem divCore_eq (hm : 2 ^ 52 ≤ m) (hm' : m < 2 ^ 53) (hn : 2 ^ 52 ≤ n) (hn' : n < 2 ^ 53)
    (hlow : -1021 ≤ e - k) :
    divCore binary64 m e n k =
      (m * 2 ^ 53 / n, e - k - 53, accuracyOfFraction (m * 2 ^ 53 % n) n) := by
  have hlogm : m.log2 = 52 := (Nat.log2_eq_iff (by omega)).2 ⟨hm, hm'⟩
  have hlogn : n.log2 = 52 := (Nat.log2_eq_iff (by omega)).2 ⟨hn, hn'⟩
  have hplace : min (e - k) (binary64.targetExponent
        (Float.Model.totalExponent m e - Float.Model.totalExponent n k)) =
      e - k - 53 := by
    rw [Float.Model.totalExponent, Float.Model.totalExponent, hlogm, hlogn]
    show min (e - k)
      (max (((52 : Nat) : Int) + 1 + e - (((52 : Nat) : Int) + 1 + k) - 53) (-1074)) = _
    omega
  have hshift : (e - k - (e - k - 53)).toNat = 53 := by omega
  rw [divCore, hplace, hshift, Nat.shiftLeft_eq]

/-- **A quotient** is the double nearest to the exact quotient. -/
theorem parts_div (hx : parts x = .finite a m e) (hy : parts y = .finite b n k)
    (hm : 2 ^ 52 ≤ m) (hm' : m < 2 ^ 53) (hn : 2 ^ 52 ≤ n) (hn' : n < 2 ^ 53)
    (hlow : -1021 ≤ e - k) (hi : 2 ^ 52 ≤ i) (hi' : i < 2 ^ 53) (hp : -1074 ≤ p)
    (hp' : p ≤ 971) (h : RoundsTo (magnitude m e / magnitude n k) i p) :
    parts (x / y) = .finite (a != b) i p := by
  obtain ⟨s, hs, rfl⟩ := exists_unpack_eq hx (by omega)
  obtain ⟨t, ht, rfl⟩ := exists_unpack_eq hy (by omega)
  have hpos : (n : ℚ) ≠ 0 := Nat.cast_ne_zero.2 (by omega)
  have hquotient : magnitude m e / magnitude n k =
      ((m * 2 ^ 53 : Nat) : ℚ) / n * 2 ^ (e - k - 53) := by
    have hplace : (2 : ℚ) ^ (e - k - 53) = 2 ^ e / 2 ^ k / 2 ^ 53 := by
      rw [zpow_sub₀ two_ne_zero, zpow_sub₀ two_ne_zero]
      rfl
    rw [magnitude, magnitude, hplace, Nat.cast_mul, Nat.cast_pow, Nat.cast_ofNat]
    field_simp
  have hlong : 52 ≤ (m * 2 ^ 53 / n).log2 := by
    have hle : 2 ^ 52 ≤ m * 2 ^ 53 / n := by
      rw [Nat.le_div_iff_mul_le (by omega)]
      exact Nat.mul_le_mul hm hn'.le
    rwa [Nat.le_log2 (by omega)]
  rw [hquotient] at h
  show parts ⟨.pack (UnpackedFloat.div binary64 x.toModel.unpack y.toModel.unpack)⟩ = _
  rw [hs, ht, UnpackedFloat.div, divCore_eq hm hm' hn hn' hlow]
  dsimp only
  rw [roundWithAccuracy_of_roundsTo (locates_accuracyOfFraction _ (by omega)) hlong
    (by omega) hi hi' h, ← isMinus_div]
  exact parts_pack hi hi' hp hp'

end Operations

end FormulaTable.Binary
