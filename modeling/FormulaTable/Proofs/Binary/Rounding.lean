import FormulaTable.Proofs.Binary.Double

/-!
# Integers as doubles

An integer is turned into the double nearest to it, and of two equally near ones into the
one with the even significand. Integers below `2 ^ 53` are doubles themselves; of the larger
ones the bits beyond the precision are rounded off, so that different integers may become
the same double. They never change places.

* `nearest_mono`, `nearest_eq_self` — rounding keeps the order, and leaves alone what fits.
* `Carries.roundedMantissa` — dropping bits one by one, with a round and a sticky bit,
  amounts to one rounding.
* `amount?_ofInt` — the double that an integer is turned into amounts to the rounded
  integer.
-/

namespace FormulaTable.Binary

open Float.Model (UnpackedFloat)
open Float.Model.UnpackedFloat
open Float.Model.Format (binary64)

/-! ### Rounding off the last bits -/

/-- The quotient by `2 ^ k`, rounded to the nearest integer, and from the middle between two
to the even one. -/
def roundedQuotient (n k : Nat) : Nat :=
  if 2 * (n % 2 ^ k) < 2 ^ k then n / 2 ^ k
  else if 2 * (n % 2 ^ k) = 2 ^ k then n / 2 ^ k + n / 2 ^ k % 2
  else n / 2 ^ k + 1

/-- The number of bits of a number that are beyond the precision of a double. -/
def surplus (n : Nat) : Nat := n.log2 - 52

/-- The number that the double nearest to a natural number is. -/
def nearest (n : Nat) : Nat := roundedQuotient n (surplus n) * 2 ^ surplus n

/-- The number that the double nearest to an integer is. -/
def nearestInt : Int → Int
  | .ofNat n => nearest n
  | .negSucc n => -nearest (n + 1)

section Quotients

variable {m n k : Nat}

/-- A rounded quotient is not below the whole one. -/
theorem div_le_roundedQuotient (n k : Nat) : n / 2 ^ k ≤ roundedQuotient n k := by
  rw [roundedQuotient]
  split_ifs <;> omega

/-- A rounded quotient is at most one above the whole one. -/
theorem roundedQuotient_le (n k : Nat) : roundedQuotient n k ≤ n / 2 ^ k + 1 := by
  rw [roundedQuotient]
  split_ifs <;> omega

/-- Rounded quotients keep the order of numbers. -/
theorem roundedQuotient_mono (h : m ≤ n) : roundedQuotient m k ≤ roundedQuotient n k := by
  rcases (Nat.div_le_div_right h : m / 2 ^ k ≤ n / 2 ^ k).lt_or_eq with hlt | heq
  · calc roundedQuotient m k
        ≤ m / 2 ^ k + 1 := roundedQuotient_le m k
      _ ≤ n / 2 ^ k := hlt
      _ ≤ roundedQuotient n k := div_le_roundedQuotient n k
  · have hrest : m % 2 ^ k ≤ n % 2 ^ k := by
      have hm := Nat.div_add_mod m (2 ^ k)
      have hn := Nat.div_add_mod n (2 ^ k)
      rw [heq] at hm
      omega
    rw [roundedQuotient, roundedQuotient, heq]
    split_ifs <;> omega

/-- Bits that are zero do not matter. -/
theorem roundedQuotient_mul (n k t : Nat) :
    roundedQuotient (n * 2 ^ t) (k + t) = roundedQuotient n k := by
  have hpos := Nat.two_pow_pos t
  have hdiv : n * 2 ^ t / 2 ^ (k + t) = n / 2 ^ k := by
    rw [pow_add, Nat.mul_div_mul_right _ _ hpos]
  have hmod : n * 2 ^ t % 2 ^ (k + t) = n % 2 ^ k * 2 ^ t := by
    rw [pow_add, Nat.mul_mod_mul_right]
  have hlt : 2 * (n % 2 ^ k * 2 ^ t) < 2 ^ (k + t) ↔ 2 * (n % 2 ^ k) < 2 ^ k := by
    rw [pow_add, ← Nat.mul_assoc, Nat.mul_lt_mul_right hpos]
  have heq : 2 * (n % 2 ^ k * 2 ^ t) = 2 ^ (k + t) ↔ 2 * (n % 2 ^ k) = 2 ^ k := by
    rw [pow_add, ← Nat.mul_assoc, Nat.mul_left_inj hpos.ne']
  simp only [roundedQuotient, hdiv, hmod, hlt, heq]

/-- Nothing is rounded where nothing is cut off. -/
theorem roundedQuotient_zero (n : Nat) : roundedQuotient n 0 = n := by
  rw [roundedQuotient, pow_zero, Nat.mod_one, if_pos (by decide), Nat.div_one]

/-- What fits is left alone. -/
theorem nearest_eq_self (h : n < 2 ^ 53) : nearest n = n := by
  have hsurplus : surplus n = 0 := by
    by_cases hn : n = 0
    · subst hn
      rfl
    · have := (Nat.log2_lt hn).2 h
      rw [surplus]
      omega
  rw [nearest, hsurplus, roundedQuotient_zero, pow_zero, Nat.mul_one]

/-- A number that does not fit is rounded within its power of two. -/
theorem roundedQuotient_bounds (hn : n ≠ 0) (hlog : n.log2 = 52 + k) :
    2 ^ 52 ≤ roundedQuotient n k ∧ roundedQuotient n k ≤ 2 ^ 53 := by
  have hlower : 2 ^ 52 ≤ n / 2 ^ k := by
    rw [Nat.le_div_iff_mul_le (Nat.two_pow_pos k), ← pow_add, ← hlog]
    exact Nat.log2_self_le hn
  have hupper : n / 2 ^ k < 2 ^ 53 := by
    rw [Nat.div_lt_iff_lt_mul (Nat.two_pow_pos k), ← pow_add]
    exact Nat.lt_log2_self.trans_eq (congrArg _ (by omega))
  exact ⟨hlower.trans (div_le_roundedQuotient n k), (roundedQuotient_le n k).trans hupper⟩

/-- Rounding does not lead out of the powers of two around a number. -/
theorem nearest_bounds (hn : n ≠ 0) :
    2 ^ n.log2 ≤ nearest n ∧ nearest n ≤ 2 ^ (n.log2 + 1) := by
  by_cases hfits : n < 2 ^ 53
  · rw [nearest_eq_self hfits]
    exact ⟨Nat.log2_self_le hn, Nat.lt_log2_self.le⟩
  · have hlog : n.log2 = 52 + surplus n := by
      have := (Nat.le_log2 hn).2 (not_lt.1 hfits)
      rw [surplus]
      omega
    obtain ⟨hlower, hupper⟩ := roundedQuotient_bounds hn hlog
    constructor
    · calc 2 ^ n.log2
          = 2 ^ 52 * 2 ^ surplus n := by rw [← pow_add, ← hlog]
        _ ≤ nearest n := Nat.mul_le_mul_right _ hlower
    · calc nearest n
          ≤ 2 ^ 53 * 2 ^ surplus n := Nat.mul_le_mul_right _ hupper
        _ = 2 ^ (n.log2 + 1) := by rw [← pow_add, hlog]; congr 1; omega

/-- **Rounding** keeps the order. -/
theorem nearest_mono : Monotone nearest := by
  intro m n h
  by_cases hm : m = 0
  · rw [hm, nearest_eq_self (by decide)]
    exact Nat.zero_le _
  have hn : n ≠ 0 := by omega
  have hlog : m.log2 ≤ n.log2 := (Nat.le_log2 hn).2 ((Nat.log2_self_le hm).trans h)
  rcases hlog.lt_or_eq with hlt | heq
  · calc nearest m
        ≤ 2 ^ (m.log2 + 1) := (nearest_bounds hm).2
      _ ≤ 2 ^ n.log2 := Nat.pow_le_pow_right Nat.two_pos hlt
      _ ≤ nearest n := (nearest_bounds hn).1
  · have hsurplus : surplus m = surplus n := congrArg (· - 52) heq
    rw [nearest, nearest, hsurplus]
    exact Nat.mul_le_mul_right _ (roundedQuotient_mono h)

/-- Rounding keeps the order of integers. -/
theorem nearestInt_mono : Monotone nearestInt := by
  intro a b h
  cases a <;> cases b <;> simp only [nearestInt]
  case ofNat.ofNat m n => exact Int.ofNat_le.2 (nearest_mono (Int.ofNat_le.1 h))
  case ofNat.negSucc m n =>
    exact absurd (h.trans_lt (Int.negSucc_lt_zero n)) (Int.natCast_nonneg m).not_gt
  case negSucc.ofNat m n => omega
  case negSucc.negSucc m n =>
    have := nearest_mono (show n + 1 ≤ m + 1 by omega)
    omega

/-- Rounding an integer rounds its absolute value. -/
theorem natAbs_nearestInt (a : Int) : (nearestInt a).natAbs = nearest a.natAbs := by
  cases a with
  | ofNat n => exact Int.natAbs_natCast _
  | negSucc n => exact (Int.natAbs_neg _).trans (Int.natAbs_natCast _)

/-- Integers of at most 53 bits are doubles. -/
theorem nearestInt_eq_self {a : Int} (h : a.natAbs < 2 ^ 53) : nearestInt a = a := by
  cases a with
  | ofNat n => exact congrArg Int.ofNat (nearest_eq_self h)
  | negSucc n => exact congrArg (fun k : Nat => -(k : Int)) (nearest_eq_self h)

/-- **Only large integers** are rounded to the same number as another one. -/
theorem le_natAbs_of_nearestInt_eq {a b : Int} (hne : a ≠ b)
    (h : nearestInt a = nearestInt b) :
    2 ^ 53 ≤ a.natAbs := by
  by_contra hsmall
  rw [nearestInt_eq_self (not_le.1 hsmall)] at h
  have hb : ¬ b.natAbs < 2 ^ 53 := fun hb => hne (h.trans (nearestInt_eq_self hb))
  have hlarge : 2 ^ 53 ≤ nearest b.natAbs := nearest_mono (not_lt.1 hb)
  rw [← natAbs_nearestInt, ← h] at hlarge
  exact hsmall hlarge

end Quotients

/-! ### Dropping bits one by one -/

/-- The extended mantissa carries what is left of a number after its last `k` bits are
dropped: the round bit says whether they were worth a half or more, and the sticky bit
whether something else than nothing or a half. -/
structure Carries (em : ExtendedMantissa) (n k : Nat) : Prop where
  mantissa : em.mantissa = n / 2 ^ k
  round : em.roundBit = true ↔ 2 ^ k ≤ 2 * (n % 2 ^ k)
  sticky : em.stickyBit = true ↔ n % 2 ^ k ≠ 0 ∧ 2 * (n % 2 ^ k) ≠ 2 ^ k

/-- An exact mantissa carries its number, with nothing cut off. -/
theorem carries_exact (n : Nat) : Carries (.ofMantissaAndAccuracy n .exact) n 0 := by
  constructor <;> simp [ExtendedMantissa.ofMantissaAndAccuracy, Nat.mod_one]

/-- A shift by one place cuts off one bit more. -/
theorem Carries.shiftRightOne {em : ExtendedMantissa} {n k : Nat} (h : Carries em n k) :
    Carries em.shiftRightOne n (k + 1) := by
  have hrest : n % 2 ^ (k + 1) = n % 2 ^ k + 2 ^ k * (n / 2 ^ k % 2) := by
    rw [pow_succ, Nat.mod_mul]
  have hlt := Nat.mod_lt n (Nat.two_pow_pos k)
  have hdouble : 2 ^ (k + 1) = 2 * 2 ^ k := pow_succ' 2 k
  have hbit := Nat.mod_two_eq_zero_or_one (n / 2 ^ k)
  constructor
  · rw [ExtendedMantissa.shiftRightOne, h.mantissa, pow_succ, Nat.div_div_eq_div_mul]
  · rw [ExtendedMantissa.shiftRightOne, bne_iff_ne, h.mantissa, hrest, hdouble]
    rcases hbit with hzero | hone
    · rw [hzero]; omega
    · rw [hone]; omega
  · rw [ExtendedMantissa.shiftRightOne, Bool.or_eq_true, h.round, h.sticky, hrest, hdouble]
    rcases hbit with hzero | hone
    · rw [hzero]; omega
    · rw [hone]; omega

/-- A shift by several places cuts off as many bits more. -/
theorem Carries.shiftRight {em : ExtendedMantissa} {n k : Nat} (h : Carries em n k)
    (j : Nat) :
    Carries (em >>> j) n (k + j) := by
  induction j with
  | zero => exact h
  | succ j ih => exact ih.shiftRightOne

/-- **Dropping bits** amounts to one rounding. -/
theorem Carries.roundedMantissa {em : ExtendedMantissa} {n k : Nat} (h : Carries em n k) :
    em.roundedMantissa = roundedQuotient n k := by
  obtain ⟨hmantissa, hround, hsticky⟩ := h
  have hlt := Nat.mod_lt n (Nat.two_pow_pos k)
  rcases em with ⟨m, _ | _, _ | _⟩ <;>
    simp only [ExtendedMantissa.roundedMantissa, ExtendedMantissa.accuracy,
      Accuracy.roundToNearestEven, roundedQuotient, Bool.false_eq_true, false_iff, true_iff,
      not_and_or, not_not, ne_eq] at hmantissa hround hsticky ⊢
  all_goals split_ifs <;> omega

/-! ### The double of an integer -/

/-- A long quotient by a power of two has lost as many bits as the exponent says. -/
theorem log2_div_two_pow {n j : Nat} (hlong : 52 ≤ (n / 2 ^ j).log2) :
    n.log2 = (n / 2 ^ j).log2 + j := by
  have hquotient : n / 2 ^ j ≠ 0 := by
    intro hzero
    rw [hzero] at hlong
    exact absurd hlong (by decide)
  have hn : n ≠ 0 := by
    rintro rfl
    exact hquotient (Nat.zero_div _)
  rw [Nat.log2_eq_iff hn]
  constructor
  · calc 2 ^ ((n / 2 ^ j).log2 + j)
        = 2 ^ (n / 2 ^ j).log2 * 2 ^ j := pow_add ..
      _ ≤ n / 2 ^ j * 2 ^ j := Nat.mul_le_mul_right _ (Nat.log2_self_le hquotient)
      _ ≤ n := Nat.div_mul_le_self n _
  · calc n
        < (n / 2 ^ j + 1) * 2 ^ j :=
          (Nat.lt_mul_div_succ n (Nat.two_pow_pos j)).trans_eq (Nat.mul_comm ..)
      _ ≤ 2 ^ ((n / 2 ^ j).log2 + 1) * 2 ^ j := Nat.mul_le_mul_right _ Nat.lt_log2_self
      _ = 2 ^ ((n / 2 ^ j).log2 + j + 1) := by rw [← pow_add]; congr 1; omega

section Results

variable {s : Sign} {m : Nat} {e : Int}

/-- A number with a significand of full length is unpacked as it was packed. -/
theorem parts_pack {hpos : 0 < m} (hfull : 2 ^ 52 ≤ m) (hfits : m < 2 ^ 53)
    (hlow : -1074 ≤ e) (hhigh : e ≤ 971) :
    parts ⟨.pack (.finite s m e hpos)⟩ = .finite (isMinus s) m e := by
  have hlog : m.log2 = 52 := (Nat.log2_eq_iff (by omega)).2 ⟨hfull, hfits⟩
  have hplace : (e + (binary64.exponentBias : Int) +
        (binary64.mantissaBitsWithoutImplicit : Int)).toNat =
      (e + 1075).toNat := by
    congr 1
    show e + 1023 + 52 = _
    omega
  have hfield : (BitVec.ofNat 11 (e + 1075).toNat).toNat = (e + 1075).toNat :=
    Nat.mod_eq_of_lt (by omega)
  have hfraction : (BitVec.ofNat 52 m).toNat = m - 2 ^ 52 := by
    show m % 2 ^ 52 = _
    omega
  have hpack : UnpackedFloat.pack binary64 (.finite s m e hpos) =
      packComponents binary64 s (BitVec.ofNat 11 (e + 1075).toNat) (BitVec.ofNat 52 m) := by
    rw [UnpackedFloat.pack]
    dsimp only
    rw [hplace, if_neg (by show ¬ 2 ^ 11 ≤ _; omega), if_pos (by rw [hlog]; rfl)]
  show double.decode (UnpackedFloat.pack binary64 (.finite s m e hpos)).toNat = _
  rw [hpack, decode_fields, unpackExponent_packComponents, unpackMantissa_packComponents,
    unpackSign_packComponents, Sign.ofBitVec_toBitVec, hfield, hfraction, if_neg, if_neg]
  · congr 1 <;> omega
  · intro hzero
    have hnat := hfield.symm.trans (congrArg BitVec.toNat hzero)
    rw [BitVec.toNat_zero] at hnat
    omega
  · intro htop
    have hnat : (e + 1075).toNat = 2047 := hfield.symm.trans (congrArg BitVec.toNat htop)
    omega

/-- The number of bits that rounding drops from a significand, if it has as many as a double
or more. -/
theorem targetExponent_eq (hlong : 52 ≤ m.log2) (hlow : -1074 ≤ e) :
    binary64.targetExponent (Float.Model.totalExponent m e) = e + (m.log2 - 52 : Nat) := by
  show max ((m.log2 : Int) + 1 + e - 53) (-1074) = _
  omega

/-- A significand that fits is left alone. -/
theorem shiftToTargetExponent_of_fits (hfull : 2 ^ 52 ≤ m) (hfits : m < 2 ^ 53)
    (hlow : -1074 ≤ e) :
    shiftToTargetExponent binary64 m e .exact = (.ofMantissaAndAccuracy m .exact, e) := by
  have hlog : m.log2 = 52 := (Nat.log2_eq_iff (by omega)).2 ⟨hfull, hfits⟩
  have htarget := targetExponent_eq hlog.ge hlow
  rw [hlog] at htarget
  rw [shiftToTargetExponent, shiftToExponent, htarget]
  simp
  rfl

/-- One that is rounded up to the next power of two loses its last bit, which is zero. -/
theorem shiftToTargetExponent_of_carry (hlow : -1074 ≤ e) :
    shiftToTargetExponent binary64 (2 ^ 53) e .exact = (⟨2 ^ 52, false, false⟩, e + 1) := by
  have htarget := targetExponent_eq (m := 2 ^ 53) (by rw [Nat.log2_two_pow]; decide) hlow
  rw [Nat.log2_two_pow] at htarget
  rw [shiftToTargetExponent, shiftToExponent, htarget]
  have hone : (e + (53 - 52 : Nat) - e).toNat = 1 := by omega
  rw [hone]
  rfl

/-- **Rounding** a long significand gives a number of full length. If the significand is
what is left of a number, together with its accuracy, then it is this number that is
rounded. -/
theorem roundWithAccuracy_of_carries {acc : Accuracy} {n j : Nat}
    (hcarries : Carries (.ofMantissaAndAccuracy m acc) n j) (hlong : 52 ≤ m.log2)
    (hlow : -1074 ≤ e) : ∃ i k hpos,
    roundWithAccuracy binary64 s m e acc = .finite s i k hpos ∧ 2 ^ 52 ≤ i ∧ i < 2 ^ 53 ∧
      e ≤ k ∧ k ≤ e + (m.log2 - 52 : Nat) + 1 ∧
      magnitude i k = roundedQuotient n (j + (m.log2 - 52)) *
        2 ^ (e + (m.log2 - 52 : Nat)) := by
  have hshift : shiftToTargetExponent binary64 m e acc =
      (ExtendedMantissa.ofMantissaAndAccuracy m acc >>> (m.log2 - 52),
          e + (m.log2 - 52 : Nat)) := by
    have hcount : (e + (m.log2 - 52 : Nat) - e).toNat = m.log2 - 52 := by omega
    rw [shiftToTargetExponent, shiftToExponent, targetExponent_eq hlong hlow, hcount]
  have hm : m = n / 2 ^ j := by
    rw [← hcarries.mantissa]
    rcases acc with _ | (_ | _ | _) <;> rfl
  have hn : n ≠ 0 := by
    rintro rfl
    rw [hm, Nat.zero_div] at hlong
    exact absurd hlong (by decide)
  have hlog : n.log2 = m.log2 + j := by
    rw [hm] at hlong ⊢
    exact log2_div_two_pow hlong
  obtain ⟨hlower, hupper⟩ := roundedQuotient_bounds hn (k := j + (m.log2 - 52)) (by omega)
  rw [roundWithAccuracy, hshift]
  dsimp only
  rw [(hcarries.shiftRight (m.log2 - 52)).roundedMantissa]
  rcases hupper.lt_or_eq with hfits | hcarry
  · rw [shiftToTargetExponent_of_fits hlower hfits (by omega)]
    dsimp only
    rw [dif_neg (by show ¬ roundedQuotient _ _ = 0; omega)]
    exact ⟨_, _, _, rfl, hlower, hfits, by omega, by omega, rfl⟩
  · rw [hcarry, shiftToTargetExponent_of_carry (by omega)]
    refine ⟨2 ^ 52, _, by decide, rfl, le_rfl, by decide, by omega, by omega, ?_⟩
    rw [magnitude, zpow_add_one₀ two_ne_zero]
    push_cast
    ring

/-- An exact significand is rounded itself. -/
theorem roundWithAccuracy_eq (hlong : 52 ≤ m.log2) (hlow : -1074 ≤ e) : ∃ n k hpos,
    roundWithAccuracy binary64 s m e .exact = .finite s n k hpos ∧ 2 ^ 52 ≤ n ∧ n < 2 ^ 53 ∧
      e ≤ k ∧ k ≤ e + (m.log2 - 52 : Nat) + 1 ∧
      magnitude n k = roundedQuotient m (m.log2 - 52) * 2 ^ (e + (m.log2 - 52 : Nat)) := by
  have hround := @roundWithAccuracy_of_carries s m e .exact m 0 (carries_exact m) hlong hlow
  rwa [Nat.zero_add] at hround

/-- A number that is packed at full length is unpacked again. -/
theorem unpack_pack {hpos : 0 < m} (hfull : 2 ^ 52 ≤ m) (hfits : m < 2 ^ 53)
    (hlow : -1074 ≤ e) (hhigh : e ≤ 971) :
    (Float.Model.pack (.finite s m e hpos)).unpack = .finite s m e hpos := by
  have hparts : ofUnpacked (Float.Model.pack (.finite s m e hpos)).unpack =
      .finite (isMinus s) m e :=
    (parts_eq_ofUnpacked _).symm.trans (parts_pack hfull hfits hlow hhigh)
  generalize (Float.Model.pack (.finite s m e hpos)).unpack = x at hparts
  cases x with
  | notANumber | infinity t => cases hparts
  | zero t =>
      obtain ⟨-, hzero, -⟩ := Number.finite.inj hparts
      omega
  | finite t n k h =>
      obtain ⟨hsign, rfl, rfl⟩ := Number.finite.inj hparts
      cases s <;> cases t <;> first | rfl | cases hsign

/-- A significand of full length is not rounded. -/
theorem roundWithAccuracy_of_fits (hfull : 2 ^ 52 ≤ m) (hfits : m < 2 ^ 53)
    (hlow : -1074 ≤ e) :
    roundWithAccuracy binary64 s m e .exact = .finite s m e (by omega) := by
  have hrounded : (ExtendedMantissa.ofMantissaAndAccuracy m .exact).roundedMantissa = m :=
    rfl
  rw [roundWithAccuracy, shiftToTargetExponent_of_fits hfull hfits hlow]
  dsimp only
  rw [hrounded, shiftToTargetExponent_of_fits hfull hfits hlow]
  exact dif_neg (by show ¬ m = 0; omega)

end Results

section Naturals

variable {n : Nat}

/-- A product with a power of two has gained as many bits as the exponent says. -/
theorem log2_mul_two_pow (hn : n ≠ 0) (t : Nat) : (n * 2 ^ t).log2 = n.log2 + t := by
  rw [Nat.log2_eq_iff (Nat.mul_ne_zero hn (Nat.two_pow_pos t).ne')]
  constructor
  · calc 2 ^ (n.log2 + t)
        = 2 ^ n.log2 * 2 ^ t := pow_add ..
      _ ≤ n * 2 ^ t := Nat.mul_le_mul_right _ (Nat.log2_self_le hn)
  · calc n * 2 ^ t
        < 2 ^ (n.log2 + 1) * 2 ^ t :=
          Nat.mul_lt_mul_of_pos_right Nat.lt_log2_self (Nat.two_pow_pos t)
      _ = 2 ^ (n.log2 + t + 1) := by rw [← pow_add]; congr 1; omega

/-- A number that fits 64 bits is rounded with zeros behind it, up to full length. -/
theorem ofUInt64_eq (hn : n ≠ 0) (hfits : n < 2 ^ 53) :
    UnpackedFloat.ofUInt64 binary64 n.toUInt64 =
      roundWithAccuracy binary64 .positive (n * 2 ^ (52 - n.log2))
        (-(52 - n.log2 : Nat)) .exact := by
  have hlog : n.log2 < 53 := (Nat.log2_lt hn).2 hfits
  have htoNat : n.toUInt64.toNat = n :=
    UInt64.toNat_ofNat_of_lt' (by rw [UInt64.size]; omega)
  have hpos : compare (n : Int) 0 = .gt := compare_gt_iff_gt.2 (by omega)
  have htarget : ((0 : Int) -
        binary64.targetExponent (Float.Model.totalExponent n 0)).toNat = 52 - n.log2 := by
    show ((0 : Int) - max ((n.log2 : Int) + 1 + 0 - 53) (-1074)).toNat = _
    omega
  rw [UnpackedFloat.ofUInt64, UnpackedFloat.ofNat, UnpackedFloat.ofInt,
    UnpackedFloat.normalize, htoNat, hpos]
  show UnpackedFloat.round binary64 .positive n 0 = _
  rw [UnpackedFloat.round, decreaseExponent]
  dsimp only
  rw [htarget, Nat.shiftLeft_eq, zero_sub]

/-- An integer is rounded as an exact quotient over `2 ^ 53`. -/
theorem ofScientific_eq (hn : n ≠ 0) : UnpackedFloat.ofScientific binary64 n 0 =
    roundWithAccuracy binary64 .positive (n * 2 ^ 53) (-53) .exact := by
  rw [UnpackedFloat.ofScientific, dif_neg hn, if_neg (by decide), if_neg, if_pos le_rfl]
  · rw [UnpackedFloat.mul, Nat.shiftLeft_eq, Int.toNat_zero, pow_zero, Nat.mul_one]
    rfl
  · show ¬ (0 : Int) < -(2 ^ 11 + (n.log2 : Int))
    omega

/-- The unpacked form of one. -/
theorem unpack_one :
    (Float.ofBits 0x3ff0000000000000).toModel.unpack = .finite .positive (2 ^ 52) (-52)
      (by decide) := rfl

/-- A number that fits is turned into a double and multiplied by one. -/
theorem ofNat_of_fits (hfits : n < 2 ^ 53) :
    Float.ofNat n = ⟨.pack (UnpackedFloat.mul binary64
    (Float.Model.pack (UnpackedFloat.ofUInt64 binary64 n.toUInt64)).unpack
    (.finite .positive (2 ^ 52) (-52) (by decide)))⟩ := by
  have hone : Float.exactlyRepresentablePowersOfTen[0] = Float.ofBits 0x3ff0000000000000 :=
    rfl
  show Float.ofScientific n false 0 = _
  rw [Float.ofScientific, dif_pos ⟨hfits, by decide⟩, ← unpack_one]
  dsimp only
  rw [if_neg (by decide), hone]
  rfl

/-- A natural number becomes a double by one rounding, with zeros behind it that make it
long enough. -/
theorem ofNat_eq (hn : n ≠ 0) : ∃ t ≤ 104, 52 ≤ n.log2 + t ∧
    Float.ofNat n =
      ⟨.pack (roundWithAccuracy binary64 .positive (n * 2 ^ t) (-t) .exact)⟩ := by
  by_cases hfits : n < 2 ^ 53
  · have hlog : n.log2 < 53 := (Nat.log2_lt hn).2 hfits
    have hlong : (n * 2 ^ (52 - n.log2)).log2 = 52 := by
      rw [log2_mul_two_pow hn]
      omega
    have hpos : n * 2 ^ (52 - n.log2) ≠ 0 := Nat.mul_ne_zero hn (Nat.two_pow_pos _).ne'
    obtain ⟨hfull, hshort⟩ := (Nat.log2_eq_iff hpos).1 hlong
    refine ⟨52 - n.log2 + 52, by omega, by omega, ?_⟩
    rw [ofNat_of_fits hfits, ofUInt64_eq hn hfits,
      roundWithAccuracy_of_fits hfull hshort (by omega),
      unpack_pack hfull hshort (by omega) (by omega), UnpackedFloat.mul, Nat.mul_assoc,
      ← pow_add, Nat.cast_add, neg_add]
    rfl
  · refine ⟨53, by decide, by omega, ?_⟩
    show Float.ofScientific n false 0 = _
    rw [Float.ofScientific, dif_neg fun h => hfits h.1]
    exact congrArg (fun x => Float.ofModel (.pack x)) (ofScientific_eq hn)

/-- Zeros behind a number are made up for by the exponent. -/
theorem roundedQuotient_mul_two_pow {t : Nat} (hlong : 52 ≤ n.log2 + t) :
    roundedQuotient (n * 2 ^ t) (n.log2 + t - 52) *
      (2 : ℚ) ^ (-(t : Int) + (n.log2 + t - 52 : Nat)) = nearest n := by
  by_cases hlog : 52 ≤ n.log2
  · have hdrop : n.log2 + t - 52 = surplus n + t := by
      rw [surplus]
      omega
    have hplace : -(t : Int) + (surplus n + t : Nat) = (surplus n : Nat) := by omega
    rw [hdrop, roundedQuotient_mul, hplace, nearest, zpow_natCast]
    push_cast
    rfl
  · have hsurplus : surplus n = 0 := by
      rw [surplus]
      omega
    have hsplit : n * 2 ^ t = n * 2 ^ (52 - n.log2) * 2 ^ (n.log2 + t - 52) := by
      rw [Nat.mul_assoc, ← pow_add]
      congr 2
      omega
    have hplace : -(t : Int) + (n.log2 + t - 52 : Nat) = -((52 - n.log2 : Nat) : Int) := by
      omega
    have hquotient := roundedQuotient_mul (n * 2 ^ (52 - n.log2)) 0 (n.log2 + t - 52)
    rw [Nat.zero_add, roundedQuotient_zero] at hquotient
    rw [hsplit, hquotient, hplace, nearest, hsurplus, roundedQuotient_zero, zpow_neg,
      zpow_natCast]
    push_cast
    field_simp

/-- **The double of a natural number** is the nearest one. -/
theorem unpack_ofNat (hn : n ≠ 0) (hbound : n < 2 ^ 64) : ∃ m e hpos,
    (Float.ofNat n).toModel.unpack = .finite .positive m e hpos ∧ 2 ^ 52 ≤ m ∧ m < 2 ^ 53 ∧
      -1074 ≤ e ∧ e ≤ 971 ∧ magnitude m e = nearest n := by
  obtain ⟨t, ht, hlong, hofNat⟩ := ofNat_eq hn
  have hlog := log2_mul_two_pow hn t
  have hshort : n.log2 < 64 := (Nat.log2_lt hn).2 hbound
  obtain ⟨m, e, hpos, hround, hfull, hfits, hlow, hhigh, hmagnitude⟩ :=
    @roundWithAccuracy_eq .positive (n * 2 ^ t) (-t) (by omega) (by omega)
  rw [hlog] at hhigh hmagnitude
  refine ⟨m, e, hpos, ?_, hfull, hfits, by omega, by omega,
    hmagnitude.trans (roundedQuotient_mul_two_pow hlong)⟩
  rw [hofNat, hround]
  exact unpack_pack hfull hfits (by omega) (by omega)

end Naturals

/-- **The double of an integer** amounts to the rounded integer. -/
theorem amount?_ofInt {n : Int} (hbound : n.natAbs < 2 ^ 64) :
    (parts (Float.ofInt n)).amount? = some (.ofRat (nearestInt n)) := by
  match n with
  | .ofNat 0 =>
      have hzero : parts (Float.ofInt (.ofNat 0)) = .finite false 0 (-1074) := rfl
      rw [hzero, Number.amount?, magnitude_zero]
      rfl
  | .ofNat (m + 1) =>
      obtain ⟨k, e, hpos, hunpack, -, -, -, -, hmagnitude⟩ :=
        unpack_ofNat (n := m + 1) (by omega) hbound
      show (parts (Float.ofNat (m + 1))).amount? =
        some (.ofRat ((nearest (m + 1) : Int) : ℚ))
      rw [parts_eq_ofUnpacked, hunpack, ofUnpacked, isMinus, Number.amount?, hmagnitude]
      rfl
  | .negSucc m =>
      obtain ⟨k, e, hpos, hunpack, hfull, hfits, hlow, hhigh, hmagnitude⟩ :=
        unpack_ofNat (n := m + 1) (by omega) (by simpa using hbound)
      have hneg : (Float.ofInt (.negSucc m)).toModel.unpack =
          .finite .negative k e hpos := by
        show (Float.Model.pack ((Float.ofNat (m + 1)).toModel.unpack.neg)).unpack = _
        rw [hunpack]
        exact unpack_pack hfull hfits hlow hhigh
      rw [parts_eq_ofUnpacked, hneg, ofUnpacked, isMinus, Number.amount?,
        hmagnitude, nearestInt]
      push_cast
      rfl

end FormulaTable.Binary
