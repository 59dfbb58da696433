import FormulaTable.Calendar.Date
import Mathlib.Algebra.Order.Ring.Int
import Mathlib.Tactic.SplitIfs

/-!
# Counting days

Every day has one date, and every date of the calendar one day. Both ways of counting take
years that begin in March, so that a leap day is the last day of its year. From a date to
its day there is a sum; from a day to its date there is a formula for the year, which never
goes back, so it is enough that it is right on the first and on the last day of each of the
400 years of an era.

* `firstDay_yearOfDay`, `yearOfDay_eq` — in which year a day is.
* `Date.dayNumber_ofDayNumber`, `Date.ofDayNumber_dayNumber` — the two ways of counting undo
  each other.
* `hasDay_iff`, `hasDay_iff_bounds` — the days of the calendar are those with a date, and
  follow each other without a gap.
-/

namespace FormulaTable.Calendar

/-! ### Years that begin in March -/

/-- The first day of the year that begins in March. -/
def firstDay (year : Int) : Int := 365 * year + year / 4 - year / 100 + year / 400 - 719468

/-- The last day of a year that begins in March, counted from 0: the leap day is that of the
following year. -/
def lastDayOfYear (year : Int) : Nat := if isLeapYear (year + 1) then 365 else 364

/-- The year of an era in which a day of the era is. -/
def yearOfEra (dayOfEra : Int) : Int :=
  (dayOfEra - dayOfEra / 1460 + dayOfEra / 36524 - dayOfEra / 146096) / 365

/-- The year, from March on, in which a day is. -/
def yearOfDay (n : Int) : Int :=
  yearOfEra ((n + 719468) % 146097) + (n + 719468) / 146097 * 400

section Years

variable {y z n d e : Int}

/-- Leap years are those divisible by four, but of the centuries only those divisible by
400. -/
theorem isLeapYear_iff : isLeapYear y = true ↔ y % 4 = 0 ∧ (y % 100 ≠ 0 ∨ y % 400 = 0) := by
  simp [isLeapYear]

/-- A year begins one day after the last day of the year before it. -/
theorem firstDay_succ : firstDay (y + 1) = firstDay y + lastDayOfYear y + 1 := by
  unfold firstDay lastDayOfYear
  split_ifs with h <;> rw [isLeapYear_iff] at h <;> omega

/-- Later years begin later. -/
theorem firstDay_mono (h : y ≤ z) : firstDay y ≤ firstDay z := by
  unfold firstDay
  omega

/-- The formula for the year never goes back: its numerator grows by 1 from each day to the
next, or stays. -/
theorem yearOfEra_mono (h : d ≤ e) : yearOfEra d ≤ yearOfEra e := by
  have hstep (m : Int) : m - m / 1460 + m / 36524 - m / 146096 ≤
      m + 1 - (m + 1) / 1460 + (m + 1) / 36524 - (m + 1) / 146096 := by omega
  have hmono (k : Nat) : d - d / 1460 + d / 36524 - d / 146096 ≤
      d + k - (d + k) / 1460 + (d + k) / 36524 - (d + k) / 146096 := by
    induction k with
    | zero => simp
    | succ k ih =>
      rw [Nat.cast_succ, ← add_assoc]
      exact ih.trans (hstep (d + k))
  obtain ⟨k, rfl⟩ := Int.le.dest h
  exact Int.ediv_le_ediv (by omega) (hmono k)

/-- The formula for the year is right on the first and the last day of each year of an
era. -/
theorem yearOfEra_ends (h₀ : 0 ≤ y) (h₁ : y < 400) : yearOfEra (firstDay y + 719468) = y ∧
    yearOfEra (firstDay y + 719468 + lastDayOfYear y) = y := by
  have hall : ∀ y : Fin 400, yearOfEra (firstDay y + 719468) = y ∧
      yearOfEra (firstDay y + 719468 + lastDayOfYear y) = y := by
    decide +kernel
  have h := hall ⟨y.toNat, by omega⟩
  rwa [show ((y.toNat : Nat) : Int) = y by omega] at h

/-- A day before the beginning of a year belongs to an earlier year of the era. -/
theorem yearOfEra_lt (h₀ : 0 < y) (h₁ : y < 400) (h : d < firstDay y + 719468) :
    yearOfEra d < y := by
  have hprev := (yearOfEra_ends (y := y - 1) (by omega) (by omega)).2
  have hsucc := firstDay_succ (y := y - 1)
  rw [Int.sub_add_cancel] at hsucc
  have hle :=
    yearOfEra_mono (show d ≤ firstDay (y - 1) + 719468 + lastDayOfYear (y - 1) by omega)
  omega

/-- A day after the beginning of a year belongs to this year of the era or a later one. -/
theorem le_yearOfEra (h₀ : 0 ≤ y) (h₁ : y < 400) (h : firstDay y + 719468 ≤ d) :
    y ≤ yearOfEra d := by
  have hle := yearOfEra_mono h
  rwa [(yearOfEra_ends h₀ h₁).1] at hle

/-- The days of an era belong to its 400 years. -/
theorem yearOfEra_bounds (h₀ : 0 ≤ d) (h₁ : d < 146097) :
    0 ≤ yearOfEra d ∧ yearOfEra d ≤ 399 :=
  ⟨yearOfEra_mono h₀, yearOfEra_mono (show d ≤ 146096 by omega)⟩

/-- A day of an era is one of the days of its year. -/
theorem yearOfEra_spec (h₀ : 0 ≤ d) (h₁ : d < 146097) :
    firstDay (yearOfEra d) + 719468 ≤ d ∧ d < firstDay (yearOfEra d + 1) + 719468 := by
  obtain ⟨hfirst, hlast⟩ := yearOfEra_bounds h₀ h₁
  constructor
  · by_contra hbefore
    rcases hfirst.eq_or_lt with hzero | hpos
    · rw [← hzero, show firstDay 0 = -719468 from rfl] at hbefore
      omega
    · have := yearOfEra_lt hpos (by omega) (Int.not_le.mp hbefore)
      omega
  · by_contra hafter
    rcases hlast.eq_or_lt with hend | hlt
    · rw [hend, show firstDay (399 + 1) = -573371 from rfl] at hafter
      omega
    · have := le_yearOfEra (by omega) (by omega) (Int.not_lt.mp hafter)
      omega

/-- All eras have the same length. -/
theorem firstDay_add_era (era : Int) :
    firstDay (y + era * 400) = firstDay y + era * 146097 := by
  unfold firstDay
  omega

/-- A day is one of the days of its year. -/
theorem firstDay_yearOfDay (n : Int) :
    firstDay (yearOfDay n) ≤ n ∧ n < firstDay (yearOfDay n + 1) := by
  have hspec := yearOfEra_spec (d := (n + 719468) % 146097) (by omega) (by omega)
  rw [yearOfDay, Int.add_right_comm, firstDay_add_era, firstDay_add_era]
  omega

/-- No other year has the day. -/
theorem yearOfDay_eq (h₀ : firstDay y ≤ n) (h₁ : n < firstDay (y + 1)) :
    yearOfDay n = y := by
  obtain ⟨hle, hlt⟩ := firstDay_yearOfDay n
  by_contra hne
  rcases lt_or_gt_of_ne hne with hbefore | hafter
  · have := firstDay_mono (show yearOfDay n + 1 ≤ y by omega)
    omega
  · have := firstDay_mono (show y + 1 ≤ yearOfDay n by omega)
    omega

end Years

/-! ### Months and days of a year -/

/-- The date of a day of a year that begins in March, counted from 0. -/
def ofMarch (year : Int) (dayOfYear : Nat) : Date :=
  let monthFromMarch := (5 * dayOfYear + 2) / 153
  let month := if monthFromMarch < 10 then monthFromMarch + 3 else monthFromMarch - 9
  ⟨if month ≤ 2 then year + 1 else year, month,
    dayOfYear - Date.daysBeforeMonth monthFromMarch + 1⟩

namespace Date

variable {d : Date} {n year : Int} {dayOfYear : Nat}

/-- Is this a day of its month, whatever its year? -/
def InMonth (d : Date) : Prop :=
  1 ≤ d.month ∧ d.month ≤ 12 ∧ 1 ≤ d.day ∧ d.day ≤ daysInMonth d.year d.month

/-- The year that begins in March and contains the date. -/
def marchYear (d : Date) : Int := if d.month ≤ 2 then d.year - 1 else d.year

/-- The day of that year. -/
def marchDay (d : Date) : Nat := daysBeforeMonth ((d.month + 9) % 12) + d.day - 1

/-- A day is numbered by the first day of its year, counted from March, and its place in the
year. -/
theorem dayNumber_eq (d : Date) : d.dayNumber = firstDay d.marchYear + d.marchDay := by
  unfold dayNumber marchYear marchDay firstDay
  dsimp only
  omega

/-- A date is found by its year and its place in the year. -/
theorem ofDayNumber_eq (n : Int) :
    ofDayNumber n = ofMarch (yearOfDay n) (n - firstDay (yearOfDay n)).toNat := by
  have hyear := yearOfEra_bounds (d := (n + 719468) % 146097) (by omega) (by omega)
  have h : n - firstDay (yearOfDay n) = (n + 719468) % 146097 -
      (365 * yearOfEra ((n + 719468) % 146097) + yearOfEra ((n + 719468) % 146097) / 4 -
        yearOfEra ((n + 719468) % 146097) / 100) := by
    rw [yearOfDay, firstDay_add_era]
    unfold firstDay
    omega
  rw [h]
  rfl

instance (d : Date) : Decidable d.InMonth := by
  unfold InMonth
  infer_instance

/-- The dates of a leap year that begins in March; 365 is the leap day. -/
theorem ofMarch_leap : ∀ n < 366, (ofMarch (-1) n).InMonth ∧ (ofMarch (-1) n).marchDay = n ∧
    ((ofMarch (-1) n).month = 2 → (ofMarch (-1) n).day ≤ 28 ∨ n = 365) := by
  decide +kernel

/-- In a leap year a date is found at its day; 29 February is the last one. -/
theorem marchDay_leap : ∀ month < 13, ∀ day < 32, (mk 0 month day).InMonth →
    ofMarch (mk 0 month day).marchYear (mk 0 month day).marchDay = mk 0 month day ∧
    (mk 0 month day).marchDay ≤ (if month = 2 ∧ day = 29 then 365 else 364) := by
  decide +kernel

/-- The length of a month other than February does not depend on the year. -/
theorem daysInMonth_of_ne (year : Int) {month : Nat} (h : month ≠ 2) :
    daysInMonth year month = daysInMonth 0 month := by
  simp [daysInMonth, h]

/-- February has 29 days in leap years. -/
theorem daysInMonth_february : daysInMonth year 2 = if isLeapYear year then 29 else 28 :=
  rfl

/-- A year has 365 or 366 days. -/
theorem lastDayOfYear_bounds (year : Int) :
    364 ≤ lastDayOfYear year ∧ lastDayOfYear year ≤ 365 := by
  unfold lastDayOfYear
  split_ifs <;> decide

/-- A year that is counted from March ends with February 29 if the next year is a leap
year. -/
theorem lastDayOfYear_eq_iff : lastDayOfYear year = 365 ↔ isLeapYear (year + 1) = true := by
  simp [lastDayOfYear]

/-- No month is longer than in a leap year. -/
theorem daysInMonth_le (year : Int) (month : Nat) :
    daysInMonth year month ≤ daysInMonth 0 month ∧ daysInMonth year month ≤ 31 := by
  by_cases hfeb : month = 2
  · subst hfeb
    rw [daysInMonth_february, daysInMonth_february]
    split_ifs <;> simp_all [isLeapYear]
  · rw [daysInMonth_of_ne year hfeb]
    unfold daysInMonth
    split_ifs <;> omega

/-- The days of a year that begins in March have the dates of that year. -/
theorem ofMarch_spec (h : dayOfYear ≤ lastDayOfYear year) :
    (ofMarch year dayOfYear).InMonth ∧
    (ofMarch year dayOfYear).marchYear = year ∧
    (ofMarch year dayOfYear).marchDay = dayOfYear := by
  have hlt : dayOfYear < 366 := Nat.lt_succ_of_le (h.trans (lastDayOfYear_bounds year).2)
  obtain ⟨⟨hlow, hhigh, hone, hin⟩, hday, hfeb⟩ := ofMarch_leap dayOfYear hlt
  refine ⟨⟨hlow, hhigh, hone, ?_⟩, ?_, hday⟩
  · by_cases hmonth : (ofMarch year dayOfYear).month = 2
    · have hyear : (ofMarch year dayOfYear).year = year + 1 := if_pos hmonth.le
      rw [hmonth, hyear, daysInMonth_february]
      rcases hfeb hmonth with hshort | rfl
      · change (ofMarch (-1) dayOfYear).day ≤ _
        split_ifs <;> omega
      · rw [if_pos
          (lastDayOfYear_eq_iff.mp (Nat.le_antisymm (lastDayOfYear_bounds year).2 h))]
        exact Nat.le_refl 29
    · rw [daysInMonth_of_ne _ hmonth,
        ← daysInMonth_of_ne (ofMarch (-1) dayOfYear).year hmonth]
      exact hin
  · unfold marchYear ofMarch
    dsimp only
    split_ifs <;> omega

/-- A date is found at its day of its year. -/
theorem ofMarch_marchDay (h : d.InMonth) : ofMarch d.marchYear d.marchDay = d ∧
    d.marchDay ≤ lastDayOfYear d.marchYear := by
  obtain ⟨year, month, day⟩ := d
  obtain ⟨hlow, hhigh, hone, hin⟩ := h
  dsimp only at hlow hhigh hone hin
  obtain ⟨hleap, hmax⟩ := daysInMonth_le year month
  obtain ⟨hdate, hle⟩ :=
    marchDay_leap month (by omega) day (by omega) ⟨hlow, hhigh, hone, hin.trans hleap⟩
  constructor
  · -- Month and day do not depend on the year, so they are those of the leap year.
    have hmonth : (ofMarch (mk year month day).marchYear
          (mk year month day).marchDay).month = month :=
      congrArg Date.month hdate
    have hday : (ofMarch (mk year month day).marchYear (mk year month day).marchDay).day =
        day :=
      congrArg Date.day hdate
    have hyear : (ofMarch (mk year month day).marchYear (mk year month day).marchDay).year =
        year := by
      change (if (ofMarch (mk year month day).marchYear
          (mk year month day).marchDay).month ≤ 2 then _ else _) = year
      rw [hmonth]
      unfold marchYear
      dsimp only
      split_ifs <;> omega
    exact (Date.mk.injEq ..).mpr ⟨hyear, hmonth, hday⟩
  · split_ifs at hle with hfeb
    · obtain ⟨rfl, rfl⟩ := hfeb
      have hyear : isLeapYear (year - 1 + 1) = true := by
        rw [sub_add_cancel]
        by_contra hcommon
        rw [daysInMonth_february, if_neg hcommon] at hin
        omega
      exact hle.trans (lastDayOfYear_eq_iff.mpr hyear).ge
    · exact hle.trans (lastDayOfYear_bounds _).1

/-- From a day to its date and back. -/
theorem dayNumber_ofDayNumber (n : Int) :
    (ofDayNumber n).dayNumber = n ∧ (ofDayNumber n).InMonth := by
  obtain ⟨hle, hlt⟩ := firstDay_yearOfDay n
  rw [firstDay_succ] at hlt
  obtain ⟨hmonth, hyear, hday⟩ :=
    ofMarch_spec
      (show (n - firstDay (yearOfDay n)).toNat ≤ lastDayOfYear (yearOfDay n) by omega)
  rw [dayNumber_eq, ofDayNumber_eq, hyear, hday]
  exact ⟨by omega, hmonth⟩

/-- From a date to its day and back. -/
theorem ofDayNumber_dayNumber (h : d.InMonth) : ofDayNumber d.dayNumber = d := by
  obtain ⟨hdate, hday⟩ := ofMarch_marchDay h
  have hyear : yearOfDay d.dayNumber = d.marchYear := by
    rw [dayNumber_eq]
    exact yearOfDay_eq (by omega) (by rw [firstDay_succ]; omega)
  rw [ofDayNumber_eq, hyear, dayNumber_eq, add_sub_cancel_left, Int.toNat_natCast, hdate]

/-- January and February are the end of a year that begins in March. -/
theorem marchDay_lt_iff (h : d.InMonth) : d.marchDay < 306 ↔ 2 < d.month := by
  obtain ⟨hlow, hhigh, hone, hin⟩ := h
  have hmax := (daysInMonth_le d.year d.month).2
  unfold marchDay daysBeforeMonth
  omega

/-- Years come in the order of their days. -/
theorem le_year_iff (year : Int) (h : d.InMonth) :
    year ≤ d.year ↔ firstDay (year - 1) + 306 ≤ d.dayNumber := by
  have hmonth := marchDay_lt_iff h
  have hday := (ofMarch_marchDay h).2
  have hnext := firstDay_succ (y := d.marchYear)
  rw [dayNumber_eq]
  constructor
  · intro hle
    by_cases hlate : 2 < d.month
    · have hmarch : d.marchYear = d.year := if_neg (by omega)
      have := firstDay_mono (show year - 1 + 1 ≤ d.marchYear by omega)
      have := firstDay_succ (y := year - 1)
      have := lastDayOfYear_bounds (year - 1)
      omega
    · have hmarch : d.marchYear = d.year - 1 := if_pos (by omega)
      have := firstDay_mono (show year - 1 ≤ d.marchYear by omega)
      omega
  · intro hle
    by_contra hlt
    by_cases hlate : 2 < d.month
    · have hmarch : d.marchYear = d.year := if_neg (by omega)
      have := firstDay_mono (show d.marchYear ≤ year - 1 by omega)
      omega
    · have hmarch : d.marchYear = d.year - 1 := if_pos (by omega)
      have := firstDay_mono (show d.marchYear + 1 ≤ year - 1 by omega)
      omega

/-- A date is valid if its year is in range and its month has its day. -/
theorem isValid_iff : d.IsValid ↔ (firstYear ≤ d.year ∧ d.year ≤ lastYear) ∧ d.InMonth :=
  and_assoc.symm

/-- A date has a day number exactly if it is valid. -/
theorem dayNumber?_eq_some : d.dayNumber? = some n ↔ d.IsValid ∧ d.dayNumber = n := by
  simp [dayNumber?]

end Date

/-! ### The days of the calendar -/

/-- Does the calendar have the day? -/
def HasDay (n : Int) : Prop := ∃ d : Date, d.IsValid ∧ d.dayNumber = n

section Days

variable {n : Int} {d : Date}

/-- A day number has a date exactly if it is the number of a valid one, and then it has this
one. -/
theorem ofDayNumber?_eq_some :
    Date.ofDayNumber? n = some d ↔ d.IsValid ∧ d.dayNumber = n := by
  obtain ⟨hn, hmonth⟩ := Date.dayNumber_ofDayNumber n
  unfold Date.ofDayNumber?
  dsimp only
  constructor
  · intro h
    split_ifs at h with hyear
    obtain rfl := Option.some.inj h
    exact ⟨Date.isValid_iff.mpr ⟨hyear, hmonth⟩, hn⟩
  · rintro ⟨hvalid, rfl⟩
    obtain ⟨hyear, hin⟩ := Date.isValid_iff.mp hvalid
    rw [Date.ofDayNumber_dayNumber hin, if_pos hyear]

/-- The days of the calendar are those with a date. -/
theorem hasDay_iff : HasDay n ↔ ∃ d, Date.ofDayNumber? n = some d := by
  simp only [HasDay, ofDayNumber?_eq_some]

/-- The calendar is an interval of days. -/
theorem hasDay_iff_bounds : HasDay n ↔ -96465292 ≤ n ∧ n ≤ 95026236 := by
  obtain ⟨hn, hmonth⟩ := Date.dayNumber_ofDayNumber n
  have hfirst := Date.le_year_iff firstYear hmonth
  have hlast := Date.le_year_iff (lastYear + 1) hmonth
  rw [hn, show firstDay (firstYear - 1) = -96465598 from rfl] at hfirst
  rw [hn, show firstDay (lastYear + 1 - 1) = 95025931 from rfl] at hlast
  have hyear : HasDay n ↔
      firstYear ≤ (Date.ofDayNumber n).year ∧ (Date.ofDayNumber n).year ≤ lastYear := by
    rw [hasDay_iff]
    unfold Date.ofDayNumber?
    dsimp only
    split_ifs with h <;> simp [h]
  rw [hyear, hfirst]
  omega

end Days

end FormulaTable.Calendar
