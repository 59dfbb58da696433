import FormulaTable.Calendar.Reader
import FormulaTable.Proofs.Calendar.Date
import FormulaTable.Proofs.Decimal.Digits

/-!
# The forms of a day and of an instant

An instant is tried in one form after the other, and a day alone is the last of them. No
text has two meanings for that: in each form the text begins with a day in the free form,
but only the day alone ends there.

* `readStrict?_eq_some` — the strict form is a special case of the free one, up to its
  offset.
* `parseTimestamp?_of_parseDate?` — a text that is a day is no instant in the other forms.
* `instant?_bounds`, `parseTimestamp?_bounds` — what is read lies in the calendar, so its
  count is small.
-/

namespace FormulaTable.Calendar

open Decimal (AllDigits digitsValue)

variable {least most n : Nat} {cs rest digits : List Char} {t : Int}

/-! ### Reading steps -/

/-- Digits that nothing continues are read off. -/
theorem takeNumber?_append (hdigits : AllDigits digits) (hleast : least ≤ digits.length)
    (hmost : digits.length ≤ most)
    (hrest : digits.length = most ∨ ∀ c ∈ rest.head?, c.isDigit = false) :
    takeNumber? least most (digits ++ rest) = some (digitsValue digits, rest) := by
  have hstop : (rest.take (most - digits.length)).takeWhile Char.isDigit = [] := by
    rcases hrest with hfull | hother
    · rw [hfull, Nat.sub_self, List.take_zero, List.takeWhile_nil]
    · cases rest with
      | nil => rw [List.take_nil, List.takeWhile_nil]
      | cons c rest =>
        cases most - digits.length with
        | zero => rfl
        | succ k =>
          rw [List.take_succ_cons]
          exact List.takeWhile_cons_of_neg (by simp [hother c rfl])
  have hread : ((digits ++ rest).take most).takeWhile Char.isDigit = digits := by
    rw [List.take_append, List.take_of_length_le hmost,
      List.takeWhile_append_of_pos hdigits, hstop, List.append_nil]
  unfold takeNumber?
  dsimp only
  rw [hread, if_neg (by omega), List.drop_left]

/-- A number that is taken is the value of digits in front of the text, of which there are
as many as allowed. -/
theorem takeNumber?_eq_some (h : takeNumber? least most cs = some (n, rest)) :
    ∃ digits, AllDigits digits ∧
    least ≤ digits.length ∧ digits.length ≤ most ∧ cs = digits ++ rest ∧
    digitsValue digits = n := by
  unfold takeNumber? at h
  dsimp only at h
  split_ifs at h with hleast
  obtain ⟨rfl, rfl⟩ := Prod.mk.inj (Option.some.inj h)
  have hread : (cs.take most).takeWhile Char.isDigit <+: cs.take most :=
    List.takeWhile_prefix _
  refine ⟨_, List.all_eq_true.mp List.all_takeWhile, Nat.not_lt.mp hleast, ?_, ?_, rfl⟩
  · exact hread.length_le.trans (List.length_take_le most cs)
  · exact List.prefix_iff_eq_append.mp (hread.trans (List.take_prefix most cs)) |>.symm

/-- Fewer digits would do. -/
theorem takeNumber?_mono {fewer : Nat} (hfewer : fewer ≤ least)
    (h : takeNumber? least most cs = some (n, rest)) :
    takeNumber? fewer most cs = some (n, rest) := by
  unfold takeNumber? at h ⊢
  dsimp only at h ⊢
  split_ifs at h ⊢
  · omega
  · exact h

/-- A text that starts with no blank has none to skip. -/
theorem skipBlanks_eq_self (h : ∀ c ∈ cs.head?, Text.isBlank c = false) :
    skipBlanks cs = cs := by
  cases cs with
  | nil => rfl
  | cons c rest => exact List.dropWhile_cons_of_neg (by simp [h c rfl])

/-- No blank stands before digits. -/
theorem skipBlanks_of_takeNumber? (hleast : 0 < least)
    (h : takeNumber? least most cs = some (n, rest)) :
    skipBlanks cs = cs := by
  obtain ⟨digits, hdigits, hlength, -, rfl, -⟩ := takeNumber?_eq_some h
  exact skipBlanks_eq_self
    (Decimal.head_not_blank hdigits (List.ne_nil_of_length_pos (by omega))
        (List.prefix_append _ _))

/-- A field of two digits may be taken as a number of two digits. -/
theorem takeField?_of_takeNumber? (h : takeNumber? 2 2 cs = some (n, rest)) :
    takeField? cs = some (n, rest) := by
  rw [takeField?, skipBlanks_of_takeNumber? (by decide) h]
  exact takeNumber?_mono (by decide) h

/-- A year without a sign begins with a digit. -/
theorem takeYear?_eq {c : Char} (h : c.isDigit = true) :
    takeYear? (c :: cs) = (takeNumber? 1 4 (c :: cs)).map fun (n, rest) =>
      ((n : Int), rest) := by
  have hblank : skipBlanks (c :: cs) = c :: cs :=
    skipBlanks_eq_self (by rintro _ ⟨⟩; exact Decimal.isBlank_eq_false_of_isDigit h)
  rw [takeYear?, hblank]
  split
  · next heq => exact absurd (List.cons.inj heq).1 (Decimal.ne_of_isDigit h rfl)
  · next heq => exact absurd (List.cons.inj heq).1 (Decimal.ne_of_isDigit h rfl)
  · rfl

/-- A year of four digits may be taken as a number of four digits. -/
theorem takeYear?_of_takeNumber? (h : takeNumber? 4 4 cs = some (n, rest)) :
    takeYear? cs = some ((n : Int), rest) := by
  obtain ⟨digits, hdigits, hlength, -, rfl, -⟩ := takeNumber?_eq_some h
  cases digits with
  | nil => cases hlength
  | cons c digits =>
    rw [List.cons_append] at h ⊢
    rw [takeYear?_eq (hdigits c List.mem_cons_self), takeNumber?_mono (by decide) h]
    rfl

/-! ### The strict form -/

/-- An instant in the strict form begins with a day and a time in the free form; its offset
follows. -/
theorem readStrict?_eq_some (h : readStrict? cs = some t) : ∃ d c rest clock tail offset,
    takeDate? cs = some (d, c :: rest) ∧ takeClock? rest = some (clock, tail) ∧
    takeOffset? tail = some (offset, []) ∧
    instant? d clock = some (t + offset * 1000000) := by
  obtain ⟨⟨year, cs₁⟩, hyear, h⟩ := Option.bind_eq_some_iff.mp h
  obtain ⟨cs₂, hhyphen, h⟩ := Option.bind_eq_some_iff.mp h
  obtain ⟨⟨month, cs₃⟩, hmonth, h⟩ := Option.bind_eq_some_iff.mp h
  obtain ⟨cs₄, hhyphen', h⟩ := Option.bind_eq_some_iff.mp h
  obtain ⟨⟨day, cs₅⟩, hday, h⟩ := Option.bind_eq_some_iff.mp h
  have hdate : takeDate? cs = some (⟨year, month, day⟩, cs₅) := by
    simp [takeDate?, takeYear?_of_takeNumber? hyear, hhyphen,
      takeField?_of_takeNumber? hmonth, hhyphen', takeField?_of_takeNumber? hday]
  cases cs₅ with
  | nil => cases h
  | cons c rest =>
    dsimp only at h
    split_ifs at h
    · obtain ⟨_, ⟨⟩, h⟩ := Option.bind_eq_some_iff.mp h
      obtain ⟨⟨hour, tail₁⟩, hhour, h⟩ := Option.bind_eq_some_iff.mp h
      obtain ⟨tail₂, hcolon, h⟩ := Option.bind_eq_some_iff.mp h
      obtain ⟨⟨minute, tail₃⟩, hminute, h⟩ := Option.bind_eq_some_iff.mp h
      obtain ⟨tail₄, hcolon', h⟩ := Option.bind_eq_some_iff.mp h
      obtain ⟨⟨second, tail₅⟩, hsecond, h⟩ := Option.bind_eq_some_iff.mp h
      obtain ⟨⟨micros, tail⟩, hmicros, h⟩ := Option.bind_eq_some_iff.mp h
      obtain ⟨⟨offset, stop⟩, hoffset, h⟩ := Option.bind_eq_some_iff.mp h
      have hclock : takeClock? rest = some (⟨hour, minute, second, micros⟩, tail) := by
        simp [takeClock?, takeField?_of_takeNumber? hhour, hcolon,
          takeField?_of_takeNumber? hminute, hcolon',
          takeField?_of_takeNumber? hsecond, hmicros]
      split_ifs at h with hstop
      obtain ⟨u, hinstant, hu⟩ := Option.map_eq_some_iff.mp h
      obtain rfl : stop = [] := List.isEmpty_iff.mp hstop
      exact ⟨_, c, rest, _, tail, offset, hdate, hclock, hoffset,
        by rw [hinstant, ← hu, Int.sub_add_cancel]⟩
    · cases h

/-! ### A day alone -/

/-- A text that is a day is no instant in the other forms, and stands for the midnight of
the day. -/
theorem parseTimestamp?_of_parseDate? {s : String} {day : Int}
    (h : parseDate? s = some day) :
    parseTimestamp? s = some (day * microsPerDay) := by
  obtain ⟨⟨date, tail⟩, hdate, hday⟩ := Option.bind_eq_some_iff.mp h
  dsimp only at hday
  split_ifs at hday with hend
  obtain rfl : tail = [] := List.isEmpty_iff.mp hend
  have hstrict : readStrict? (Text.trimChars s.toList) = none := by
    rw [Option.eq_none_iff_forall_ne_some]
    intro t ht
    obtain ⟨_, _, _, _, _, _, hdate', -⟩ := readStrict?_eq_some ht
    rw [hdate] at hdate'
    cases hdate'
  have hfree : readFree? (some ∘ skipBlanks) (Text.trimChars s.toList) = none := by
    rw [readFree?, hdate]
    rfl
  have hfree' : readFree? (takeChar? 'T') (Text.trimChars s.toList) = none := by
    rw [readFree?, hdate]
    rfl
  have hdate : readDate? (Text.trimChars s.toList) = some day := h
  rw [parseTimestamp?, hstrict, hfree, hfree', hdate]
  rfl

/-! ### What is read is in the calendar -/

/-- What is read as a date is the number of a day. -/
theorem readDate?_eq_some {day : Int} (h : readDate? cs = some day) : HasDay day := by
  obtain ⟨⟨date, tail⟩, -, hday⟩ := Option.bind_eq_some_iff.mp h
  dsimp only at hday
  split_ifs at hday
  exact ⟨date, Date.dayNumber?_eq_some.mp hday⟩

/-- A fraction of a second is less than a second. -/
theorem takeFraction?_lt {micros : Nat} (h : takeFraction? cs = some (micros, rest)) :
    micros < 1000000 := by
  unfold takeFraction? at h
  dsimp only at h
  split_ifs at h
  obtain ⟨rfl, -⟩ := Prod.mk.inj (Option.some.inj h)
  have hdigits : AllDigits ((cs.takeWhile Char.isDigit).take 6) := fun c hc =>
    List.all_eq_true.mp List.all_takeWhile c (List.mem_of_mem_take hc)
  have hlength : ((cs.takeWhile Char.isDigit).take 6).length ≤ 6 := List.length_take_le 6 _
  calc digitsValue ((cs.takeWhile Char.isDigit).take 6) *
         10 ^ (6 - ((cs.takeWhile Char.isDigit).take 6).length)
      < 10 ^ ((cs.takeWhile Char.isDigit).take 6).length *
          10 ^ (6 - ((cs.takeWhile Char.isDigit).take 6).length) :=
        Nat.mul_lt_mul_of_pos_right (Decimal.digitsValue_lt hdigits)
          (Nat.pow_pos (by decide))
    _ = 10 ^ 6 := by rw [← Nat.pow_add, Nat.add_sub_cancel' hlength]

/-- The fraction of a clock time is less than a second. -/
theorem takeClock?_lt {clock : Clock} (h : takeClock? cs = some (clock, rest)) :
    clock.micros < 1000000 := by
  obtain ⟨_, -, h⟩ := Option.bind_eq_some_iff.mp h
  obtain ⟨_, -, h⟩ := Option.bind_eq_some_iff.mp h
  obtain ⟨_, -, h⟩ := Option.bind_eq_some_iff.mp h
  obtain ⟨_, -, h⟩ := Option.bind_eq_some_iff.mp h
  obtain ⟨_, -, h⟩ := Option.bind_eq_some_iff.mp h
  obtain ⟨⟨micros, _⟩, hmicros, h⟩ := Option.bind_eq_some_iff.mp h
  obtain ⟨rfl, -⟩ := Prod.mk.inj (Option.some.inj h)
  unfold takeOptionalFraction? at hmicros
  split at hmicros
  · exact takeFraction?_lt hmicros
  · obtain ⟨rfl, -⟩ := Prod.mk.inj (Option.some.inj hmicros)
    exact Nat.succ_pos 999999

/-- An offset is shorter than a day. -/
theorem takeOffset?_bounds {offset : Int} (h : takeOffset? cs = some (offset, rest)) :
    -86400 < offset ∧ offset < 86400 := by
  cases cs with
  | nil => cases h
  | cons c tail =>
    unfold takeOffset? at h
    dsimp only at h
    split_ifs at h
    · obtain ⟨rfl, -⟩ := Prod.mk.inj (Option.some.inj h)
      decide
    on_goal 3 => cases h
    all_goals
      obtain ⟨_, ⟨⟩, h⟩ := Option.bind_eq_some_iff.mp h
      obtain ⟨⟨hours, _⟩, -, h⟩ := Option.bind_eq_some_iff.mp h
      obtain ⟨_, -, h⟩ := Option.bind_eq_some_iff.mp h
      obtain ⟨⟨minutes, _⟩, -, h⟩ := Option.bind_eq_some_iff.mp h
      split at h
      · cases h
      · obtain ⟨rfl, -⟩ := Prod.mk.inj (Option.some.inj h)
        split_ifs <;> omega

/-- An instant that is read belongs to a day of the calendar, a leap second aside. -/
theorem instant?_bounds {d : Date} {clock : Clock} (hmicros : clock.micros < 1000000)
    (h : instant? d clock = some t) :
    -96465292 * microsPerDay ≤ t ∧ t < 95026238 * microsPerDay := by
  unfold instant? at h
  split_ifs at h with hclock
  obtain ⟨day, hday, rfl⟩ := Option.map_eq_some_iff.mp h
  obtain ⟨hfirst, hlast⟩ := hasDay_iff_bounds.mp ⟨d, Date.dayNumber?_eq_some.mp hday⟩
  simp only [Clock.isValid, Bool.and_eq_true, decide_eq_true_eq] at hclock
  unfold Clock.sinceMidnight microsPerDay
  omega

/-- What is read in the free form lies within a day of the days of the calendar. -/
theorem readFree?_bounds {separate : List Char → Option (List Char)}
    (h : readFree? separate cs = some t) :
    -96465292 * microsPerDay ≤ t ∧ t < 95026238 * microsPerDay := by
  obtain ⟨_, -, h⟩ := Option.bind_eq_some_iff.mp h
  obtain ⟨_, -, h⟩ := Option.bind_eq_some_iff.mp h
  obtain ⟨_, hclock, h⟩ := Option.bind_eq_some_iff.mp h
  dsimp only at h
  split_ifs at h
  exact instant?_bounds (takeClock?_lt hclock) h

/-- What is read in the strict form lies within two days of the days of the calendar. -/
theorem readStrict?_bounds (h : readStrict? cs = some t) :
    -96465293 * microsPerDay ≤ t ∧ t < 95026239 * microsPerDay := by
  obtain ⟨_, _, _, _, _, _, -, hclock, hoffset, hinstant⟩ := readStrict?_eq_some h
  have hday := instant?_bounds (takeClock?_lt hclock) hinstant
  have hbound := takeOffset?_bounds hoffset
  unfold microsPerDay at hday ⊢
  omega

/-- Whatever instant a text writes, its count fits 64 bits with room to spare. -/
theorem parseTimestamp?_bounds {s : String} (h : parseTimestamp? s = some t) :
    -96465293 * microsPerDay ≤ t ∧ t < 95026239 * microsPerDay := by
  simp only [parseTimestamp?, Option.orElse_eq_some] at h
  rcases h with h | ⟨-, h | ⟨-, h | ⟨-, h⟩⟩⟩
  · exact readStrict?_bounds h
  · have := readFree?_bounds h
    unfold microsPerDay at this ⊢
    omega
  · have := readFree?_bounds h
    unfold microsPerDay at this ⊢
    omega
  · obtain ⟨day, hday, rfl⟩ := Option.map_eq_some_iff.mp h
    have := hasDay_iff_bounds.mp (readDate?_eq_some hday)
    unfold microsPerDay
    omega

end FormulaTable.Calendar
