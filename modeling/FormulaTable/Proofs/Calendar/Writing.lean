import FormulaTable.Calendar.Printer
import FormulaTable.Proofs.Calendar.Reading
import Mathlib.Data.List.TakeWhile

/-!
# Days and instants are read back

The free form reads off exactly what was written: a year with its sign and its padding, a
month, a day, a time and its fraction, whatever follows them. An instant is written without
an offset, so the strict form, which is tried first, does not take it.

* `takeDate?_write`, `takeClock?_write` — a written day and a written time are read off.
* `parseDate?_dateText`, `parseTimestamp?_timestampText` — the text of a day or an instant
  of the calendar is read back as that day or instant.
* `takeWhile_timestampText` — the text of an instant begins with the text of its day.
-/

namespace FormulaTable.Calendar

open Decimal (AllDigits digitsValue)

variable {width n : Nat} {rest : List Char} {day t : Int} {d : Date}

/-! ### Numbers of fixed width -/

/-- A padded number consists of digits. -/
theorem allDigits_padded (width n : Nat) : AllDigits (padded width n) :=
  Decimal.allDigits_append.mpr
    ⟨Decimal.allDigits_replicate_zero _, Decimal.allDigits_toDigits n⟩

/-- Padding does not change the value of a number. -/
theorem digitsValue_padded (width n : Nat) : digitsValue (padded width n) = n := by
  unfold padded
  dsimp only
  rw [Decimal.digitsValue_append, Decimal.digitsValue_replicate_zero,
    Decimal.digitsValue_toDigits, Nat.mul_zero, Nat.zero_add]

/-- A padded number has at least one digit. -/
theorem padded_ne_nil (width n : Nat) : padded width n ≠ [] :=
  List.append_ne_nil_of_right_ne_nil _ Nat.toDigits_ne_nil

/-- A number that fits into the width is padded to it. -/
theorem length_padded (hwidth : 0 < width) (h : n < 10 ^ width) :
    (padded width n).length = width := by
  have hle := (Nat.length_toDigits_le_iff (b := 10) (by decide) hwidth).mpr h
  simp only [padded, List.length_append, List.length_replicate]
  omega

/-- A field of two digits is read off. -/
theorem takeField?_padded (h : n < 100) :
    takeField? (padded 2 n ++ rest) = some (n, rest) := by
  have hdigits := allDigits_padded 2 n
  have hlength : (padded 2 n).length = 2 := length_padded (by decide) h
  rw [takeField?, skipBlanks_eq_self
    (Decimal.head_not_blank hdigits (padded_ne_nil 2 n) (List.prefix_append _ _)),
    takeNumber?_append hdigits (by omega) (by omega) (.inl hlength), digitsValue_padded]

/-- The character in front is taken. -/
theorem takeChar?_cons (c : Char) (cs : List Char) : takeChar? c (c :: cs) = some cs :=
  if_pos rfl

/-! ### Days -/

/-- The year is read off with its sign, up to the hyphen. -/
theorem takeYear?_writeYear (year : Int) :
    takeYear? (writeYear year ++ '-' :: rest) = some (year, '-' :: rest) := by
  have hdigits := allDigits_padded 4 year.natAbs
  have hnumber {most : Nat} (hmost : (padded 4 year.natAbs).length ≤ most) :
      takeNumber? 1 most (padded 4 year.natAbs ++ '-' :: rest) =
        some (year.natAbs, '-' :: rest) := by
    have hhyphen : ∀ c ∈ ('-' :: rest).head?, c.isDigit = false := by
      rintro c ⟨⟩
      rfl
    rw [takeNumber?_append hdigits (List.length_pos_iff.mpr (padded_ne_nil 4 _)) hmost
      (.inr hhyphen), digitsValue_padded]
  have hread {y : Int} (hy : y = year) : some (y, '-' :: rest) =
      some (year, '-' :: rest) := by
    rw [hy]
  unfold writeYear
  split_ifs with hnegative hshort
  · change (takeNumber? 1 _ (padded 4 year.natAbs ++ '-' :: rest)).map _ = _
    rw [hnumber (by simp), Option.map_some]
    exact hread (by omega)
  · obtain ⟨c, cs, hcs⟩ := List.exists_cons_of_ne_nil (padded_ne_nil 4 year.natAbs)
    have hc : c.isDigit = true := hdigits c (by simp [hcs])
    have hlength : (padded 4 year.natAbs).length = 4 := length_padded (by decide) (by omega)
    rw [hcs, List.cons_append, takeYear?_eq hc, ← List.cons_append, ← hcs,
      hnumber (by omega), Option.map_some]
    exact hread (by omega)
  · change (takeNumber? 1 _ (padded 4 year.natAbs ++ '-' :: rest)).map _ = _
    rw [hnumber (by simp), Option.map_some]
    exact hread (by omega)

/-- A written day is read off. -/
theorem takeDate?_write (rest : List Char) (h : d.InMonth) :
    takeDate? (d.write ++ rest) = some (d, rest) := by
  have hday := (Date.daysInMonth_le d.year d.month).2
  obtain ⟨-, hmonth, -, hin⟩ := h
  unfold takeDate? Date.write
  simp only [List.append_assoc, List.cons_append, takeYear?_writeYear, Option.bind_eq_bind,
    Option.bind_some, takeChar?_cons, takeField?_padded (show d.month < 100 by omega),
    takeField?_padded (show d.day < 100 by omega)]

/-- A written day begins with a sign or a digit. -/
theorem head_write (d : Date) (rest : List Char) :
    ∀ c ∈ (d.write ++ rest).head?, Text.isBlank c = false := by
  unfold Date.write writeYear
  simp only [List.append_assoc]
  split_ifs
  · rintro c ⟨⟩
    rfl
  · exact Decimal.head_not_blank (allDigits_padded 4 _) (padded_ne_nil 4 _)
      (List.prefix_append _ _)
  · rintro c ⟨⟩
    rfl

/-- No blank is put in front of a padded number. -/
theorem padded_ne_blank (width n : Nat) : ∀ c ∈ padded width n, c ≠ ' ' :=
  fun c hc => Decimal.ne_of_isDigit (allDigits_padded width n c hc) rfl

/-- No blank stands in a written day. -/
theorem write_ne_blank (d : Date) : ∀ c ∈ d.write, c ≠ ' ' := by
  have hyear : ∀ c ∈ writeYear d.year, c ≠ ' ' := by
    unfold writeYear
    split_ifs
    · exact List.forall_mem_cons.mpr ⟨by decide, padded_ne_blank 4 _⟩
    · exact padded_ne_blank 4 _
    · exact List.forall_mem_cons.mpr ⟨by decide, padded_ne_blank 4 _⟩
  exact List.forall_mem_append.mpr ⟨List.forall_mem_append.mpr
    ⟨hyear, List.forall_mem_cons.mpr ⟨by decide, padded_ne_blank 2 _⟩⟩,
    List.forall_mem_cons.mpr ⟨by decide, padded_ne_blank 2 _⟩⟩

/-! ### Times -/

/-- The fraction of a second is read off. -/
theorem takeFraction?_padded (hpos : 0 < width) (hwidth : width ≤ 6) (h : n < 10 ^ width) :
    takeFraction? (padded width n) = some (n * 10 ^ (6 - width), []) := by
  have hlength := length_padded hpos h
  have hall : (padded width n).takeWhile Char.isDigit = padded width n :=
    List.takeWhile_eq_self_iff.mpr (allDigits_padded width n)
  have hkept : (padded width n).take 6 = padded width n := List.take_of_length_le (by omega)
  unfold takeFraction?
  dsimp only
  rw [hall, hkept, if_neg (by simp [padded_ne_nil]), digitsValue_padded,
    List.drop_length, hlength]
  rfl

namespace TimeOfDay

variable {τ : TimeOfDay}

/-- What a clock shows at the time. -/
def clock (τ : TimeOfDay) : Clock where
  hour := τ.nanos / 1000000000 / 3600
  minute := τ.nanos / 1000000000 / 60 % 60
  second := τ.nanos / 1000000000 % 60
  micros := τ.nanos % 1000000000 / 1000

/-- The fraction that is written is taken back, if it is one of whole microseconds. -/
theorem takeOptionalFraction?_writeFraction (hmicros : τ.nanos % 1000 = 0) :
    takeOptionalFraction? τ.writeFraction = some (τ.clock.micros, []) := by
  have hfraction {width n : Nat} (hpos : 0 < width) (hwidth : width ≤ 6)
      (h : n < 10 ^ width) :
      takeOptionalFraction? ('.' :: padded width n) = some (n * 10 ^ (6 - width), []) :=
    takeFraction?_padded hpos hwidth h
  unfold writeFraction clock
  dsimp only
  split_ifs with hnone hmillis hmicro
  · rw [hnone]
    rfl
  · rw [hfraction (by decide) (by decide) (by omega)]
    congr 2
    omega
  · rw [hfraction (by decide) (by decide) (by omega)]
    congr 2
    omega
  · omega

/-- A written time is read off. -/
theorem takeClock?_write (hday : τ.nanos < 86400000000000) (hmicros : τ.nanos % 1000 = 0) :
    takeClock? τ.write = some (τ.clock, []) := by
  unfold takeClock? write writeClock
  simp only [List.append_assoc, List.cons_append]
  rw [takeField?_padded (by omega)]
  simp only [Option.bind_eq_bind, Option.bind_some, takeChar?_cons]
  rw [takeField?_padded (by omega)]
  simp only [Option.bind_some, takeChar?_cons]
  rw [takeField?_padded (by omega)]
  simp only [Option.bind_some, takeOptionalFraction?_writeFraction hmicros]
  rfl

/-- The clock time of a time of day is valid. -/
theorem isValid_clock (hday : τ.nanos < 86400000000000) : τ.clock.isValid = true := by
  have hshown : τ.clock.hour ≤ 23 ∧ τ.clock.minute ≤ 59 ∧ τ.clock.second ≤ 60 := by
    unfold clock
    dsimp only
    omega
  simp [Clock.isValid, hshown]

/-- The clock time of a time of day is the time that has passed since midnight. -/
theorem sinceMidnight_clock (hmicros : τ.nanos % 1000 = 0) :
    1000 * τ.clock.sinceMidnight = τ.nanos := by
  unfold Clock.sinceMidnight clock
  dsimp only
  omega

/-- A written time begins with a digit. -/
theorem skipBlanks_write (τ : TimeOfDay) : skipBlanks (' ' :: τ.write) = τ.write := by
  have hdrop : skipBlanks (' ' :: τ.write) = skipBlanks τ.write :=
    List.dropWhile_cons_of_pos rfl
  have hfront : padded 2 (τ.nanos / 1000000000 / 3600) <+: τ.write := by
    unfold write writeClock
    simp only [List.append_assoc]
    exact List.prefix_append _ _
  rw [hdrop, skipBlanks_eq_self
    (Decimal.head_not_blank (allDigits_padded 2 _) (padded_ne_nil 2 _) hfront)]

/-- A written time ends in a digit. -/
theorem last_write {cs : List Char} (h : τ.write <:+ cs) :
    ∀ c ∈ cs.getLast?, Text.isBlank c = false := by
  have hdigits {width n : Nat} (hend : padded width n <:+ τ.write) :
      ∀ c ∈ cs.getLast?, Text.isBlank c = false :=
    Decimal.last_not_blank (allDigits_padded width n) (padded_ne_nil width n) (hend.trans h)
  have hfraction {cs : List Char} (hpoint : τ.writeFraction = '.' :: cs) :
      cs <:+ τ.write := by
    rw [write, hpoint]
    exact (List.suffix_cons _ _).trans (List.suffix_append _ _)
  by_cases hnone : τ.writeFraction = []
  · have hseconds : padded 2 (τ.nanos / 1000000000 % 60) <:+ τ.write := by
      rw [write, hnone, List.append_nil]
      exact (List.suffix_cons _ _).trans (List.suffix_append _ _)
    exact hdigits hseconds
  · unfold writeFraction at hnone hfraction
    dsimp only at hnone hfraction
    split_ifs at hnone hfraction
    · exact absurd rfl hnone
    · exact hdigits (hfraction rfl)
    · exact hdigits (hfraction rfl)
    · exact hdigits (hfraction rfl)

end TimeOfDay

/-! ### Texts -/

/-- The time of day of an instant. -/
def timeOfInstant (micros : Int) : TimeOfDay := ⟨(1000 * micros % nanosPerDay).toNat⟩

/-- The time of an instant is what is left of it when its day is taken off, and is shorter
than a day. -/
theorem nanos_timeOfInstant (t : Int) :
    ((timeOfInstant t).nanos : Int) = 1000 * (t - dayOfInstant t * microsPerDay) ∧
    (timeOfInstant t).nanos < 86400000000000 ∧ (timeOfInstant t).nanos % 1000 = 0 := by
  unfold timeOfInstant dayOfInstant nanosPerDay microsPerDay
  dsimp only
  omega

/-- The text of a valid date is what is written for it. -/
theorem dateText_eq (h : d.IsValid) : dateText d.dayNumber = String.ofList d.write := by
  rw [dateText, ofDayNumber?_eq_some.mpr ⟨h, rfl⟩]

/-- The text of an instant is what is written for its date and its time. -/
theorem timestampText_eq (h : d.IsValid) (hday : d.dayNumber = dayOfInstant t) :
    timestampText t = String.ofList (d.write ++ ' ' :: (timeOfInstant t).write) := by
  have hnanos : 1000 * t / nanosPerDay = dayOfInstant t := by
    unfold nanosPerDay dayOfInstant
    exact Int.mul_ediv_mul_of_pos t microsPerDay (by decide)
  rw [timestampText, instantText?, hnanos, ofDayNumber?_eq_some.mpr ⟨h, hday⟩]
  rfl

/-- The text of a day of the calendar is read back as the day. -/
theorem parseDate?_dateText (h : HasDay day) : parseDate? (dateText day) = some day := by
  obtain ⟨d, hvalid, rfl⟩ := h
  have hread : takeDate? d.write = some (d, []) := by
    simpa only [List.append_nil] using takeDate?_write [] (Date.isValid_iff.mp hvalid).2
  have hhead := head_write d []
  rw [List.append_nil] at hhead
  have hlast : ∀ c ∈ d.write.getLast?, Text.isBlank c = false :=
    Decimal.last_not_blank (allDigits_padded 2 d.day) (padded_ne_nil 2 d.day)
      ((List.suffix_cons _ _).trans (List.suffix_append _ _))
  rw [dateText_eq hvalid, parseDate?, String.toList_ofList,
    Text.trimChars_eq_self hhead hlast, readDate?, hread]
  exact Date.dayNumber?_eq_some.mpr ⟨hvalid, rfl⟩

/-- The text of an instant of the calendar is read back as the instant. -/
theorem parseTimestamp?_timestampText (h : HasDay (dayOfInstant t)) :
    parseTimestamp? (timestampText t) = some t := by
  obtain ⟨d, hvalid, hday⟩ := h
  obtain ⟨hnanos, hlt, hmicros⟩ := nanos_timeOfInstant t
  have hclock := TimeOfDay.takeClock?_write hlt hmicros
  have hdate :=
    takeDate?_write (' ' :: (timeOfInstant t).write) (Date.isValid_iff.mp hvalid).2
  have hinstant : instant? d (timeOfInstant t).clock = some t := by
    have hsince := TimeOfDay.sinceMidnight_clock hmicros
    rw [instant?, if_pos (TimeOfDay.isValid_clock hlt),
      Date.dayNumber?_eq_some.mpr ⟨hvalid, hday⟩, Option.map_some]
    congr 1
    omega
  have hstrict : readStrict? (d.write ++ ' ' :: (timeOfInstant t).write) = none := by
    rw [Option.eq_none_iff_forall_ne_some]
    intro u hu
    obtain ⟨d', c, rest, clock, tail, offset, hdate', hclock', hoffset, -⟩ :=
      readStrict?_eq_some hu
    rw [hdate] at hdate'
    cases hdate'
    rw [hclock] at hclock'
    cases hclock'
    cases hoffset
  have hfree : readFree? (some ∘ skipBlanks) (d.write ++ ' ' :: (timeOfInstant t).write) =
      some t := by
    simp [readFree?, hdate, TimeOfDay.skipBlanks_write, hclock, hinstant]
  rw [timestampText_eq hvalid hday, parseTimestamp?, String.toList_ofList,
    Text.trimChars_eq_self (head_write d _)
      (TimeOfDay.last_write ((List.suffix_cons _ _).trans (List.suffix_append _ _))),
      hstrict, hfree]
  rfl

/-- The text of an instant begins with the text of its day, up to the blank. -/
theorem takeWhile_timestampText (h : HasDay (dayOfInstant t)) :
    (timestampText t).toList.takeWhile (· ≠ ' ') = (dateText (dayOfInstant t)).toList := by
  obtain ⟨d, hvalid, hday⟩ := h
  rw [timestampText_eq hvalid hday, ← hday, dateText_eq hvalid, String.toList_ofList,
    String.toList_ofList, List.takeWhile_append_of_pos (by simpa using write_ne_blank d),
    List.takeWhile_cons_of_neg (by simp), List.append_nil]

end FormulaTable.Calendar
