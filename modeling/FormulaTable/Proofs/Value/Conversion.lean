import FormulaTable.Proofs.Calendar.Writing
import FormulaTable.Value.Conversion

/-!
# Conversions to a text, a day and an instant

An integer, a truth value, a day and an instant are written as texts that convert back to
them, as long as days and instants belong to the calendar: beyond it the text is the count,
which is no day. Doubles are left out.

A text can become a day directly, or become an instant first. The two routes try the forms
of a text in different orders, and agree since no text has two meanings. On the way over the
instant nothing gets lost, since the count of every instant that a text can write fits, and
so does its day.

* `canonical_read_back` — values, days and instants are read back from their texts.
* `readDate?_eq` — the day that a text writes is the day of the instant that it writes.
* `same_day` — the day of a text, of an instant and of its midnight, and the day shown in
  the text of an instant.
-/

namespace FormulaTable

namespace Value

open Calendar (HasDay dayOfInstant microsPerDay parseDate? parseTimestamp?)

variable {v w : Value} {kind target : Kind} {s : String}

/-! ### Converting to another kind -/

/-- A value of another kind converts exactly if there is a conversion. -/
theorem convert_eq_ok (hnull : v.isNull = false) (hkind : v.kind? ≠ some target) :
    v.convert target = .ok w ↔ convert? target v = some w := by
  rw [convert, if_neg (by simp [hnull, hkind])]
  cases convert? target v <;> simp

/-- A text is converted to another kind if it can be read as a value of this kind. -/
theorem convert_text_eq_ok (htarget : target ≠ .string) :
    (text s).convert target = .ok w ↔ convert? target (text s) = some w :=
  convert_eq_ok rfl fun hkind => htarget (Option.some.inj hkind).symm

/-! ### Canonical texts -/

/-- Is this a value whose text says which value it is, once its kind is known? -/
def IsCanonical : Value → Prop
  | int _ | bool _ => True
  | date day => HasDay day.toInt
  | timestamp micros => HasDay (dayOfInstant micros.toInt)
  | null | float _ | text _ => False

/-- A canonical value is converted to its text. -/
theorem convert_toText (h : v.IsCanonical) : v.convert .string = .ok (text v.toText) := by
  cases v with
  | null | float _ | text _ => cases h
  | int _ | bool _ | date _ | timestamp _ => rfl

/-- The text of a truth value is read as it. -/
theorem readBool?_toText (b : Bool) : readBool? (bool b).toText = some b := by
  cases b <;> decide +kernel

/-- The text of a date is read as it. -/
theorem readDate?_toText {day : Int32} (h : HasDay day.toInt) :
    readDate? (date day).toText = some day := by
  rw [readDate?, toText, Calendar.parseDate?_dateText h, Option.bind_some,
    int32?_eq_some.mpr rfl]
  rfl

/-- The text of an instant is read as it. -/
theorem readTimestamp?_toText {micros : Int64} (h : HasDay (dayOfInstant micros.toInt)) :
    readTimestamp? (timestamp micros).toText = some micros := by
  rw [readTimestamp?, toText, Calendar.parseTimestamp?_timestampText h, Option.bind_some,
    int64?_eq_some.mpr rfl]

/-- The text of an integer is read as it. -/
theorem readInt64?_toText (n : Int64) :
    readInt64? (Text.trimChars (int n).toText.toList) = some n := by
  rw [readInt64?, toText, Decimal.trimChars_toString, Decimal.readInt?_toString,
    Option.bind_some, int64?_eq_some.mpr rfl]

/-- A value is read back from its text. -/
theorem convert_text_toText (h : v.IsCanonical) (hkind : v.kind? = some kind) :
    (text v.toText).convert kind = .ok v := by
  cases v with
  | null | float _ | text _ => cases h
  | int n =>
    cases hkind
    rw [convert_text_eq_ok (by decide), convert?, toInt64?, readInt64?_toText]
    rfl
  | bool b =>
    cases hkind
    rw [convert_text_eq_ok (by decide), convert?, toBool?, readBool?_toText]
    rfl
  | date day =>
    cases hkind
    rw [convert_text_eq_ok (by decide), convert?, toDate?, readDate?_toText h]
    rfl
  | timestamp micros =>
    cases hkind
    rw [convert_text_eq_ok (by decide), convert?, toTimestamp?, readTimestamp?_toText h]
    rfl

/-- Texts are read back, as values and as counts of days and microseconds. -/
structure ReadsBack : Prop where
  /-- A value is the conversion of its text to its kind. -/
  value : ∀ (v : Value) (kind : Kind), v.IsCanonical → v.kind? = some kind →
    (v.convert .string >>= (·.convert kind)) = .ok v
  /-- A day of the calendar is read back from its text. -/
  day : ∀ n, HasDay n → parseDate? (Calendar.dateText n) = some n
  /-- An instant of the calendar is read back from its text. -/
  instant : ∀ t, HasDay (dayOfInstant t) →
    parseTimestamp? (Calendar.timestampText t) = some t

/-- **Canonical texts are read back**. -/
theorem canonical_read_back : ReadsBack where
  value v kind h hkind := by
    rw [convert_toText h]
    exact convert_text_toText h hkind
  day _ := Calendar.parseDate?_dateText
  instant _ := Calendar.parseTimestamp?_timestampText

/-- The microsecond before 1970, and the last one of the calendar. -/
theorem canonical_read_back_last :
    (timestamp (-1)).toText = "1969-12-31 23:59:59.999999" ∧
      (text "1969-12-31 23:59:59.999999").convert .timestamp = .ok (timestamp (-1)) ∧
      (text "+262142-12-31 23:59:59.999999").convert .timestamp =
        .ok (timestamp 8210266876799999999) := by
  have hshown : (timestamp (-1)).toText = "1969-12-31 23:59:59.999999" := by decide +kernel
  have hshown' : (timestamp 8210266876799999999).toText =
      "+262142-12-31 23:59:59.999999" := by
    decide +kernel
  have hfirst : (timestamp (-1)).IsCanonical := Calendar.hasDay_iff_bounds.mpr (by decide)
  have hlast : (timestamp 8210266876799999999).IsCanonical :=
    Calendar.hasDay_iff_bounds.mpr (by decide)
  refine ⟨hshown, ?_, ?_⟩
  · have hback := canonical_read_back.value _ .timestamp hfirst rfl
    rw [convert_toText hfirst, hshown] at hback
    exact hback
  · have hback := canonical_read_back.value _ .timestamp hlast rfl
    rw [convert_toText hlast, hshown'] at hback
    exact hback

/-! ### A day by way of an instant -/

/-- The count of an instant that a text writes fits. -/
theorem exists_micros {t : Int} (h : parseTimestamp? s = some t) :
    ∃ micros : Int64, micros.toInt = t := by
  have hbounds := Calendar.parseTimestamp?_bounds h
  unfold microsPerDay at hbounds
  exact ⟨Int64.ofInt t, Int64.toInt_ofInt_of_le (by omega) (by omega)⟩

/-- The number of a day that a text writes fits. -/
theorem exists_days {n : Int} (h : parseDate? s = some n) :
    ∃ days : Int32, days.toInt = n := by
  have hbounds := Calendar.hasDay_iff_bounds.mp (Calendar.readDate?_eq_some h)
  exact ⟨Int32.ofInt n, Int32.toInt_ofInt_of_le (by omega) (by omega)⟩

/-- Every instant has a day that fits. -/
theorem exists_instantToDate? (t : Int64) :
    ∃ day : Int32, instantToDate? t.toInt = some day := by
  have hlow := t.le_toInt
  have hhigh := t.toInt_lt
  have hday : (Int32.ofInt (dayOfInstant t.toInt)).toInt = dayOfInstant t.toInt := by
    unfold dayOfInstant microsPerDay
    exact Int32.toInt_ofInt_of_le (by omega) (by omega)
  exact ⟨_, int32?_eq_some.mpr hday⟩

/-- The day of a midnight is the one that begins with it. -/
theorem dayOfInstant_midnight (n : Int) : dayOfInstant (n * microsPerDay) = n :=
  Int.mul_ediv_cancel n (by decide)

/-- A text writes a day exactly if it writes an instant, and then it is the day of that
instant. -/
theorem readDate?_eq (s : String) :
    readDate? s = (readTimestamp? s).bind fun t => instantToDate? t.toInt := by
  have hinstant : ((parseTimestamp? s).bind int64?).bind (fun t => instantToDate? t.toInt) =
      (parseTimestamp? s).bind instantToDate? := by
    cases ht : parseTimestamp? s with
    | none => rfl
    | some t =>
      obtain ⟨micros, rfl⟩ := exists_micros ht
      rw [Option.bind_some, int64?_eq_some.mpr rfl]
      rfl
  rw [readDate?, readTimestamp?, hinstant]
  cases hday : parseDate? s with
  | none => rfl
  | some n =>
    obtain ⟨days, rfl⟩ := exists_days hday
    rw [Calendar.parseTimestamp?_of_parseDate? hday, Option.bind_some, Option.bind_some,
      instantToDate?, dayOfInstant_midnight, int32?_eq_some.mpr rfl]
    rfl

/-- The part of a text before its first blank. -/
def beforeBlank (s : String) : String := String.ofList (s.toList.takeWhile (· ≠ ' '))

/-- The day of a text and of an instant is the same, whichever way it is found. -/
structure SameDay : Prop where
  /-- A text converts to a day exactly if it converts to an instant. -/
  succeeds_iff : ∀ s, (∃ d, (text s).convert .date = .ok d) ↔
    ∃ t, (text s).convert .timestamp = .ok t
  /-- The day of a text is the day of its instant. -/
  day_of_instant : ∀ s t, (text s).convert .timestamp = .ok t →
    (text s).convert .date = t.convert .date
  /-- A day whose midnight fits is the day of its midnight. -/
  day_of_midnight : ∀ day : Int32, -0x8000000000000000 ≤ day.toInt * microsPerDay →
    day.toInt * microsPerDay < 0x8000000000000000 →
      ∃ t : Int64, t.toInt = day.toInt * microsPerDay ∧
      (date day).convert .timestamp = .ok (timestamp t) ∧
      (timestamp t).convert .date = .ok (date day)
  /-- The text of an instant of the calendar begins with the text of its day. -/
  day_text : ∀ t : Int64, HasDay (dayOfInstant t.toInt) →
    ∃ d shown, (timestamp t).convert .date = .ok d ∧
    (timestamp t).convert .string = .ok (text shown) ∧
    d.convert .string = .ok (text (beforeBlank shown))

/-- A text is converted to an instant if it can be read as one. -/
theorem convert_text_timestamp :
    (text s).convert .timestamp = .ok w ↔
      ∃ t, readTimestamp? s = some t ∧ timestamp t = w := by
  rw [convert_text_eq_ok (by decide)]
  exact Option.map_eq_some_iff

/-- A text is converted to a date if it can be read as one. -/
theorem convert_text_date :
    (text s).convert .date = .ok w ↔ ∃ d, readDate? s = some d ∧ date d = w := by
  rw [convert_text_eq_ok (by decide)]
  exact Option.map_eq_some_iff

/-- An instant is converted to its day. -/
theorem convert_timestamp_date {t : Int64} {day : Int32}
    (h : instantToDate? t.toInt = some day) :
    (timestamp t).convert .date = .ok (date day) := by
  rw [convert_eq_ok rfl (by simp [kind?]), convert?, toDate?, h]
  rfl

/-- The way over the instant is the direct way. -/
theorem convert_date_of_timestamp {t : Value} (h : (text s).convert .timestamp = .ok t) :
    ∃ day, (text s).convert .date = .ok (date day) ∧ t.convert .date = .ok (date day) := by
  obtain ⟨micros, hmicros, rfl⟩ := convert_text_timestamp.mp h
  obtain ⟨day, hday⟩ := exists_instantToDate? micros
  refine ⟨day, convert_text_date.mpr ⟨day, ?_, rfl⟩, convert_timestamp_date hday⟩
  rw [readDate?_eq, hmicros, Option.bind_some, hday]

/-- **The day is the same by every route**. -/
theorem same_day : SameDay where
  succeeds_iff s := by
    constructor
    · rintro ⟨_, hdate⟩
      obtain ⟨day, hday, -⟩ := convert_text_date.mp hdate
      rw [readDate?_eq] at hday
      obtain ⟨micros, hmicros, -⟩ := Option.bind_eq_some_iff.mp hday
      exact ⟨_, convert_text_timestamp.mpr ⟨micros, hmicros, rfl⟩⟩
    · rintro ⟨t, ht⟩
      obtain ⟨day, hday, -⟩ := convert_date_of_timestamp ht
      exact ⟨_, hday⟩
  day_of_instant s t ht := by
    obtain ⟨day, hday, hday'⟩ := convert_date_of_timestamp ht
    rw [hday, hday']
  day_of_midnight day hlow hhigh := by
    have hmidnight : (dateToInstant day).toInt = day.toInt * microsPerDay :=
      Int64.toInt_ofInt_of_le hlow hhigh
    refine ⟨dateToInstant day, hmidnight, rfl, convert_timestamp_date ?_⟩
    rw [hmidnight, instantToDate?, dayOfInstant_midnight, int32?_eq_some.mpr rfl]
  day_text t h := by
    obtain ⟨day, hday⟩ := exists_instantToDate? t
    have hdays : day.toInt = dayOfInstant t.toInt := int32?_eq_some.mp hday
    have hshown : beforeBlank (timestamp t).toText = (date day).toText := by
      rw [beforeBlank, toText, toText, Calendar.takeWhile_timestampText h,
        String.ofList_toList, hdays]
    refine ⟨date day, (timestamp t).toText, convert_timestamp_date hday, rfl, ?_⟩
    rw [hshown]
    rfl

/-- A leap second is the first one of the next day by every route; the last microsecond
before 1970 is shown on the last day before 1970. -/
theorem same_day_leap_second :
    (text "2016-12-31T23:59:60Z").convert .timestamp = .ok (timestamp 1483228800000000) ∧
      (text "2016-12-31T23:59:60Z").convert .date =
      (timestamp 1483228800000000).convert .date ∧
      HasDay (dayOfInstant (-1)) ∧ ∃ d, (timestamp (-1)).convert .date = .ok d ∧
        d.convert .string = .ok (text "1969-12-31") := by
  have hinstant : (text "2016-12-31T23:59:60Z").convert .timestamp =
      .ok (timestamp 1483228800000000) :=
    convert_text_timestamp.mpr ⟨_, by decide +kernel, rfl⟩
  have hday : HasDay (dayOfInstant (-1)) := Calendar.hasDay_iff_bounds.mpr (by decide)
  obtain ⟨d, shown, hdate, hshown, htext⟩ := same_day.day_text (-1) hday
  have hfront : beforeBlank (timestamp (-1)).toText = "1969-12-31" := by decide +kernel
  cases hshown
  exact ⟨hinstant, same_day.day_of_instant _ _ hinstant, hday, d, hdate, hfront ▸ htext⟩

end Value

end FormulaTable
