import FormulaTable.Proofs.Binary.Double
import FormulaTable.Series.Element

/-!
# Reading stored elements

What is read from a column depends on what its elements denote, and not on how they are
stored. The value that is read denotes the stored quantity: numbers, truth values and texts
are unchanged, milliseconds of a day become the day, and instants the microsecond that
contains them. Where the kind has no such value, the element is refused.

Some instants stray. Seconds and milliseconds that are too far from 1970 are read as the
first or the last instant, and nanoseconds before 1970 that are no whole microsecond are
read as the microsecond after.

* `ElementType.read?_eq` — reading, by what the elements denote.
* `Element.denotes_iff`, `Element.not_denotes_of_value?_eq_none` — what is read, and what is
  refused.
* `Element.Strays.value?` — what is read instead.
* `Element.compare?_eq`, `Element.compare?_eq_or_eq` — values are in the order of what is
  stored.
* `Series.readsExactly` — reading the rows of a column.
-/

namespace FormulaTable

/-- The value denotes what an element stores: the same number, truth value or text, the day
that contains the millisecond, or the microsecond that contains the instant. -/
def Value.Denotes : Value → Element → Prop
  | .int a, .integer n => a.toInt = n
  | .float x, .half bits => (Binary.parts x).Same (Binary.half.decode bits.toNat)
  | .float x, .single bits => (Binary.parts x).Same (Binary.single.decode bits.toNat)
  | .float x, .double y => x = y
  | .bool a, .truth b => a = b
  | .text s, .text t => s = t
  | .date day, .day n => day = n
  | .date day, .dayMillis n =>
      day.toInt * ElementType.millisPerDay ≤ n.toInt ∧
        n.toInt < (day.toInt + 1) * ElementType.millisPerDay
  | .timestamp micros, .instant unit _ n =>
      micros.toInt * unit.perSecond ≤ n.toInt * 1000000 ∧
        n.toInt * 1000000 < (micros.toInt + 1) * unit.perSecond
  | _, _ => False

namespace Element

/-- The value that is read from an element. -/
def value? : Element → Option Value
  | integer n => (int64? n).map .int
  | half bits => some (.float (Binary.ofHalf bits))
  | single bits => some (.float (Binary.ofSingle bits))
  | double x => some (.float x)
  | truth b => some (.bool b)
  | text s => some (.text s)
  | day n => some (.date n)
  | dayMillis n => (int32? (n.toInt / ElementType.millisPerDay)).map .date
  | instant unit _ n => some (.timestamp (ElementType.toMicros unit n))
  | bytes _ => none
  | clock _ => none
  | duration _ => none

/-- The kind of the values that are read from such an element. -/
def kind? : Element → Option Kind
  | integer _ => some .int64
  | half _ => some .float64
  | single _ => some .float64
  | double _ => some .float64
  | truth _ => some .bool
  | text _ => some .string
  | day _ => some .date
  | dayMillis _ => some .date
  | instant _ _ _ => some .timestamp
  | bytes _ => none
  | clock _ => none
  | duration _ => none

/-- The elements that are misread: instants that are more than 64 bits of microseconds from
1970, and those before 1970 that are between two microseconds. -/
def Strays : Element → Prop
  | instant .second _ n => int64? (n.toInt * 1000000) = none
  | instant .millisecond _ n => int64? (n.toInt * 1000) = none
  | instant .nanosecond _ n => n.toInt < 0 ∧ n.toInt % 1000 ≠ 0
  | _ => False

/-- Are the quantities stored in smaller steps than the values for them? -/
def IsFine : Element → Prop
  | dayMillis _ => True
  | instant unit _ _ => unit = .nanosecond
  | _ => False

/-- The order of two stored quantities of one sort. -/
def order? : Element → Element → Option Ordering
  | integer m, integer n => some (compare m n)
  | truth a, truth b => some (compare a b)
  | text s, text t => some (compare s t)
  | day m, day n => some (compare m.toInt n.toInt)
  | dayMillis m, dayMillis n => some (compare m.toInt n.toInt)
  | instant unit _ m, instant unit' _ n =>
    some (compare (m.toInt * unit'.perSecond) (n.toInt * unit.perSecond))
  | e, e' => do (← e.number?).order? (← e'.number?)

end Element

/-- Elements of one sort; instants also have the same unit. -/
inductive Element.Alike : Element → Element → Prop
  | integer (m n : Int) : Alike (.integer m) (.integer n)
  | half (a b : UInt16) : Alike (.half a) (.half b)
  | single (a b : UInt32) : Alike (.single a) (.single b)
  | double (x y : Float) : Alike (.double x) (.double y)
  | truth (a b : Bool) : Alike (.truth a) (.truth b)
  | text (s t : String) : Alike (.text s) (.text t)
  | day (m n : Int32) : Alike (.day m) (.day n)
  | dayMillis (m n : Int64) : Alike (.dayMillis m) (.dayMillis n)
  | instant (unit : TimeUnit) (zone : Option String) (m n : Int64) :
      Alike (.instant unit zone m) (.instant unit zone n)

section Types

variable {t : ElementType} {k : Kind}

/-- **What is read** depends on what the element denotes. -/
theorem ElementType.read?_eq (hkind : t.kind? = some k) (x : t.Carrier) :
    t.read? x = (t.element x).value? := by
  have hsigned {n : Int} (hlow : -0x8000000000000000 ≤ n) (hhigh : n < 0x8000000000000000) :
      some (Value.int (Int64.ofInt n)) = (int64? n).map .int := by
    rw [int64?, if_pos ⟨hlow, hhigh⟩, Option.map_some]
  have hunsigned {n : Nat} (hhigh : n < 0x8000000000000000) :
      some (Value.int (Int64.ofInt n)) = (int64? n).map .int :=
        hsigned (by omega) (by omega)
  have hwide (n : Int64) : some (Value.int n) = (int64? n.toInt).map .int := by
    rw [int64?_eq_some.2 rfl, Option.map_some]
  cases t with
  | int8 =>
      exact hsigned (by have := Int8.le_toInt x; omega) (by have := Int8.toInt_lt x; omega)
  | int16 =>
      exact hsigned (by have := Int16.le_toInt x; omega)
        (by have := Int16.toInt_lt x; omega)
  | int32 =>
      exact hsigned (by have := Int32.le_toInt x; omega)
        (by have := Int32.toInt_lt x; omega)
  | int64 => exact hwide x
  | uint8 => exact hunsigned (by have := UInt8.toNat_lt x; omega)
  | uint16 => exact hunsigned (by have := UInt16.toNat_lt x; omega)
  | uint32 => exact hunsigned (by have := UInt32.toNat_lt x; omega)
  | null | utf8View | binary | time32 | duration => cases hkind
  | _ => rfl

/-- The value of an element has the kind of its type. -/
theorem ElementType.kind?_element (hkind : t.kind? = some k) (x : t.Carrier) :
    (t.element x).kind? = some k := by
  cases t <;> first | exact hkind | cases hkind

/-- The elements of a type are alike. -/
theorem ElementType.alike (hkind : t.kind? = some k) (x y : t.Carrier) :
    (t.element x).Alike (t.element y) := by
  cases t <;> first | constructor | cases hkind

end Types

section Instants

open ElementType

variable {unit : TimeUnit} {zone : Option String} {m n : Int64}

/-- A saturated number is the nearest one of 64 bits. -/
theorem toInt_saturate64 (n : Int) :
    (saturate64 n).toInt = max (-0x8000000000000000) (min n 0x7fffffffffffffff) := by
  rw [saturate64]
  split
  · rw [Int64.toInt_minValue]
    omega
  split
  · rw [Int64.toInt_maxValue]
    omega
  · rw [Int64.toInt_ofInt_of_le (by omega) (by omega)]
    omega

/-- What does not fit becomes the first or the last instant. -/
theorem saturate64_of_none {n : Int} (h : int64? n = none) :
    saturate64 n = Int64.minValue ∨ saturate64 n = Int64.maxValue := by
  have hout := int64?_eq_none.1 h
  rw [saturate64]
  split
  · exact .inl rfl
  · exact .inr (if_pos (by omega))

/-- The microsecond that an instant is read as. -/
theorem toInt_toMicros (unit : TimeUnit) (n : Int64) : (toMicros unit n).toInt =
    match unit with
    | .second => max (-0x8000000000000000) (min (n.toInt * 1000000) 0x7fffffffffffffff)
    | .millisecond => max (-0x8000000000000000) (min (n.toInt * 1000) 0x7fffffffffffffff)
    | .microsecond => n.toInt
    | .nanosecond => if 0 ≤ n.toInt ∨ n.toInt % 1000 = 0 then n.toInt / 1000
        else n.toInt / 1000 + 1 := by
  cases unit with
  | second => exact toInt_saturate64 _
  | millisecond => exact toInt_saturate64 _
  | microsecond => rfl
  | nanosecond =>
      have hcut : n.toInt.tdiv 1000 = if 0 ≤ n.toInt ∨ n.toInt % 1000 = 0 then
          n.toInt / 1000
          else n.toInt / 1000 + 1 := by
        simp only [Int.tdiv_eq_ediv, Int.dvd_iff_emod_eq_zero]
        split
        · exact Int.add_zero _
        · rfl
      have := n.le_toInt
      have := n.toInt_lt
      simp only [toMicros]
      rw [hcut, Int64.toInt_ofInt_of_le] <;> split <;> omega

/-- Instants are denoted by the microsecond that contains them. -/
theorem denotes_instant {micros : Int64} :
    (Value.timestamp micros).Denotes (.instant unit zone n) ↔
      micros.toInt = n.toInt * 1000000 / unit.perSecond := by
  cases unit <;> simp only [Value.Denotes, TimeUnit.perSecond] <;> omega

/-- Exactly the instants that stray are not read as the microsecond that contains them. -/
theorem denotes_toMicros :
    (Value.timestamp (toMicros unit n)).Denotes (.instant unit zone n) ↔
      ¬ (Element.instant unit zone n).Strays := by
  rw [denotes_instant, toInt_toMicros]
  cases unit <;> simp only [Element.Strays, int64?_eq_none, TimeUnit.perSecond,
    not_false_iff, iff_true]
  · omega
  · omega
  · omega
  · split <;> omega

/-- Conversion to microseconds keeps the order of instants. -/
theorem toMicros_le (h : m.toInt ≤ n.toInt) :
    (toMicros unit m).toInt ≤ (toMicros unit n).toInt := by
  rw [toInt_toMicros, toInt_toMicros]
  cases unit
  · dsimp only; omega
  · dsimp only; omega
  · exact h
  · dsimp only
    split <;> split <;> omega

/-- Conversion to microseconds keeps instants apart, unless they are in nanoseconds or both
out of range. -/
theorem toMicros_lt (h : m.toInt < n.toInt) (hunit : unit ≠ .nanosecond)
    (hstay : ¬ ((Element.instant unit zone m).Strays ∧
        (Element.instant unit zone n).Strays)) :
    (toMicros unit m).toInt < (toMicros unit n).toInt := by
  rw [toInt_toMicros, toInt_toMicros]
  cases unit
  all_goals simp only [Element.Strays, int64?_eq_none] at hstay
  · dsimp only; omega
  · dsimp only; omega
  · exact h
  · exact absurd rfl hunit

/-- Instants that are converted to the same microseconds are the same, with the same
exceptions. -/
theorem toMicros_injective (hunit : unit ≠ .nanosecond)
    (hstay : ¬ ((Element.instant unit zone m).Strays ∧
        (Element.instant unit zone n).Strays))
    (h : toMicros unit m = toMicros unit n) : m = n := by
  rcases lt_trichotomy m.toInt n.toInt with hlt | heq | hgt
  · have := toMicros_lt hlt hunit hstay
    rw [h] at this
    omega
  · exact Int64.toInt_inj.1 heq
  · have := toMicros_lt hgt hunit fun hboth => hstay hboth.symm
    rw [h] at this
    omega

/-- An instant that does not stray stays on its day. -/
theorem dayOfInstant_toMicros (hstay : ¬ (Element.instant unit zone n).Strays) :
    Calendar.dayOfInstant (toMicros unit n).toInt = n.toInt / (86400 * unit.perSecond) := by
  rw [denotes_instant.1 (denotes_toMicros.2 hstay), Calendar.dayOfInstant,
    Calendar.microsPerDay]
  cases unit <;> simp only [TimeUnit.perSecond] <;> omega

end Instants

namespace Element

variable {e e' : Element} {v v' : Value}

/-- The value of an element has the kind of the element. -/
theorem kind?_of_value? (h : e.value? = some v) : v.kind? = e.kind? := by
  cases e <;> simp only [value?, Option.map_eq_some_iff, Option.some.injEq, reduceCtorEq]
    at h
  case integer | dayMillis =>
    obtain ⟨n, -, rfl⟩ := h
    rfl
  all_goals
    subst h
    rfl

/-- A date stands for the milliseconds of its day. -/
theorem denotes_dayMillis {d : Int32} {n : Int64} : (Value.date d).Denotes (.dayMillis n) ↔
    d.toInt = n.toInt / ElementType.millisPerDay := by
  simp only [Value.Denotes, ElementType.millisPerDay]
  omega

/-- **What is read** denotes what is stored, exactly unless the element strays. -/
theorem denotes_iff (h : e.value? = some v) : v.Denotes e ↔ ¬ e.Strays := by
  cases e <;> simp only [value?, Option.map_eq_some_iff, Option.some.injEq, reduceCtorEq]
    at h
  case integer n =>
    obtain ⟨a, ha, rfl⟩ := h
    exact iff_of_true (int64?_eq_some.1 ha) id
  case dayMillis n =>
    obtain ⟨d, hd, rfl⟩ := h
    exact iff_of_true (denotes_dayMillis.2 (int32?_eq_some.1 hd)) id
  all_goals subst h
  case half bits => exact iff_of_true (Binary.same_ofHalf bits) id
  case single bits => exact iff_of_true (Binary.same_ofSingle bits) id
  case instant unit zone n => exact denotes_toMicros
  all_goals exact iff_of_true rfl id

/-- **An element is refused** only if no value denotes it. -/
theorem not_denotes_of_value?_eq_none (h : e.value? = none) : ¬ v.Denotes e := by
  intro hdenotes
  cases e <;> cases v <;> simp only [Value.Denotes] at hdenotes <;>
    simp only [value?, Option.map_eq_none_iff, reduceCtorEq] at h
  case integer.int n a =>
    rw [int64?_eq_some.2 hdenotes] at h
    cases h
  case dayMillis.date n d =>
    rw [int32?_eq_some.2 (denotes_dayMillis.1 hdenotes)] at h
    cases h

/-- An instant that does not fit into 64 bits of microseconds is no value. -/
theorem not_denotes_instant {unit : TimeUnit} {zone : Option String} {n : Int64}
    (h : int64? (n.toInt * 1000000 / unit.perSecond) = none) :
    ¬ v.Denotes (.instant unit zone n) := by
  intro hdenotes
  cases v with
  | timestamp micros =>
      rw [← denotes_instant.1 hdenotes, int64?_eq_some.2 rfl] at h
      cases h
  | _ => exact hdenotes.elim

/-- **What strays** is read all the same: as the first or the last instant, where no value
denotes the element, or as the microsecond after the one that does. -/
theorem Strays.value? (h : e.Strays) : ∃ micros, e.value? = some (.timestamp micros) ∧
    ((∀ v, ¬ Value.Denotes v e) ∧ (micros = Int64.minValue ∨ micros = Int64.maxValue) ∨
      ∃ w : Int64, (Value.timestamp w).Denotes e ∧ micros.toInt = w.toInt + 1) := by
  cases e with
  | instant unit zone n =>
      refine ⟨_, rfl, ?_⟩
      cases unit with
      | second =>
          have hnone : int64? (n.toInt * 1000000 / TimeUnit.second.perSecond) = none := by
            rwa [TimeUnit.perSecond, Int.ediv_one]
          exact .inl ⟨fun v => not_denotes_instant hnone, saturate64_of_none h⟩
      | millisecond =>
          have hnone : int64?
              (n.toInt * 1000000 / TimeUnit.millisecond.perSecond) = none := by
            have hexact : n.toInt * 1000000 / 1000 = n.toInt * 1000 := by omega
            rwa [TimeUnit.perSecond, hexact]
          exact .inl ⟨fun v => not_denotes_instant hnone, saturate64_of_none h⟩
      | microsecond => exact h.elim
      | nanosecond =>
          obtain ⟨hbefore, hbetween⟩ := h
          have hlow := n.le_toInt
          have hmicros : (Int64.ofInt (n.toInt / 1000)).toInt = n.toInt / 1000 :=
            Int64.toInt_ofInt_of_le (by omega) (by omega)
          refine .inr ⟨Int64.ofInt (n.toInt / 1000), denotes_instant.2 ?_, ?_⟩
          · rw [hmicros, TimeUnit.perSecond]
            omega
          · rw [hmicros, toInt_toMicros]
            exact if_neg (by omega)
  | _ => exact h.elim

section Order

/-- A monotone step keeps the order of two counts, or makes them equal. -/
theorem compare_eq_or_eq {a b c d : Int} (hle : a ≤ b → c ≤ d) (hge : b ≤ a → d ≤ c) :
    compare c d = compare a b ∨ compare c d = .eq := by
  simp only [compare, compareOfLessAndEq]
  grind

/-- What keeps two integers in order and apart keeps the result of comparing them. -/
theorem compare_eq_compare {a b c d : Int} (hlt : a < b → c < d) (heq : a = b → c = d)
    (hgt : b < a → d < c) :
    compare c d = compare a b := by
  rcases lt_trichotomy a b with h | h | h
  · rw [compare_lt_iff_lt.2 h, compare_lt_iff_lt.2 (hlt h)]
  · rw [compare_eq_iff_eq.2 h, compare_eq_iff_eq.2 (heq h)]
  · rw [compare_gt_iff_gt.2 h, compare_gt_iff_gt.2 (hgt h)]

/-- Instants of one unit are ordered by their numbers. -/
theorem order?_instant {unit : TimeUnit} {zone : Option String} {m n : Int64} :
    (instant unit zone m).order? (instant unit zone n) =
      some (compare m.toInt n.toInt) := by
  refine congrArg some ?_
  cases unit <;> apply compare_eq_compare <;> simp only [TimeUnit.perSecond] <;> omega

/-- Doubles are compared as the numbers that they stand for. -/
theorem compareFloats?_of_same {x y : Float} {a b : Binary.Number}
    (hx : (Binary.parts x).Same a) (hy : (Binary.parts y).Same b) :
    Value.compareFloats? x y = a.order? b := by
  rw [Binary.compareFloats?_eq, Binary.Number.order?, Binary.Number.order?, hx.1, hy.1]

/-- **Values** are in the order of what is stored, unless a kind is coarser than its
elements or two instants stray. -/
theorem compare?_eq (halike : e.Alike e') (hcoarse : ¬ e.IsFine)
    (hstay : ¬ (e.Strays ∧ e'.Strays)) (h : e.value? = some v) (h' : e'.value? = some v') :
    v.compare? v' = e.order? e' := by
  cases halike <;> simp only [Element.value?, Option.map_eq_some_iff, Option.some.injEq]
    at h h'
  case integer m n =>
    obtain ⟨a, ha, rfl⟩ := h
    obtain ⟨b, hb, rfl⟩ := h'
    rw [Value.compare?, int64?_eq_some.1 ha, int64?_eq_some.1 hb, order?]
  case dayMillis => exact absurd trivial hcoarse
  all_goals subst h h'
  case half a b =>
    exact compareFloats?_of_same (Binary.same_ofHalf a) (Binary.same_ofHalf b)
  case single a b =>
    exact compareFloats?_of_same (Binary.same_ofSingle a) (Binary.same_ofSingle b)
  case double x y => exact Binary.compareFloats?_eq x y
  case instant unit zone m n =>
    rw [order?_instant, Value.compare?]
    have hstay' : ¬ ((instant unit zone n).Strays ∧ (instant unit zone m).Strays) :=
      fun h => hstay h.symm
    refine congrArg some
        (compare_eq_compare (fun h => toMicros_lt h hcoarse hstay) (fun h => ?_) fun h =>
      toMicros_lt h hcoarse hstay')
    rw [Int64.toInt_inj.1 h]
  all_goals rfl

/-- **Values** are never in the opposite order: they are in that of what is stored, or
equal. -/
theorem compare?_eq_or_eq (halike : e.Alike e') (h : e.value? = some v)
    (h' : e'.value? = some v') :
    v.compare? v' = e.order? e' ∨ (e.order? e').isSome ∧ v.compare? v' = some .eq := by
  cases halike
  case dayMillis m n =>
    obtain ⟨a, ha, rfl⟩ := Option.map_eq_some_iff.1 h
    obtain ⟨b, hb, rfl⟩ := Option.map_eq_some_iff.1 h'
    rw [Value.compare?, int32?_eq_some.1 ha, int32?_eq_some.1 hb, order?]
    have hcompare := compare_eq_or_eq
      (Int.ediv_le_ediv (a := m.toInt) (b := n.toInt) (c := 86400000) (by decide))
      (Int.ediv_le_ediv (by decide))
    exact hcompare.imp (congrArg some) fun heq => ⟨rfl, congrArg some heq⟩
  case instant unit zone m n =>
    obtain rfl := Option.some.inj h
    obtain rfl := Option.some.inj h'
    rw [Value.compare?, order?_instant]
    have hcompare := compare_eq_or_eq (@toMicros_le unit m n) (@toMicros_le unit n m)
    exact hcompare.imp (congrArg some) fun heq => ⟨rfl, congrArg some heq⟩
  all_goals exact .inl (compare?_eq (by constructor) id And.left h h')

end Order

end Element

namespace Series

/-- The element is stored in the row. -/
def Stores (s : Series) (row : Nat) (e : Element) : Prop := s.elements[row]? = some (some e)

/-- **How the elements of a column are read.** -/
structure ReadsExactly (s : Series) (k : Kind) : Prop where
  /-- A missing element is read as null. -/
  missing {row} : s.elements[row]? = some none → s.value? row = some .null
  /-- A value that is read is of the kind of the column. -/
  typed {row e v} : s.Stores row e → s.value? row = some v → v.kind? = some k
  /-- It denotes what is stored, exactly unless the element strays. -/
  denotes_iff {row e v} : s.Stores row e → s.value? row = some v →
    (v.Denotes e ↔ ¬ e.Strays)
  /-- An element is refused only if no value denotes it. -/
  refused {row e} : s.Stores row e → s.value? row = none → ∀ v, ¬ Value.Denotes v e
  /-- An instant that does not stray is read as one on the same day. -/
  sameDay {row unit zone n} : s.Stores row (.instant unit zone n) →
    ¬ (Element.instant unit zone n).Strays →
    ∃ micros, s.value? row = some (.timestamp micros) ∧
      Calendar.dayOfInstant micros.toInt = n.toInt / (86400 * unit.perSecond)
  /-- An element that strays is read as the first or the last instant, where no value
  denotes it, or as the microsecond after the one that does. -/
  strays {row e} : s.Stores row e → e.Strays →
    ∃ micros, s.value? row = some (.timestamp micros) ∧
    ((∀ v, ¬ Value.Denotes v e) ∧ (micros = Int64.minValue ∨ micros = Int64.maxValue) ∨
      ∃ w : Int64, (Value.timestamp w).Denotes e ∧ micros.toInt = w.toInt + 1)
  /-- Values are in the order of what is stored, or equal. -/
  ordered {row row' e e' v v'} : s.Stores row e → s.Stores row' e' → s.value? row = some v →
    s.value? row' = some v' → v.compare? v' = e.order? e' ∨ (e.order? e').isSome ∧
    v.compare? v' = some .eq
  /-- They are equal only for equal quantities, unless the kind is coarser than its elements
  or both stray. -/
  strict {row row' e e' v v'} : s.Stores row e → s.Stores row' e' → ¬ e.IsFine →
    ¬ (e.Strays ∧ e'.Strays) →
    s.value? row = some v → s.value? row' = some v' → v.compare? v' = e.order? e'
  /-- Different seconds, milliseconds or microseconds are read as different instants, unless
  both stray. -/
  distinct {row row' unit zone m n} : s.Stores row (.instant unit zone m) →
    s.Stores row' (.instant unit zone n) →
    unit ≠ .nanosecond →
    ¬ ((Element.instant unit zone m).Strays ∧ (Element.instant unit zone n).Strays) →
    s.value? row = s.value? row' → m = n

section Rows

variable {s : Series} {k : Kind} {row : Nat} {e : Element}

/-- The elements of a series are its cells. -/
theorem getElem?_elements :
    s.elements[row]? = s.cells[row]?.map fun cell => cell.map s.type.element := by
  rw [elements, List.getElem?_map, Array.getElem?_toList]

/-- A row is read by the element that it stores. -/
theorem Stores.value?_eq (h : s.Stores row e) (hkind : s.type.kind? = some k) :
    ∃ x, s.type.element x = e ∧ s.value? row = e.value? := by
  rw [Stores, getElem?_elements, Option.map_eq_some_iff] at h
  obtain ⟨cell, hcell, h⟩ := h
  obtain ⟨x, rfl, hx⟩ := Option.map_eq_some_iff.1 h
  refine ⟨x, hx, ?_⟩
  rw [Series.value?, if_pos (ElementType.isReadable_of_kind? hkind), hcell, ← hx]
  exact ElementType.read?_eq hkind x

/-- A missing element of a readable series is read as null. -/
theorem value?_missing (h : s.elements[row]? = some none) (hkind : s.type.kind? = some k) :
    s.value? row = some .null := by
  rw [getElem?_elements, Option.map_eq_some_iff] at h
  obtain ⟨cell, hcell, h⟩ := h
  rw [Option.map_eq_none_iff.1 h] at hcell
  rw [Series.value?, if_pos (ElementType.isReadable_of_kind? hkind), hcell]

end Rows

/-- **Every column of a readable type** is read exactly. -/
theorem readsExactly {s : Series} {k : Kind} (hkind : s.type.kind? = some k) :
    s.ReadsExactly k where
  missing h := value?_missing h hkind
  typed hstored hread := by
    obtain ⟨x, rfl, hvalue⟩ := hstored.value?_eq hkind
    rw [Element.kind?_of_value? (hvalue ▸ hread), ElementType.kind?_element hkind]
  denotes_iff hstored hread := by
    obtain ⟨x, -, hvalue⟩ := hstored.value?_eq hkind
    exact Element.denotes_iff (hvalue ▸ hread)
  refused hstored hread := by
    obtain ⟨x, -, hvalue⟩ := hstored.value?_eq hkind
    exact fun v => Element.not_denotes_of_value?_eq_none (hvalue ▸ hread)
  sameDay {row unit zone n} hstored hstay := by
    obtain ⟨x, -, hvalue⟩ := hstored.value?_eq hkind
    exact ⟨_, hvalue, dayOfInstant_toMicros hstay⟩
  strays hstored hstray := by
    obtain ⟨x, -, hvalue⟩ := hstored.value?_eq hkind
    rw [hvalue]
    exact hstray.value?
  ordered hstored hstored' hread hread' := by
    obtain ⟨x, rfl, hvalue⟩ := hstored.value?_eq hkind
    obtain ⟨y, rfl, hvalue'⟩ := hstored'.value?_eq hkind
    exact Element.compare?_eq_or_eq (ElementType.alike hkind x y) (hvalue ▸ hread)
      (hvalue' ▸ hread')
  strict hstored hstored' hcoarse hstay hread hread' := by
    obtain ⟨x, rfl, hvalue⟩ := hstored.value?_eq hkind
    obtain ⟨y, rfl, hvalue'⟩ := hstored'.value?_eq hkind
    exact Element.compare?_eq (ElementType.alike hkind x y) hcoarse hstay (hvalue ▸ hread)
      (hvalue' ▸ hread')
  distinct hstored hstored' hunit hstay hsame := by
    obtain ⟨x, -, hvalue⟩ := hstored.value?_eq hkind
    obtain ⟨y, -, hvalue'⟩ := hstored'.value?_eq hkind
    rw [hvalue, hvalue'] at hsame
    exact toMicros_injective hunit hstay (Value.timestamp.inj (Option.some.inj hsame))

/-- Milliseconds around the start of 1970, read as days. -/
def daysAround1970 : Series :=
  ⟨.date64, #[some (-1 : Int64), none, some (86399999 : Int64), some Int64.maxValue]⟩

/-- Days before and after the epoch, with a null between them, are read exactly. -/
theorem readsExactly_days :
    daysAround1970.type.kind? = some .date ∧ daysAround1970.ReadsExactly .date ∧
    daysAround1970.value? 0 = some (.date (-1)) ∧ daysAround1970.value? 1 = some .null ∧
    daysAround1970.value? 2 = some (.date 0) ∧ daysAround1970.value? 3 = none :=
  ⟨rfl, readsExactly rfl, rfl, rfl, rfl, rfl⟩

/-- The last nanosecond before 1970. -/
def beforeEpoch : Series := ⟨.timestamp .nanosecond none, #[some (-1 : Int64)]⟩

/-- The last seconds that 64 bits can count. -/
def farFuture : Series :=
  ⟨.timestamp .second none, #[some Int64.maxValue, some (Int64.maxValue - 1)]⟩

/-- **Instants are misread**: the last nanosecond before 1970 is read as the start of 1970,
though its microsecond is the one before, and different seconds that are too far away as the
same instant, though no value denotes them. -/
theorem instants_misread :
    beforeEpoch.value? 0 = some (.timestamp 0) ∧
    (Value.timestamp (-1)).Denotes (.instant .nanosecond none (-1)) ∧
    ¬ (Value.timestamp 0).Denotes (.instant .nanosecond none (-1)) ∧
    farFuture.value? 0 = some (.timestamp Int64.maxValue) ∧
    farFuture.value? 1 = some (.timestamp Int64.maxValue) ∧
    (∀ v, ¬ Value.Denotes v (.instant .second none Int64.maxValue)) := by
  refine ⟨rfl, ?_, ?_, rfl, rfl, ?_⟩
  · exact denotes_instant.2 (by decide)
  · exact mt denotes_instant.1 (by decide)
  · exact fun v => Element.not_denotes_instant (int64?_eq_none.2 (by decide))

end Series

end FormulaTable
