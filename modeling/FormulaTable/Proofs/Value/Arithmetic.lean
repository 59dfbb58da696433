import FormulaTable.Value.Operation

/-!
# Exact arithmetic

Integers, days and instants are counts, and the operators `+`, `-`, `*` and `%` on them are
those of the integers: the result is the exact one, or a failure. An overflow is reported
for a result that does not fit. It is reported in two more cases, where the result would fit
but a step on the way to it does not: the number of days by which a day is shifted has to be
a 32-bit number itself, and there is no remainder without its quotient. Nothing wraps
around, and nothing is cut off.

* `Reports` — what an operation gives for the exact result.
* `reports_exact64`, `reports_shiftDate`, `reports_modulo` — the three ways in which results
  are computed.
* `BinaryOp.arithmetic_exact` — all combinations of operands, and negation.
-/

namespace FormulaTable

/-- The count that a value stands for: a number, or the days or microseconds since
1970-01-01. -/
def Value.count? : Value → Option Int
  | .int n => some n.toInt
  | .date day => some day.toInt
  | .timestamp micros => some micros.toInt
  | _ => none

/-- The counts that a kind has values for: those of 64 bits, or of 32 bits for days. -/
def Kind.Represents : Kind → Int → Prop
  | .int64, n => -0x8000000000000000 ≤ n ∧ n < 0x8000000000000000
  | .timestamp, n => -0x8000000000000000 ≤ n ∧ n < 0x8000000000000000
  | .date, n => -0x80000000 ≤ n ∧ n < 0x80000000
  | _, _ => False

namespace BinaryOp

/-- The kind of the result of an operation on counts. -/
def countKind? : BinaryOp → Value → Value → Option Kind
  | .add, .int _, .int _ => some .int64
  | .add, .date _, .int _ => some .date
  | .add, .int _, .date _ => some .date
  | .add, .timestamp _, .int _ => some .timestamp
  | .add, .int _, .timestamp _ => some .timestamp
  | .sub, .int _, .int _ => some .int64
  | .sub, .date _, .date _ => some .int64
  | .sub, .date _, .int _ => some .date
  | .sub, .timestamp _, .timestamp _ => some .int64
  | .sub, .timestamp _, .int _ => some .timestamp
  | .mul, .int _, .int _ => some .int64
  | .mod, .int _, .int _ => some .int64
  | _, _, _ => none

/-- The exact result of an operation on integers. The remainder has the sign of the
dividend, and there is none for a zero divisor. -/
def exactResult? : BinaryOp → Int → Int → Option Int
  | .add, m, n => some (m + n)
  | .sub, m, n => some (m - n)
  | .mul, m, n => some (m * n)
  | .mod, m, n => if n = 0 then none else some (m.tmod n)
  | _, _, _ => none

/-- Does each step on the way to the result fit? A shift of a day has to be a 32-bit number,
and the quotient beside a remainder a 64-bit one. -/
def StepsFit : BinaryOp → Value → Value → Prop
  | _, .date _, .int n => -0x80000000 ≤ n.toInt ∧ n.toInt < 0x80000000
  | _, .int n, .date _ => -0x80000000 ≤ n.toInt ∧ n.toInt < 0x80000000
  | .mod, .int a, .int b => ¬ (a = Int64.minValue ∧ b = -1)
  | _, _, _ => True

end BinaryOp

/-- What an operation reports of its exact result, if there is one: the value of the kind
that stands for it, or that it does not fit, or that the divisor is zero. -/
structure Reports (op : BinaryOp) (k : Kind) (result? : Option Int) (fits : Prop)
    (r : Except RowError Value) :
    Prop where
  /-- A value is the exact result, which fits. -/
  value : ∀ v, r = .ok v ↔ ∃ n, result? = some n ∧ v.kind? = some k ∧
    v.count? = some n ∧ fits
  /-- An overflow is reported exactly if the result or a step on the way to it does not
  fit. -/
  overflow : ∀ symbol, r = .error (.overflow symbol) ↔
    symbol = op.symbol ∧ ∃ n, result? = some n ∧ (¬ k.Represents n ∨ ¬ fits)
  /-- A zero divisor is reported exactly if there is no result. -/
  divisionByZero : r = .error .divisionByZero ↔ result? = none
  /-- Nothing else is reported. -/
  only : ∀ e, r = .error e → e = .overflow op.symbol ∨ e = .divisionByZero

/-! ### Counts and values -/

/-- A value is known by its kind and its count. -/
theorem Value.eq_of_count {v w : Value} {k : Kind} {n : Int} (hv : v.kind? = some k)
    (hw : w.kind? = some k) (hvn : v.count? = some n) (hwn : w.count? = some n) :
    v = w := by
  rw [← hwn] at hvn
  cases v <;> cases hv <;> cases w <;> cases hw
  case int.refl.int.refl => rw [Int64.toInt_inj.1 (Option.some.inj hvn)]
  case date.refl.date.refl => rw [Int32.toInt_inj.1 (Option.some.inj hvn)]
  case timestamp.refl.timestamp.refl => rw [Int64.toInt_inj.1 (Option.some.inj hvn)]
  all_goals cases hwn

/-- A kind has a value for each count that it represents, and for no other one. -/
theorem Kind.represents_iff {k : Kind} {n : Int} :
    k.Represents n ↔ ∃ v : Value, v.kind? = some k ∧ v.count? = some n := by
  constructor
  · intro h
    cases k with
    | int64 =>
        exact ⟨.int (Int64.ofInt n), rfl, congrArg some (Int64.toInt_ofInt_of_le h.1 h.2)⟩
    | timestamp =>
        exact ⟨.timestamp (Int64.ofInt n), rfl,
          congrArg some (Int64.toInt_ofInt_of_le h.1 h.2)⟩
    | date =>
        exact ⟨.date (Int32.ofInt n), rfl, congrArg some (Int32.toInt_ofInt_of_le h.1 h.2)⟩
    | _ => cases h
  · rintro ⟨v, hkind, hcount⟩
    cases v with
    | int a =>
        cases hkind
        cases hcount
        exact ⟨a.le_toInt, a.toInt_lt⟩
    | timestamp a =>
        cases hkind
        cases hcount
        exact ⟨a.le_toInt, a.toInt_lt⟩
    | date d =>
        cases hkind
        cases hcount
        exact ⟨d.le_toInt, d.toInt_lt⟩
    | _ => cases hcount

/-! ### Ways to a result -/

section Results

variable {op : BinaryOp} {k : Kind} {n : Int} {fits : Prop}

/-- The exact result is reported as its value. -/
theorem reports_ok {v : Value} (hfits : fits) (hkind : v.kind? = some k)
    (hcount : v.count? = some n) :
    Reports op k (some n) fits (.ok v) where
  value w := by
    constructor
    · rintro ⟨⟩
      exact ⟨n, rfl, hkind, hcount, hfits⟩
    · rintro ⟨_, ⟨⟩, hk, hn, -⟩
      rw [Value.eq_of_count hk hkind hn hcount]
  overflow symbol := by
    refine iff_of_false nofun ?_
    rintro ⟨-, _, ⟨⟩, hnot | hnot⟩
    · exact hnot (Kind.represents_iff.2 ⟨v, hkind, hcount⟩)
    · exact hnot hfits
  divisionByZero := iff_of_false nofun nofun
  only := nofun

/-- It is reported as an overflow for one of the two reasons. -/
theorem reports_overflow (hnot : ¬ k.Represents n ∨ ¬ fits) :
    Reports op k (some n) fits (.error (.overflow op.symbol)) where
  value v := by
    refine iff_of_false nofun ?_
    rintro ⟨_, ⟨⟩, hk, hn, hfits⟩
    exact hnot.elim (fun h => h (Kind.represents_iff.2 ⟨v, hk, hn⟩)) fun h => h hfits
  overflow symbol := by
    constructor
    · rintro ⟨⟩
      exact ⟨rfl, n, rfl, hnot⟩
    · rintro ⟨rfl, -⟩
      rfl
  divisionByZero := iff_of_false nofun nofun
  only _ he := .inl (Except.error.inj he).symm

/-- Where there is no exact result, the divisor is reported. -/
theorem reports_divisionByZero : Reports op k none fits (.error .divisionByZero) where
  value _ := iff_of_false nofun fun ⟨_, hn, _⟩ => nomatch hn
  overflow _ := iff_of_false nofun fun ⟨_, _, hn, _⟩ => nomatch hn
  divisionByZero := iff_of_true rfl rfl
  only _ he := .inr (Except.error.inj he).symm

/-- The values of a kind stand for the 64-bit integers. -/
structure Wraps (wrap : Int64 → Value) (k : Kind) : Prop where
  kind : ∀ a, (wrap a).kind? = some k
  count : ∀ a, (wrap a).count? = some a.toInt
  represents : ∀ n, k.Represents n ↔ Kind.int64.Represents n

/-- An integer result wraps a number of 64 bits. -/
theorem wraps_int : Wraps .int .int64 := ⟨fun _ => rfl, fun _ => rfl, fun _ => Iff.rfl⟩

/-- An instant wraps a number of 64 bits. -/
theorem wraps_timestamp : Wraps .timestamp .timestamp :=
  ⟨fun _ => rfl, fun _ => rfl, fun _ => Iff.rfl⟩

/-- A result that is computed in one step. -/
theorem reports_exact64 {wrap : Int64 → Value} (h : Wraps wrap k) (hfits : fits) :
    Reports op k (some n) fits (Value.exact64 wrap op n) := by
  rw [Value.exact64]
  cases hn : int64? n with
  | some a =>
      exact reports_ok hfits (h.kind a)
        ((h.count a).trans (congrArg some (int64?_eq_some.1 hn)))
  | none => exact reports_overflow (.inl (mt (h.represents n).1 (int64?_eq_none.1 hn)))

/-- A day that is shifted. -/
theorem reports_shiftDate {shift : Int64} :
    Reports op .date (some n) (-0x80000000 ≤ shift.toInt ∧ shift.toInt < 0x80000000)
      (Value.shiftDate op shift n) := by
  rw [Value.shiftDate]
  cases hshift : int32? shift.toInt with
  | none => exact reports_overflow (.inr (int32?_eq_none.1 hshift))
  | some d =>
      have hfits : -0x80000000 ≤ shift.toInt ∧ shift.toInt < 0x80000000 := by
        rw [← int32?_eq_some.1 hshift]
        exact ⟨d.le_toInt, d.toInt_lt⟩
      show Reports op .date (some n) _ (Value.exactDate op n)
      rw [Value.exactDate]
      cases hn : int32? n with
      | some a => exact reports_ok hfits rfl (congrArg some (int32?_eq_some.1 hn))
      | none => exact reports_overflow (.inl (int32?_eq_none.1 hn))

end Results

/-- Only one quotient of two 64-bit integers does not fit. -/
theorem int64?_tdiv_eq_none {a b : Int64} (hb : b ≠ 0) :
    int64? (a.toInt.tdiv b.toInt) = none ↔ a = Int64.minValue ∧ b = -1 := by
  rw [int64?_eq_none]
  constructor
  · intro hnot
    have hlower : -0x8000000000000000 ≤ a.toInt := a.le_toInt
    have hupper : a.toInt < 0x8000000000000000 := a.toInt_lt
    have hb' : b.toInt ≠ 0 := fun h => hb (Int64.toInt_inj.1 h)
    by_cases hone : b.toInt = 1
    · rw [hone, Int.tdiv_one] at hnot
      exact absurd ⟨hlower, hupper⟩ hnot
    by_cases hminus : b.toInt = -1
    · rw [hminus, Int.tdiv_neg, Int.tdiv_one] at hnot
      have hmin : a.toInt = Int64.minValue.toInt := by
        rw [Int64.toInt_minValue]
        omega
      exact ⟨Int64.toInt_inj.1 hmin, Int64.toInt_inj.1 hminus⟩
    -- Any other divisor leaves at most half of the dividend.
    have hhalf : (a.toInt.tdiv b.toInt).natAbs ≤ a.toInt.natAbs / 2 := by
      rw [Int.natAbs_tdiv]
      exact Nat.div_le_div_left (by omega) Nat.two_pos
    omega
  · rintro ⟨rfl, rfl⟩
    decide

/-- A remainder. -/
theorem reports_modulo (a b : Int64) :
    Reports .mod .int64 (BinaryOp.mod.exactResult? a.toInt b.toInt)
      (¬ (a = Int64.minValue ∧ b = -1))
      (Value.modulo (.int a) (.int b)) := by
  rw [Value.modulo, BinaryOp.exactResult?]
  by_cases hb : b = 0
  · subst hb
    exact reports_divisionByZero
  · have hb' : b.toInt ≠ 0 := fun h => hb (Int64.toInt_inj.1 h)
    rw [if_neg hb, if_neg hb']
    cases hquotient : int64? (a.toInt.tdiv b.toInt) with
    | none =>
        exact reports_overflow
          (.inr fun hnot => hnot ((int64?_tdiv_eq_none hb).1 hquotient))
    | some q =>
        refine reports_exact64 wraps_int fun hmin => ?_
        rw [(int64?_tdiv_eq_none hb).2 hmin] at hquotient
        cases hquotient

namespace BinaryOp

/-- An operation on counts reports its exact result. -/
theorem reports_apply {op : BinaryOp} {left right : Value} {k : Kind}
    (h : op.countKind? left right = some k) :
    ∃ m n, left.count? = some m ∧ right.count? = some n ∧
      Reports op k (op.exactResult? m n) (op.StepsFit left right)
        (op.apply left right) := by
  unfold countKind? at h
  split at h <;> cases h
  -- A number before a day or an instant is added to it from behind.
  case h_3 n d =>
    refine ⟨_, _, rfl, rfl, ?_⟩
    show Reports add .date (some (n.toInt + d.toInt)) _
      (Value.shiftDate .add n (d.toInt + n.toInt))
    rw [Int.add_comm]
    exact reports_shiftDate
  case h_5 n t =>
    refine ⟨_, _, rfl, rfl, ?_⟩
    show Reports add .timestamp (some (n.toInt + t.toInt)) _
      (Value.exact64 .timestamp .add (t.toInt + n.toInt))
    rw [Int.add_comm]
    exact reports_exact64 wraps_timestamp trivial
  case h_2 | h_8 => exact ⟨_, _, rfl, rfl, reports_shiftDate⟩
  case h_4 | h_10 => exact ⟨_, _, rfl, rfl, reports_exact64 wraps_timestamp trivial⟩
  case h_12 a b => exact ⟨_, _, rfl, rfl, reports_modulo a b⟩
  case h_1 | h_6 | h_7 | h_9 | h_11 =>
    exact ⟨_, _, rfl, rfl, reports_exact64 wraps_int trivial⟩

/-- On other counts there is no such operation. -/
theorem apply_eq_mismatch {op : BinaryOp} {left right : Value} {m n : Int}
    (hop : op ∈ [add, sub, mul, mod]) (hleft : left.count? = some m)
    (hright : right.count? = some n) (h : op.countKind? left right = none) :
    op.apply left right = .error (Value.mismatch op left right) := by
  simp only [List.mem_cons, List.not_mem_nil, or_false] at hop
  rcases hop with rfl | rfl | rfl | rfl <;> cases left <;> cases hleft <;> cases right <;>
    cases hright <;>
    first | rfl | cases h

/-- What the arithmetic operators do with counts. -/
structure ArithmeticExact : Prop where
  /-- An operation that there is reports its exact result. -/
  binary : ∀ op left right k, countKind? op left right = some k →
    ∃ m n, left.count? = some m ∧ right.count? = some n ∧
      Reports op k (op.exactResult? m n) (op.StepsFit left right) (op.apply left right)
  /-- So does negation, which is written as subtraction is. -/
  negation : ∀ a : Int64,
    Reports sub .int64 (some (-a.toInt)) True (UnaryOp.neg.apply (.int a))
  /-- On other counts the operators do not apply. -/
  mismatch : ∀ op ∈ [add, sub, mul, mod], ∀ left right m n, left.count? = some m →
    right.count? = some n →
    countKind? op left right = none →
    op.apply left right = .error (Value.mismatch op left right)

/-- **Arithmetic on counts is exact or reported.** -/
theorem arithmetic_exact : ArithmeticExact where
  binary _ _ _ _ := reports_apply
  negation _ := reports_exact64 wraps_int trivial
  mismatch _ hop _ _ _ _ := apply_eq_mismatch hop

/-- A sum beyond the last number, the distance of the first and the last day, and the
negation of the first number. -/
theorem arithmetic_exact_extremes :
    add.apply (.int Int64.maxValue) (.int 1) = .error (.overflow "+") ∧
      sub.apply (.date Int32.minValue) (.date Int32.maxValue) = .ok (.int (-4294967295)) ∧
      UnaryOp.neg.apply (.int Int64.minValue) = .error (.overflow "-") := by
  obtain ⟨m, n, hm, hn, hsum⟩ :=
    arithmetic_exact.binary .add (.int Int64.maxValue) (.int 1) .int64 rfl
  obtain ⟨p, q, hp, hq, hdistance⟩ :=
    arithmetic_exact.binary .sub (.date Int32.minValue) (.date Int32.maxValue) .int64 rfl
  cases hm
  cases hn
  cases hp
  cases hq
  refine ⟨(hsum.overflow "+").2 ⟨rfl, _, rfl, .inl fun h => absurd h.2 (by decide)⟩,
    (hdistance.value _).2 ⟨_, rfl, rfl, rfl, trivial⟩, ?_⟩
  have hnegation := arithmetic_exact.negation Int64.minValue
  exact (hnegation.overflow "-").2 ⟨rfl, _, rfl, .inl fun h => absurd h.2 (by decide)⟩

/-- Two results that would fit are reported as overflows: the remainder of the first number
by -1, which is 0, and the last day, counted from the first one. -/
theorem representable_results_refused :
    (mod.apply (.int Int64.minValue) (.int (-1)) = .error (.overflow "%") ∧
      mod.exactResult? Int64.minValue.toInt (-1) = some 0 ∧ Kind.int64.Represents 0) ∧
    add.apply (.date Int32.minValue) (.int 4294967295) = .error (.overflow "+") ∧
      add.exactResult? Int32.minValue.toInt 4294967295 = some Int32.maxValue.toInt ∧
      Kind.date.Represents Int32.maxValue.toInt :=
  ⟨⟨rfl, rfl, by decide, by decide⟩, rfl, rfl, by decide, by decide⟩

end BinaryOp

end FormulaTable
