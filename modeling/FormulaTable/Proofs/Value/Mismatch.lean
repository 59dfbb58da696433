import FormulaTable.Proofs.Value.Order
import FormulaTable.Proofs.Value.Identity

/-!
# Type errors of the operators

An infix operator takes operands of some kinds and refuses the others, with null for any
kind where it makes the result null. What it refuses is a table over the kinds. Two things
keep a type error from being about kinds alone: the ordering operators refuse a NaN,
although they take doubles, and a logical operator names its operands in the wrong order if
it refuses the right one.

* `BinaryOp.takes`, `BinaryOp.accepts` — the table.
* `Value.Verdict` — an operator either goes on or reports one particular fault.
* `BinaryOp.verdict_apply` — every operator does so by the table.
* `BinaryOp.typeErrors` — when a type error is reported, and which kinds it names.
-/

namespace FormulaTable

/-! ### The table -/

namespace Kind

/-- Is it a kind of numbers? -/
def isNumber : Kind → Bool
  | int64 | float64 => true
  | _ => false

/-- Is it a kind of days or instants? -/
def isTime : Kind → Bool
  | date | timestamp => true
  | _ => false

end Kind

namespace BinaryOp

/-- Does an operator take operands of these kinds? -/
def takes : BinaryOp → Kind → Kind → Bool
  | add, k, l =>
    k.isNumber && l.isNumber || k = .string || l = .string || k.isTime && l = .int64 ||
      k = .int64 && l.isTime
  | sub, k, l => k.isNumber && l.isNumber || k.isTime && (l = k || l = .int64)
  | mul, k, l | div, k, l | mod, k, l => k.isNumber && l.isNumber
  | lt, k, l | le, k, l | gt, k, l | ge, k, l => k.isNumber && l.isNumber || k = l
  | and, k, l | or, k, l => k = .bool && l = .bool
  | eq, _, _ | ne, _, _ | coalesce, _, _ => true

/-- Does it compare by order? -/
def isOrdering : BinaryOp → Bool
  | lt | le | gt | ge => true
  | _ => false

/-- Is it an operator of three-valued logic? -/
def isLogical : BinaryOp → Bool
  | and | or => true
  | _ => false

/-- Does an operator take operands of these kinds, where null has none? A logical operator
looks at the other operand even so. -/
def accepts (op : BinaryOp) : Option Kind → Option Kind → Bool
  | some k, some l => op.takes k l
  | some k, none | none, some k => !op.isLogical || k = .bool
  | none, none => true

/-- A logical operator that takes its left operand names the operands in the wrong order,
should it refuse the right one. -/
def turns (op : BinaryOp) (left : Option Kind) : Bool :=
  op.isLogical && left.all (· = .bool)

end BinaryOp

namespace Value

/-- Is a NaN compared with something? -/
def unordered (left right : Value) : Bool :=
  (left.isNaN || right.isNaN) && !(left.isNull || right.isNull)

/-- The type error of an operator. -/
def fault (op : BinaryOp) (left right : Value) : RowError :=
  if op.turns left.kind? then mismatch op right left else mismatch op left right

/-! ### Going on or giving up -/

/-- No type error: a value, or a failure of arithmetic. -/
inductive Proceeds (op : BinaryOp) : Except RowError Value → Prop
  | value (v : Value) : Proceeds op (.ok v)
  | divisionByZero : Proceeds op (.error .divisionByZero)
  | overflow : Proceeds op (.error (.overflow op.symbol))

/-- The result of an operator that accepts its operands or reports a fault. -/
inductive Verdict (op : BinaryOp) (fault : RowError) : Bool → Except RowError Value → Prop
  | accepted {r : Except RowError Value} (h : Proceeds op r) : Verdict op fault true r
  | refused : Verdict op fault false (.error fault)

section Steps

variable {op : BinaryOp} {left right : Value}

/-- A number of 64 bits is a value, or overflows. -/
theorem proceeds_exact64 (wrap : Int64 → Value) (op : BinaryOp) (n : Int) :
    Proceeds op (exact64 wrap op n) := by
  rw [exact64]
  split
  · exact .value _
  · exact .overflow

/-- A shifted date is a value, or overflows. -/
theorem proceeds_shiftDate (op : BinaryOp) (shift : Int64) (n : Int) :
    Proceeds op (shiftDate op shift n) := by
  rw [shiftDate, exactDate]
  split
  · split
    · exact .value _
    · exact .overflow
  · exact .overflow

/-- A remainder of integers is a value, or overflows, or is one of a division by zero. -/
theorem proceeds_modulo (a b : Int64) : Proceeds .mod (modulo (int a) (int b)) := by
  rw [modulo]
  split
  · exact .divisionByZero
  · split
    · exact proceeds_exact64 _ _ _
    · exact .overflow

/-- A quotient of doubles is a value, or one of a division by zero. -/
theorem proceeds_quotient (op : BinaryOp) (b x : Float) :
    Proceeds op (if b == 0.0 then .error .divisionByZero else .ok (float x)) := by
  split
  · exact .divisionByZero
  · exact .value _

end Steps

/-! ### The operators -/

section Operators

variable {op : BinaryOp} (left right : Value)

/-- Numbers are the values that have a double. -/
theorem isSome_number? (v : Value) : v.number?.isSome = v.kind?.any Kind.isNumber := by
  cases v <;> rfl

/-- What is computed from two doubles refuses all operands that are not numbers. -/
theorem verdict_numbers (f : Float × Float → Except RowError Value)
    (hf : ∀ a b, Proceeds op (f (a, b))) :
    Verdict op (mismatch op left right)
      (left.kind?.any Kind.isNumber && right.kind?.any Kind.isNumber)
      (numbers op left right >>= f) := by
  rw [numbers, ← isSome_number?, ← isSome_number?]
  cases left.number? with
  | none => exact .refused
  | some a =>
      cases right.number? with
      | none => exact .refused
      | some b => exact .accepted (hf a b)

/-- A sum is refused by its table. Beside numbers it takes texts with anything, and times
with integers. -/
theorem verdict_add :
    Verdict .add (mismatch .add left right) (BinaryOp.accepts .add left.kind? right.kind?)
      (add left right) := by
  cases left with
  | null | text _ => cases right <;> exact .accepted (.value _)
  | int n =>
      cases right with
      | null | text _ => exact .accepted (.value _)
      | int _ | timestamp _ => exact .accepted (proceeds_exact64 _ _ _)
      | date _ => exact .accepted (proceeds_shiftDate _ _ _)
      | float _ | bool _ => exact verdict_numbers _ _ _ fun _ _ => .value _
  | float _ | bool _ =>
      cases right with
      | null | text _ => exact .accepted (.value _)
      | int _ | float _ | bool _ | date _ | timestamp _ =>
          exact verdict_numbers _ _ _ fun _ _ => .value _
  | date d =>
      cases right with
      | null | text _ => exact .accepted (.value _)
      | int _ => exact .accepted (proceeds_shiftDate _ _ _)
      | float _ | bool _ | date _ | timestamp _ =>
          exact verdict_numbers _ _ _ fun _ _ => .value _
  | timestamp t =>
      cases right with
      | null | text _ => exact .accepted (.value _)
      | int _ => exact .accepted (proceeds_exact64 _ _ _)
      | float _ | bool _ | date _ | timestamp _ =>
          exact verdict_numbers _ _ _ fun _ _ => .value _

/-- A difference is refused by its table. Beside numbers it takes two times of one kind, and
a time on the left of an integer. -/
theorem verdict_subtract :
    Verdict .sub (mismatch .sub left right) (BinaryOp.accepts .sub left.kind? right.kind?)
      (subtract left right) := by
  cases left with
  | null => cases right <;> exact .accepted (.value _)
  | int n =>
      cases right with
      | null => exact .accepted (.value _)
      | int _ => exact .accepted (proceeds_exact64 _ _ _)
      | float _ | bool _ | text _ | date _ | timestamp _ =>
          exact verdict_numbers _ _ _ fun _ _ => .value _
  | float _ | bool _ | text _ =>
      cases right with
      | null => exact .accepted (.value _)
      | int _ | float _ | bool _ | text _ | date _ | timestamp _ =>
          exact verdict_numbers _ _ _ fun _ _ => .value _
  | date d =>
      cases right with
      | null => exact .accepted (.value _)
      | int _ => exact .accepted (proceeds_shiftDate _ _ _)
      | date _ => exact .accepted (proceeds_exact64 _ _ _)
      | float _ | bool _ | text _ | timestamp _ =>
          exact verdict_numbers _ _ _ fun _ _ => .value _
  | timestamp t =>
      cases right with
      | null => exact .accepted (.value _)
      | int _ | timestamp _ => exact .accepted (proceeds_exact64 _ _ _)
      | float _ | bool _ | text _ | date _ =>
          exact verdict_numbers _ _ _ fun _ _ => .value _

/-- A product takes numbers only. -/
theorem verdict_multiply :
    Verdict .mul (mismatch .mul left right) (BinaryOp.accepts .mul left.kind? right.kind?)
      (multiply left right) := by
  cases left with
  | null => cases right <;> exact .accepted (.value _)
  | int a =>
      cases right with
      | null => exact .accepted (.value _)
      | int _ => exact .accepted (proceeds_exact64 _ _ _)
      | float _ | bool _ | text _ | date _ | timestamp _ =>
          exact verdict_numbers _ _ _ fun _ _ => .value _
  | float _ | bool _ | text _ | date _ | timestamp _ =>
      cases right with
      | null => exact .accepted (.value _)
      | int _ | float _ | bool _ | text _ | date _ | timestamp _ =>
          exact verdict_numbers _ _ _ fun _ _ => .value _

/-- A remainder takes numbers only. -/
theorem verdict_modulo :
    Verdict .mod (mismatch .mod left right) (BinaryOp.accepts .mod left.kind? right.kind?)
      (modulo left right) := by
  cases left with
  | null => cases right <;> exact .accepted (.value _)
  | int a =>
      cases right with
      | null => exact .accepted (.value _)
      | int _ => exact .accepted (proceeds_modulo _ _)
      | float _ | bool _ | text _ | date _ | timestamp _ =>
          exact verdict_numbers _ _ _ fun _ _ => proceeds_quotient _ _ _
  | float _ | bool _ | text _ | date _ | timestamp _ =>
      cases right with
      | null => exact .accepted (.value _)
      | int _ | float _ | bool _ | text _ | date _ | timestamp _ =>
          exact verdict_numbers _ _ _ fun _ _ => proceeds_quotient _ _ _

/-- A quotient takes numbers only, and computes with their doubles even where they are
integers. -/
theorem verdict_divide :
    Verdict .div (mismatch .div left right) (BinaryOp.accepts .div left.kind? right.kind?)
      (divide left right) := by
  cases left with
  | null => cases right <;> exact .accepted (.value _)
  | int _ | float _ | bool _ | text _ | date _ | timestamp _ =>
      cases right with
      | null => exact .accepted (.value _)
      | int _ | float _ | bool _ | text _ | date _ | timestamp _ =>
          exact verdict_numbers _ _ _ fun _ _ => proceeds_quotient _ _ _

/-- A double amounts to something unless it is a NaN. -/
theorem isSome_amount?_eq (x : Float) : (Binary.parts x).amount?.isSome = !x.isNaN := by
  rw [Binary.parts_eq_ofUnpacked]
  show _ = !x.toModel.unpack.isNaN
  rcases x.toModel.unpack with (_ | _) | _ | (_ | _) | ⟨_ | _, _, _, _⟩ <;> rfl

/-- Which values have an order, by their kinds. -/
theorem isSome_compare?_eq {k l : Kind} (hleft : left.kind? = some k)
    (hright : right.kind? = some l) :
    (left.compare? right).isSome =
      ((k.isNumber && l.isNumber || k = l) && !(left.isNaN || right.isNaN)) := by
  have hfloats (x y : Float) : (compareFloats? x y).isSome = !(x.isNaN || y.isNaN) := by
    rw [Bool.eq_iff_iff, isSome_compareFloats?, isSome_amount?_eq, isSome_amount?_eq]
    simp
  have hint (n : Int64) : (Float.ofInt n.toInt).isNaN = false := by
    simpa [isSome_amount?_eq] using isSome_amount?_ofInt n
  cases left <;> cases hleft <;> cases right <;> cases hright <;>
    simp only [compare?, hfloats, hint, isNaN, Kind.isNumber] <;> rfl

/-- All values but null have a kind. -/
theorem exists_kind? {v : Value} (h : v.isNull = false) : ∃ k, v.kind? = some k := by
  cases v with
  | null => cases h
  | int _ | float _ | bool _ | text _ | date _ | timestamp _ => exact ⟨_, rfl⟩

/-- An ordering operator is refused by its table, and for a NaN. -/
theorem verdict_order (hop : op.isOrdering = true) :
    Verdict op (mismatch op left right)
      (op.accepts left.kind? right.kind? && !unordered left right)
      (order op left right) := by
  have htakes (k l : Kind) : op.takes k l = (k.isNumber && l.isNumber || k = l) := by
    cases op <;> first | rfl | cases hop
  rw [order, unordered]
  cases hnull : left.isNull || right.isNull with
  | true =>
      have haccepts : op.accepts left.kind? right.kind? = true := by
        cases op <;> cases hop <;> cases left <;> cases right <;> first | rfl | cases hnull
      rw [haccepts, Bool.not_true, Bool.and_false]
      exact .accepted (.value _)
  | false =>
      obtain ⟨hleft, hright⟩ := Bool.or_eq_false_iff.1 hnull
      obtain ⟨k, hk⟩ := exists_kind? hleft
      obtain ⟨l, hl⟩ := exists_kind? hright
      rw [hk, hl, BinaryOp.accepts, htakes, Bool.not_false, Bool.and_true,
        ← isSome_compare?_eq left right hk hl]
      cases left.compare? right with
      | none => exact .refused
      | some o => exact .accepted (.value _)

/-- The operands of a logical operator are truth values or null. -/
theorem accepts_of_isLogical (hop : op.isLogical = true) (k l : Option Kind) :
    op.accepts k l = (k.all (· = .bool) && l.all (· = .bool)) := by
  cases k with
  | none =>
      cases l with
      | none => rfl
      | some l => rw [BinaryOp.accepts, hop]; rfl
  | some k =>
      cases l with
      | none => rw [BinaryOp.accepts, hop, Option.all_none, Bool.and_true]; rfl
      | some l => cases op <;> first | rfl | cases hop

/-- A logical operand has a truth value, or its type error names the other operand
second. -/
theorem truth_cases (op : BinaryOp) (operand other : Value) :
    if operand.kind?.all (· = .bool) then ∃ b, truth op operand other = .ok b
    else truth op operand other = .error (mismatch op operand other) := by
  cases operand with
  | null | bool _ => exact ⟨_, rfl⟩
  | int _ | float _ | text _ | date _ | timestamp _ => rfl

/-- A logical operator is refused by its table, for its left operand first. -/
theorem verdict_logical (hop : op.isLogical = true)
    (table : Option Bool → Option Bool → Option Bool) :
    Verdict op (fault op left right) (op.accepts left.kind? right.kind?)
      (logical op table left right) := by
  have hl := truth_cases op left right
  have hr := truth_cases op right left
  rw [accepts_of_isLogical hop, logical, fault, BinaryOp.turns, hop]
  cases hleft : left.kind?.all (· = .bool) with
  | false =>
      rw [hleft] at hl
      rw [hl]
      exact .refused
  | true =>
      rw [hleft] at hl
      obtain ⟨l, hl⟩ := hl
      rw [hl]
      cases hright : right.kind?.all (· = .bool) with
      | false =>
          rw [hright] at hr
          rw [hr]
          exact .refused
      | true =>
          rw [hright] at hr
          obtain ⟨r, hr⟩ := hr
          rw [hr]
          exact .accepted (.value _)

/-- What takes all kinds takes null as well. -/
theorem accepts_of_takes (hop : op.isLogical = false) (htakes : ∀ k l, op.takes k l = true)
    (k l : Option Kind) : op.accepts k l = true := by
  cases k with
  | none =>
      cases l with
      | none => rfl
      | some l => rw [BinaryOp.accepts, hop]; rfl
  | some k =>
      cases l with
      | none => rw [BinaryOp.accepts, hop]; rfl
      | some l => exact htakes k l

/-- **Every operator goes on or reports its fault**: it goes on if it takes the kinds of its
operands, and no NaN is to be ordered. -/
theorem verdict_apply (op : BinaryOp) : Verdict op (fault op left right)
    (op.accepts left.kind? right.kind? && !(op.isOrdering && unordered left right))
        (op.apply left right) := by
  cases hop : op.isOrdering with
  | true =>
      cases op <;> cases hop <;> exact verdict_order left right rfl
  | false =>
      rw [Bool.false_and, Bool.not_false, Bool.and_true]
      cases op with
      | lt | le | gt | ge => cases hop
      | and | or => exact verdict_logical left right rfl _
      | add => exact verdict_add left right
      | sub => exact verdict_subtract left right
      | mul => exact verdict_multiply left right
      | div => exact verdict_divide left right
      | mod => exact verdict_modulo left right
      | eq | ne | coalesce =>
          rw [accepts_of_takes rfl fun _ _ => rfl]
          exact .accepted (.value _)

end Operators

/-! ### Type errors -/

/-- A type error of an operator. -/
def IsMismatch (r : Except RowError Value) : Prop :=
  ∃ op left right, r = .error (.typeMismatch op left right)

section Verdicts

variable {op : BinaryOp} {left right : Value} {goesOn : Bool} {r : Except RowError Value}

/-- What proceeds is no type error. -/
theorem Proceeds.not_isMismatch (h : Proceeds op r) : ¬ IsMismatch r := by
  rintro ⟨_, _, _, rfl⟩
  cases h

/-- The fault of an operator is a type error. -/
theorem isMismatch_fault (op : BinaryOp) (left right : Value) :
    IsMismatch (.error (fault op left right)) := by
  rw [fault]
  split <;> exact ⟨_, _, _, rfl⟩

/-- The fault is the only type error. -/
theorem Verdict.isMismatch_iff (h : Verdict op (fault op left right) goesOn r) :
    IsMismatch r ↔ goesOn = false := by
  cases h with
  | accepted h => exact iff_of_false h.not_isMismatch nofun
  | refused => exact iff_of_true (isMismatch_fault op left right) rfl

/-- A type error of an operator is its fault. -/
theorem Verdict.eq_fault (h : Verdict op (fault op left right) goesOn r) {op' : BinaryOp}
    {k l : Option Kind} (hr : r = .error (.typeMismatch op' k l)) :
    fault op left right = .typeMismatch op' k l := by
  cases h with
  | accepted h => exact absurd ⟨_, _, _, hr⟩ h.not_isMismatch
  | refused => exact Except.error.inj hr

/-- An operator fails with a type error, or for a reason of arithmetic. -/
theorem Verdict.failure (h : Verdict op (fault op left right) goesOn r) {e : RowError}
    (hr : r = .error e) :
    IsMismatch r ∨ e = .divisionByZero ∨ e = .overflow op.symbol := by
  cases h with
  | refused => exact .inl (isMismatch_fault op left right)
  | accepted h =>
      cases h with
      | value v => cases hr
      | divisionByZero => exact .inr (.inl (Except.error.inj hr).symm)
      | overflow => exact .inr (.inr (Except.error.inj hr).symm)

end Verdicts

end Value

namespace BinaryOp

open Value (IsMismatch unordered)

/-- When an operator reports a type error, and what the error says. -/
structure TypeErrors (op : BinaryOp) (left right : Value) : Prop where
  /-- An operator reports a type error exactly for operands of kinds that it does not take,
  and for a NaN that it should order. -/
  refused : IsMismatch (op.apply left right) ↔
    op.accepts left.kind? right.kind? = false ∨
      (op.isOrdering = true ∧ unordered left right = true)
  /-- Values of the same kinds are refused alike, as long as no NaN is ordered. -/
  alike : ∀ left' right', left'.kind? = left.kind? → right'.kind? = right.kind? →
    (op.isOrdering = true → unordered left right = false ∧ unordered left' right' = false) →
      (IsMismatch (op.apply left' right') ↔ IsMismatch (op.apply left right))
  /-- A type error names the operator and the kinds of its operands, of which a logical
  operator puts the right one first if it is the right one that it refuses. -/
  named : ∀ op' k l, op.apply left right = .error (.typeMismatch op' k l) → op' = op ∧
    (k, l) = if op.turns left.kind? then (right.kind?, left.kind?)
      else (left.kind?, right.kind?)
  /-- All other failures are those of arithmetic. -/
  others : ∀ e, op.apply left right = .error e →
    IsMismatch (op.apply left right) ∨ e = .divisionByZero ∨ e = .overflow op.symbol

/-- **What an operator refuses.** -/
theorem isMismatch_apply {op : BinaryOp} {left right : Value} :
    IsMismatch (op.apply left right) ↔
      op.accepts left.kind? right.kind? = false ∨
        (op.isOrdering = true ∧ unordered left right = true) := by
  rw [(Value.verdict_apply left right op).isMismatch_iff, Bool.and_eq_false_iff,
    Bool.not_eq_false', Bool.and_eq_true]

/-- **Type errors are about kinds**, except where a NaN is ordered, and they name the kinds
in order, except where a logical operator refuses its right operand. -/
theorem typeErrors (op : BinaryOp) (left right : Value) : TypeErrors op left right where
  refused := isMismatch_apply
  alike left' right' hleft hright hordered := by
    rw [isMismatch_apply, isMismatch_apply, hleft, hright]
    refine or_congr_right (and_congr_right fun hop => ?_)
    rw [(hordered hop).1, (hordered hop).2]
  named op' k l h := by
    have hfault := (Value.verdict_apply left right op).eq_fault h
    rw [Value.fault] at hfault
    split at hfault <;> cases hfault
    · next hturns => exact ⟨rfl, (if_pos hturns).symm⟩
    · next hturns => exact ⟨rfl, (if_neg hturns).symm⟩
  others e h := (Value.verdict_apply left right op).failure h

/-- Two dates are refused by `*`, as any two others are. -/
theorem typeErrors_dates : IsMismatch (mul.apply (.date 1) (.date 2)) ∧
    (IsMismatch (mul.apply (.date 0) (.date (-1))) ↔
        IsMismatch (mul.apply (.date 1) (.date 2))) :=
  ⟨(typeErrors mul (.date 1) (.date 2)).refused.2 (.inl rfl),
    (typeErrors mul (.date 1) (.date 2)).alike _ _ rfl rfl nofun⟩

/-- **Type errors that are not about kinds**: two doubles are ordered, but not two others,
one of which is a NaN; and a logical operator names its operands the wrong way round. -/
theorem nan_refused_and_operands_turned :
    lt.apply (.float 1) (.float 2) = .ok (.bool true) ∧
      lt.apply (.float 1) (.float Binary.notANumber) =
      .error (.typeMismatch .lt (some .float64) (some .float64)) ∧
      and.apply (.bool true) (.int 1) =
        .error (.typeMismatch .and (some .int64) (some .bool)) :=
  ⟨rfl, rfl, rfl⟩

end BinaryOp

end FormulaTable
