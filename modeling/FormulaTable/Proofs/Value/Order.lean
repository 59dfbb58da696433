import FormulaTable.Proofs.Binary.Rounding
import FormulaTable.Value.Operation

/-!
# The order of values

Values of one kind are in a linear order, and an integer and a double are compared as
doubles. Comparing is the same from both sides, and what is at most something that is at
most a third value is at most the third - unless two different integers are rounded to one
double, and are compared with each other as well as with that double. Such a chain
contradicts itself: both integers equal the double, but not each other. It needs integers of
`2 ^ 53` and more.

* `compare?_swap` — the order of two values, seen from the second one.
* `isSome_compare?_iff` — which values have an order.
* `chained_of_not_blurred` — three values that are not blurred are in a consistent order.
* `lt_trans` — values that are strictly below each other always are.
* `consistent_unless_blurred` — blurred values are the only ones that are not.
-/

namespace FormulaTable

namespace Value

open Binary (Amount)

/-- The first value is at most the second one. -/
def AtMost (a b : Value) : Prop := a.compare? b = some .lt ∨ a.compare? b = some .eq

/-- Three values are in a consistent order: what is at most the second value, which is at
most the third one, is at most the third one, and equals it only if all three are equal. -/
def Chained (a b c : Value) : Prop :=
  AtMost a b → AtMost b c →
    AtMost a c ∧
    (a.compare? c = some .eq → a.compare? b = some .eq ∧ b.compare? c = some .eq)

/-- Two different integers that a double equals. -/
structure Blurs (x : Float) (m n : Int64) : Prop where
  ne : m ≠ n
  left : (float x).compare? (int m) = some .eq
  right : (float x).compare? (int n) = some .eq

/-- One of three values is a double that the two others, which are different integers, are
rounded to. -/
inductive Blurred : Value → Value → Value → Prop
  | first {x m n} : Blurs x m n → Blurred (float x) (int m) (int n)
  | middle {x m n} : Blurs x m n → Blurred (int m) (float x) (int n)
  | last {x m n} : Blurs x m n → Blurred (int m) (int n) (float x)

/-- What a number amounts to as a double; a NaN and what is no number amount to nothing. -/
def amount? (v : Value) : Option Amount := v.number?.bind fun x => (Binary.parts x).amount?

/-- The kind as which a value is compared: integers are compared as doubles, and null and a
NaN with nothing. -/
def orderKind? : Value → Option Kind
  | null => none
  | int _ => some .float64
  | float x => (Binary.parts x).amount?.map fun _ => .float64
  | v => v.kind?

/-! ### Comparing two values -/

section Pairs

variable {a b : Value} {p q : Amount} {m n : Int64} {o : Ordering}

/-- Doubles are compared the other way round with the opposite result. -/
theorem compareFloats?_swap (x y : Float) :
    compareFloats? y x = (compareFloats? x y).map Ordering.swap := by
  rw [Binary.compareFloats?_eq, Binary.compareFloats?_eq, Binary.Number.order?_swap]

/-- Elements of a linear order are compared the other way round with the opposite result. -/
theorem compare_swap {α : Type} [LinearOrder α] (x y : α) :
    some (compare y x) = (some (compare x y)).map .swap :=
  congrArg some (Std.OrientedCmp.eq_swap : compare y x = (compare x y).swap)

/-- **The order of two values**, seen from the second one. -/
theorem compare?_swap (a b : Value) : b.compare? a = (a.compare? b).map Ordering.swap := by
  cases a <;> cases b <;>
    first | rfl | exact compare_swap _ _ | exact compareFloats?_swap _ _

/-- An integer amounts to the double next to it. -/
theorem amount?_int (n : Int64) :
    (int n).amount? = some (.ofRat (Binary.nearestInt n.toInt)) := by
  have := n.le_toInt
  have := n.toInt_lt
  exact Binary.amount?_ofInt (by omega)

/-- Numbers are compared by their amounts, if not both are integers. -/
theorem compare?_of_amount (ha : a.amount? = some p) (hb : b.amount? = some q)
    (h : a.int? = none ∨ b.int? = none) : a.compare? b = some (compare p q) := by
  obtain ⟨x, hx, hp⟩ := Option.bind_eq_some_iff.1 ha
  obtain ⟨y, hy, hq⟩ := Option.bind_eq_some_iff.1 hb
  have hfloats : compareFloats? x y = some (compare p q) := by
    rw [Binary.compareFloats?_eq, Binary.Number.order?, hp, hq]
    rfl
  cases a <;> cases hx <;> cases b <;> cases hy
  case int.refl.int.refl => simp [int?] at h
  all_goals exact hfloats

/-- Two doubles have an order if neither is a NaN. -/
theorem isSome_compareFloats? {x y : Float} : (compareFloats? x y).isSome ↔
    (Binary.parts x).amount?.isSome ∧ (Binary.parts y).amount?.isSome := by
  rw [Binary.compareFloats?_eq, Binary.Number.order?]
  cases (Binary.parts x).amount? <;> cases (Binary.parts y).amount? <;> simp

/-- The double of an integer is no NaN. -/
theorem isSome_amount?_ofInt (n : Int64) :
    (Binary.parts (Float.ofInt n.toInt)).amount?.isSome :=
  Option.isSome_iff_exists.2 ⟨_, amount?_int n⟩

/-- **Which values have an order**: those that are compared as the same kind. -/
theorem isSome_compare?_iff :
    (a.compare? b).isSome ↔ ∃ k, a.orderKind? = some k ∧ b.orderKind? = some k := by
  cases a <;> cases b <;>
    simp only [compare?, orderKind?, kind?, isSome_compareFloats?, isSome_amount?_ofInt]
  all_goals simp [Option.isSome_iff_exists]

/-- The values that are compared as doubles are those that amount to something. -/
theorem orderKind?_eq_float64 : a.orderKind? = some .float64 ↔ ∃ p, a.amount? = some p := by
  cases a
  case int n => exact iff_of_true rfl ⟨_, amount?_int n⟩
  all_goals simp [orderKind?, kind?, amount?, number?]

/-- Kinds other than that of doubles are ordered by themselves. -/
theorem kind?_of_orderKind? {k : Kind} (h : a.orderKind? = some k) (hk : k ≠ .float64) :
    a.kind? = some k := by
  cases a <;> simp_all [orderKind?]

/-- Two values that are integers are given by two integers. -/
theorem exists_ints (h : ¬ (a.int? = none ∨ b.int? = none)) :
    ∃ m n, a = int m ∧ b = int n := by
  cases a <;> cases b <;> simp_all [int?]

/-- Two numbers are both integers, or they are compared by their amounts. -/
theorem compare?_of_amounts (ha : a.amount? = some p) (hb : b.amount? = some q) :
    a.compare? b = some (compare p q) ∨ ∃ m n, a = int m ∧ b = int n := by
  by_cases hints : a.int? = none ∨ b.int? = none
  · exact .inl (compare?_of_amount ha hb hints)
  · exact .inr (exists_ints hints)

/-- What is at most another number amounts to no more. -/
theorem AtMost.amount_le (h : AtMost a b) (ha : a.amount? = some p)
    (hb : b.amount? = some q) : p ≤ q := by
  obtain hcompare | ⟨m, n, rfl, rfl⟩ := compare?_of_amounts ha hb
  · rw [AtMost, hcompare, Option.some.injEq, Option.some.injEq, compare_lt_iff_lt,
      compare_eq_iff_eq] at h
    exact le_iff_lt_or_eq.2 h
  · have hle : m.toInt ≤ n.toInt := by
      simpa only [AtMost, compare?, Option.some.injEq, compare_lt_iff_lt, compare_eq_iff_eq,
        ← le_iff_lt_or_eq] using h
    rw [amount?_int, Option.some.injEq] at ha hb
    rw [← ha, ← hb]
    exact Amount.strictMono_ofRat.monotone (Int.cast_le.2 (Binary.nearestInt_mono hle))

/-- Numbers of one amount are equal, unless they are different integers. -/
theorem compare?_eq_of_amount (ha : a.amount? = some p) (hb : b.amount? = some p) :
    a.compare? b = some .eq ∨ ∃ m n, m ≠ n ∧ a = int m ∧ b = int n := by
  obtain hcompare | ⟨m, n, rfl, rfl⟩ := compare?_of_amounts ha hb
  · exact .inl (hcompare.trans (congrArg some (compare_eq_iff_eq.2 rfl)))
  · by_cases hmn : m = n
    · subst hmn
      exact .inl (congrArg some (compare_eq_iff_eq.2 rfl))
    · exact .inr ⟨m, n, hmn, rfl, rfl⟩

/-- A value that amounts to something, and is no integer, is a double. -/
theorem exists_float (ha : a.amount? = some p) (h : a.int? = none) : ∃ x, a = float x := by
  cases a with
  | float x => exact ⟨x, rfl⟩
  | int n => cases h
  | _ => cases ha

/-- A double equals the numbers of its amount. -/
theorem compare?_float_eq {x : Float} (hx : (float x).amount? = some p)
    (hb : b.amount? = some p) :
    (float x).compare? b = some .eq :=
  (compare?_eq_of_amount hx hb).resolve_right nofun

end Pairs

/-! ### Three values -/

section Chains

variable {a b c : Value}

/-- A value that is at most another one is comparable with it. -/
theorem AtMost.isSome (h : AtMost a b) : (a.compare? b).isSome :=
  h.elim (fun h => Option.isSome_of_eq_some h) fun h => Option.isSome_of_eq_some h

/-- Values that are compared by places in a linear order are in a consistent order. -/
theorem chained_of_compare {α : Type} [LinearOrder α] {x y z : α}
    (hab : a.compare? b = some (compare x y)) (hbc : b.compare? c = some (compare y z))
    (hac : a.compare? c = some (compare x z)) : Chained a b c := by
  simp only [Chained, AtMost, hab, hbc, hac, Option.some.injEq, compare_lt_iff_lt,
    compare_eq_iff_eq, ← le_iff_lt_or_eq]
  intro hxy hyz
  refine ⟨hxy.trans hyz, ?_⟩
  rintro rfl
  exact ⟨hxy.antisymm hyz, hyz.antisymm hxy⟩

/-- Values that are no numbers are compared with their own kind. -/
theorem chained_of_kind {k : Kind} (hk : k ≠ .float64) (ha : a.orderKind? = some k)
    (hb : b.orderKind? = some k) (hc : c.orderKind? = some k) : Chained a b c := by
  have ha := kind?_of_orderKind? ha hk
  have hb := kind?_of_orderKind? hb hk
  have hc := kind?_of_orderKind? hc hk
  cases a <;> cases ha <;> cases b <;> cases hb <;> cases c <;> cases hc <;>
    first | exact chained_of_compare rfl rfl rfl | exact absurd rfl hk

/-- Equality is seen from both sides. -/
theorem compare?_eq_symm (h : a.compare? b = some .eq) : b.compare? a = some .eq := by
  rw [compare?_swap a b, h]
  rfl

/-- Two integers around a double are in order, unless both equal it. -/
theorem chained_middle {m n : Int64} {x : Float} {p q r : Amount}
    (ha : (int m).amount? = some p) (hb : (float x).amount? = some q)
    (hc : (int n).amount? = some r) (hsharp : ¬ Blurred (int m) (float x) (int n)) :
    Chained (int m) (float x) (int n) := by
  intro hab hbc
  have hpq : p ≤ q := hab.amount_le ha hb
  have hqr : q ≤ r := hbc.amount_le hb hc
  have hle : m.toInt ≤ n.toInt := by
    by_contra hgt
    have hmost : AtMost (int n) (int m) :=
      .inl (congrArg some (compare_lt_iff_lt.2 (not_le.1 hgt)))
    have hrp : r ≤ p := hmost.amount_le hc ha
    obtain rfl : p = q := hpq.antisymm (hqr.trans hrp)
    obtain rfl : p = r := hqr.antisymm hrp
    refine hsharp (.middle ⟨?_, compare?_float_eq hb ha, compare?_float_eq hb hc⟩)
    rintro rfl
    exact hgt le_rfl
  constructor
  · simpa only [AtMost, compare?, Option.some.injEq, compare_lt_iff_lt, compare_eq_iff_eq,
      ← le_iff_lt_or_eq] using hle
  · intro heq
    obtain rfl : m = n := Int64.toInt_inj.1 (compare_eq_iff_eq.1 (Option.some.inj heq))
    obtain rfl : p = r := Option.some.inj (ha.symm.trans hc)
    obtain rfl : p = q := hpq.antisymm hqr
    exact ⟨compare?_eq_symm (compare?_float_eq hb ha), compare?_float_eq hb hc⟩

/-- Three numbers are in a consistent order, unless two of them are different integers that
equal the third. -/
theorem chained_of_amount {p q r : Amount} (ha : a.amount? = some p)
    (hb : b.amount? = some q) (hc : c.amount? = some r) (hsharp : ¬ Blurred a b c) :
    Chained a b c := by
  by_cases hints : a.int? = none ∨ c.int? = none
  · intro hab hbc
    have hpq : p ≤ q := hab.amount_le ha hb
    have hqr : q ≤ r := hbc.amount_le hb hc
    simp only [AtMost, compare?_of_amount ha hc hints, Option.some.injEq, compare_lt_iff_lt,
      compare_eq_iff_eq, ← le_iff_lt_or_eq]
    refine ⟨hpq.trans hqr, ?_⟩
    rintro rfl
    obtain rfl : p = q := hpq.antisymm hqr
    -- Two integers with a double beside them are the same integer.
    constructor
    · obtain heq | ⟨m, n, hmn, rfl, rfl⟩ := compare?_eq_of_amount ha hb
      · exact heq
      · obtain ⟨x, rfl⟩ := exists_float hc (hints.resolve_left nofun)
        exact absurd (.last ⟨hmn, compare?_float_eq hc ha, compare?_float_eq hc hb⟩) hsharp
    · obtain heq | ⟨m, n, hmn, rfl, rfl⟩ := compare?_eq_of_amount hb hc
      · exact heq
      · obtain ⟨x, rfl⟩ := exists_float ha (hints.resolve_right nofun)
        exact absurd (.first ⟨hmn, compare?_float_eq ha hb, compare?_float_eq ha hc⟩) hsharp
  · obtain ⟨m, n, rfl, rfl⟩ := exists_ints hints
    cases b with
    | int k => exact chained_of_compare rfl rfl rfl
    | float x => exact chained_middle ha hb hc hsharp
    | _ => cases hb

/-- **Three values** are in a consistent order, unless they are blurred. -/
theorem chained_of_not_blurred (hsharp : ¬ Blurred a b c) : Chained a b c := by
  intro hab hbc
  obtain ⟨k, ha, hb⟩ := isSome_compare?_iff.1 hab.isSome
  obtain ⟨k', hb', hc⟩ := isSome_compare?_iff.1 hbc.isSome
  obtain rfl : k = k' := Option.some.inj (hb.symm.trans hb')
  by_cases hk : k = .float64
  · subst hk
    obtain ⟨p, ha⟩ := orderKind?_eq_float64.1 ha
    obtain ⟨q, hb⟩ := orderKind?_eq_float64.1 hb
    obtain ⟨r, hc⟩ := orderKind?_eq_float64.1 hc
    exact chained_of_amount ha hb hc hsharp hab hbc
  · exact chained_of_kind hk ha hb hc hab hbc

/-- **Values that are strictly below each other** are in order, blurred or not. -/
theorem lt_trans (hab : a.compare? b = some .lt) (hbc : b.compare? c = some .lt) :
    a.compare? c = some .lt := by
  have hsharp : ¬ Blurred a b c := by
    rintro (⟨-, heq, -⟩ | ⟨-, heq, -⟩ | ⟨-, -, heq⟩)
    · rw [hab] at heq
      cases heq
    · rw [compare?_eq_symm heq] at hab
      cases hab
    · rw [compare?_eq_symm heq] at hbc
      cases hbc
  obtain ⟨hlt | heq, hequal⟩ := chained_of_not_blurred hsharp (.inl hab) (.inl hbc)
  · exact hlt
  · rw [(hequal heq).1] at hab
    cases hab

end Chains

/-! ### Blurred values -/

section Blurred

variable {a b c : Value} {x : Float} {m n : Int64}

/-- A double blurs two integers in either order. -/
theorem Blurs.symm (h : Blurs x m n) : Blurs x n m := ⟨h.ne.symm, h.right, h.left⟩

/-- A double that equals an integer amounts to the rounded integer. -/
theorem amount?_of_compare?_eq (h : (float x).compare? (int n) = some .eq) :
    (float x).amount? = some (.ofRat (Binary.nearestInt n.toInt)) := by
  obtain ⟨k, hx, hn⟩ := isSome_compare?_iff.1 (Option.isSome_of_eq_some h)
  obtain rfl : Kind.float64 = k := Option.some.inj hn
  obtain ⟨p, hx⟩ := orderKind?_eq_float64.1 hx
  rw [compare?_of_amount hx (amount?_int n) (.inl rfl), Option.some.injEq,
    compare_eq_iff_eq] at h
  rw [hx, h]

/-- **Integers with one double** are large. -/
theorem Blurs.large (h : Blurs x m n) : 2 ^ 53 ≤ m.toInt.natAbs := by
  have hamount :=
    (amount?_of_compare?_eq h.left).symm.trans (amount?_of_compare?_eq h.right)
  have hnearest : Binary.nearestInt m.toInt = Binary.nearestInt n.toInt :=
    Int.cast_injective (Amount.strictMono_ofRat.injective (Option.some.inj hamount))
  exact Binary.le_natAbs_of_nearestInt_eq (fun heq => h.ne (Int64.toInt_inj.1 heq)) hnearest

/-- Two different integers are in one order or the other. -/
theorem compare?_ints_of_ne (h : m ≠ n) :
    (int m).compare? (int n) = some .lt ∨ (int n).compare? (int m) = some .lt := by
  rcases lt_trichotomy m.toInt n.toInt with hlt | heq | hgt
  · exact .inl (congrArg some (compare_lt_iff_lt.2 hlt))
  · exact absurd (Int64.toInt_inj.1 heq) h
  · exact .inr (congrArg some (compare_lt_iff_lt.2 hgt))

/-- A double before two integers that equal it: the one that is below the other should not
equal the double. -/
theorem Blurs.not_chained (h : Blurs x m n) :
    ¬ (Chained (float x) (int m) (int n) ∧ Chained (int n) (int m) (float x)) := by
  rintro ⟨hfirst, hlast⟩
  rcases compare?_ints_of_ne h.ne with hlt | hlt
  · have hequal := (hfirst (.inr h.left) (.inl hlt)).2 h.right
    rw [hlt] at hequal
    cases hequal.2
  · have hequal :=
      (hlast (.inl hlt) (.inr (compare?_eq_symm h.left))).2 (compare?_eq_symm h.right)
    rw [hlt] at hequal
    cases hequal.1

/-- **A blurred chain** contradicts itself in one of its two directions. -/
theorem Blurred.not_chained (h : Blurred a b c) : ¬ (Chained a b c ∧ Chained c b a) := by
  rcases h with h | h | h
  · exact h.not_chained
  · rintro ⟨hforth, hback⟩
    have hmn := (hforth (.inr (compare?_eq_symm h.left)) (.inr h.right)).1
    have hnm := (hback (.inr (compare?_eq_symm h.right)) (.inr h.left)).1
    simp only [AtMost, compare?, Option.some.injEq, compare_lt_iff_lt, compare_eq_iff_eq,
      ← le_iff_lt_or_eq]
      at hmn hnm
    exact h.ne (Int64.toInt_inj.1 (hmn.antisymm hnm))
  · exact fun hboth => h.symm.not_chained hboth.symm

/-- Values that are blurred are so in reverse. -/
theorem Blurred.reverse (h : Blurred a b c) : Blurred c b a := by
  rcases h with h | h | h
  · exact .last h.symm
  · exact .middle h.symm
  · exact .first h.symm

/-- **Blurred integers** are large. -/
theorem Blurred.large (h : Blurred a b c) (hm : int m ∈ [a, b, c]) :
    2 ^ 53 ≤ m.toInt.natAbs := by
  rcases h with h | h | h
  all_goals
    simp only [List.mem_cons, reduceCtorEq, int.injEq, List.not_mem_nil, or_false, false_or]
      at hm
    rcases hm with rfl | rfl
    · exact h.large
    · exact h.symm.large

/-- Chains are consistent in both directions unless they are blurred. -/
theorem chained_iff (a b c : Value) : Chained a b c ∧ Chained c b a ↔ ¬ Blurred a b c :=
  ⟨fun h hblurred => hblurred.not_chained h, fun h =>
    ⟨chained_of_not_blurred h, chained_of_not_blurred fun hreverse => h hreverse.reverse⟩⟩

end Blurred

/-! ### The operators -/

section Operators

variable {a b c : Value}

/-- What the comparison operators say, by the order of their operands. -/
structure Operators (a b : Value) : Prop where
  lt_true : BinaryOp.lt.apply a b = .ok (bool true) ↔ a.compare? b = some .lt
  lt_false : BinaryOp.lt.apply a b = .ok (bool false) ↔ AtMost b a
  le_true : BinaryOp.le.apply a b = .ok (bool true) ↔ AtMost a b
  le_false : BinaryOp.le.apply a b = .ok (bool false) ↔ b.compare? a = some .lt
  /-- The operators that look the other way say the same of the operands in the other
  order. -/
  gt : ∀ t, BinaryOp.gt.apply a b = .ok (bool t) ↔ BinaryOp.lt.apply b a = .ok (bool t)
  ge : ∀ t, BinaryOp.ge.apply a b = .ok (bool t) ↔ BinaryOp.le.apply b a = .ok (bool t)
  eq : BinaryOp.eq.apply a b = .ok (bool true) ↔
    (a = null ∧ b = null) ∨ a.compare? b = some .eq
  ne : ∀ t, BinaryOp.ne.apply a b = .ok (bool t) ↔ BinaryOp.eq.apply a b = .ok (bool !t)

/-- An ordering operator says what it makes of the order of its operands. -/
theorem order_eq_ok_iff {op : BinaryOp} {t : Bool} :
    order op a b = .ok (bool t) ↔ ∃ o, a.compare? b = some o ∧ satisfies op o = t := by
  have hnull (h : (a.isNull || b.isNull) = true) : a.compare? b = none := by
    cases a <;> cases b <;> first | rfl | cases h
  rw [order]
  split
  · next h =>
    rw [hnull h]
    simp
  · cases a.compare? b <;> simp

/-- Values are equal if both are null, or if they compare as equal. -/
theorem equal_eq_true_iff :
    a.equal b = true ↔ (a = null ∧ b = null) ∨ a.compare? b = some .eq := by
  cases a <;> cases b <;> simp [equal, compare?]

/-- **The comparison operators** say what the order is. -/
theorem operators (a b : Value) : Operators a b := by
  have hswap := compare?_swap a b
  constructor
  case eq => simp only [BinaryOp.apply, Except.ok.injEq, bool.injEq, equal_eq_true_iff]
  case ne =>
    intro t
    cases h : a.equal b <;> cases t <;> simp [BinaryOp.apply, h]
  all_goals
    simp only [BinaryOp.apply, order_eq_ok_iff, AtMost, hswap]
    rcases a.compare? b with _ | _ | _ | _ <;> simp +decide

/-- Equality is transitive, unless the three values are blurred. -/
theorem equal_trans (hsharp : ¬ Blurred a b c) (hab : a.equal b = true)
    (hbc : b.equal c = true) :
    a.equal c = true := by
  rw [equal_eq_true_iff] at hab hbc ⊢
  rcases hab with ⟨rfl, rfl⟩ | hab
  · rcases hbc with ⟨-, rfl⟩ | hbc
    · exact .inl ⟨rfl, rfl⟩
    · cases c <;> cases hbc
  rcases hbc with ⟨rfl, rfl⟩ | hbc
  · cases a <;> cases hab
  -- Each of the outer two values is at most the other one.
  have hforth := ((chained_iff a b c).2 hsharp).1 (.inr hab) (.inr hbc)
  have hback := ((chained_iff a b c).2 hsharp).2 (.inr (compare?_eq_symm hbc))
    (.inr (compare?_eq_symm hab))
  rcases hforth.1 with hlt | heq
  · have hswap := compare?_swap a c
    rw [hlt] at hswap
    rcases hback.1 with h | h <;> rw [hswap] at h <;> cases h
  · exact .inr heq

end Operators

/-- Comparing three values is consistent, unless they are blurred. -/
structure ConsistentUnlessBlurred (a b c : Value) : Prop where
  /-- The order of two values is the same from both sides. -/
  reversed : b.compare? a = (a.compare? b).map Ordering.swap
  /-- Three values are in a consistent order in both directions exactly if they are not
  blurred. -/
  chained_iff : Chained a b c ∧ Chained c b a ↔ ¬ Blurred a b c
  /-- Blurred values need large integers. -/
  large : Blurred a b c → ∀ m, int m ∈ [a, b, c] → 2 ^ 53 ≤ m.toInt.natAbs
  /-- The operators say what the order is, and nothing else. -/
  operators : Operators a b
  /-- Equality is transitive, except for blurred values. -/
  equal_trans : ¬ Blurred a b c → BinaryOp.eq.apply a b = .ok (bool true) →
    BinaryOp.eq.apply b c = .ok (bool true) → BinaryOp.eq.apply a c = .ok (bool true)

/-- **Comparing values is consistent**, except for an integer, another integer and the
double that both are rounded to. -/
theorem consistent_unless_blurred (a b c : Value) : ConsistentUnlessBlurred a b c where
  reversed := compare?_swap a b
  chained_iff := chained_iff a b c
  large h _ := h.large
  operators := operators a b
  equal_trans hsharp hab hbc := by
    simp only [BinaryOp.apply, Except.ok.injEq, bool.injEq] at hab hbc ⊢
    exact equal_trans hsharp hab hbc

/-- An integer, a larger double and a larger integer are in order. -/
theorem consistent_unless_blurred_mixed :
    ¬ Blurred (int 1) (float 1.5) (int 2) ∧ AtMost (int 1) (float 1.5) ∧
      AtMost (float 1.5) (int 2) ∧ AtMost (int 1) (int 2) := by
  have hsharp : ¬ Blurred (int 1) (float 1.5) (int 2) := fun h =>
    absurd ((consistent_unless_blurred _ _ _).large h 1 List.mem_cons_self) (by decide)
  have hfirst : AtMost (int 1) (float 1.5) := .inl (by decide)
  have hsecond : AtMost (float 1.5) (int 2) := .inl (by decide)
  exact ⟨hsharp, hfirst, hsecond,
    (((consistent_unless_blurred _ _ _).chained_iff.2 hsharp).1 hfirst hsecond).1⟩

/-- **A chain that contradicts itself**: `2 ^ 53 + 1` equals the double `2 ^ 53`, which
equals the integer `2 ^ 53`, but the two integers are not equal, and the first one is not at
most the last one. -/
theorem equal_not_trans :
    BinaryOp.eq.apply (int 9007199254740993) (float 9007199254740992) = .ok (bool true) ∧
      BinaryOp.eq.apply (float 9007199254740992) (int 9007199254740992) = .ok (bool true) ∧
      BinaryOp.eq.apply (int 9007199254740993) (int 9007199254740992) = .ok (bool false) ∧
      ¬ Chained (int 9007199254740993) (float 9007199254740992) (int 9007199254740992) := by
  refine ⟨rfl, rfl, rfl, fun h => ?_⟩
  have hle := (h (.inr (by decide)) (.inr (by decide))).1
  revert hle
  unfold AtMost
  decide

end Value

end FormulaTable
