/-!
# Integers of fixed width

Cells hold integers of 64 and of 32 bits. A result is computed in `Int` and then checked:
`int64?` and `int32?` are defined exactly on the integers that fit.

* `int64?_eq_some` — the integer that comes out is the one that went in.
-/

namespace FormulaTable

/-- The 64-bit integer equal to `n`, if there is one. -/
def int64? (n : Int) : Option Int64 :=
  if -0x8000000000000000 ≤ n ∧ n < 0x8000000000000000 then some (Int64.ofInt n) else none

/-- The 32-bit integer equal to `n`, if there is one. -/
def int32? (n : Int) : Option Int32 :=
  if -0x80000000 ≤ n ∧ n < 0x80000000 then some (Int32.ofInt n) else none

/-- A 64-bit integer comes out exactly for the integer that it equals. -/
theorem int64?_eq_some {n : Int} {a : Int64} : int64? n = some a ↔ a.toInt = n := by
  unfold int64?
  constructor
  · intro h
    split at h
    · next fits =>
      obtain rfl := Option.some.inj h
      exact Int64.toInt_ofInt_of_le (by omega) (by omega)
    · simp at h
  · rintro rfl
    have := a.le_toInt
    have := a.toInt_lt
    rw [if_pos (by omega), Int64.ofInt_toInt]

/-- A 32-bit integer comes out exactly for the integer that it equals. -/
theorem int32?_eq_some {n : Int} {a : Int32} : int32? n = some a ↔ a.toInt = n := by
  unfold int32?
  constructor
  · intro h
    split at h
    · next fits =>
      obtain rfl := Option.some.inj h
      exact Int32.toInt_ofInt_of_le (by omega) (by omega)
    · simp at h
  · rintro rfl
    have := a.le_toInt
    have := a.toInt_lt
    rw [if_pos (by omega), Int32.ofInt_toInt]

/-- Nothing comes out exactly for the integers outside 64 bits. -/
theorem int64?_eq_none {n : Int} :
    int64? n = none ↔ ¬ (-0x8000000000000000 ≤ n ∧ n < 0x8000000000000000) := by
  unfold int64?
  split <;> simp_all

/-- Nothing comes out exactly for the integers outside 32 bits. -/
theorem int32?_eq_none {n : Int} :
    int32? n = none ↔ ¬ (-0x80000000 ≤ n ∧ n < 0x80000000) := by
  unfold int32?
  split <;> simp_all

end FormulaTable
