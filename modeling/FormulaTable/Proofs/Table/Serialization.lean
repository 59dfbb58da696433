import FormulaTable.Proofs.Document.Reading
import FormulaTable.Table.Cell

/-!
# Cells that are written and read back

A cell is written as an object with its value, its text and its message, and the value as an
object with its kind as the only key. All of this is read back as it was written, except for
doubles. A NaN and the infinities have no number in a document and are written as `null`,
which stands for no double, so that the cell is refused as a whole. A finite double is
written as the shortest decimal that is rounded to it, and read as the digits of this
decimal, scaled by a power of ten: with many digits or a large power this may be a neighbour
of what was written.

* `Kind.ofDocument?_parse?` — a kind is read back.
* `Value.ofDocument?_reread` — a value is read back, with the double that is read for its
  double.
* `readBack?_eq` — so is a cell.
* `readsBack` — which cells come back as they were, which come back changed and which are
  refused.
-/

namespace FormulaTable

/-- A kind is read back as it was written. -/
theorem Kind.ofDocument?_parse? (k : Kind) :
    (Document.parse? k.toDocument.toText).bind Kind.ofDocument? = some k := by
  rw [Document.parse?_toText]
  cases k <;> rfl

namespace Value

/-- The value that is read where a value was written. -/
def reread? : Value → Option Value
  | float x => (Document.reread? x).map float
  | v => some v

/-- The document of a value is read by its kind. -/
theorem ofDocument?_object (k : Kind) (d : Document) :
    ofDocument? (.object [(k.tag, d)]) = ofContent? d k := by
  cases k <;> rfl

/-- An integer of 64 bits is read back. -/
theorem ofContent?_int64 (n : Int64) :
    (Document.integer n.toInt).reread.int?.bind int64? = some n := by
  have hlow := n.le_toInt
  have hhigh := n.toInt_lt
  rw [Document.reread, Document.WrittenNumber.toDocument_ofInt (by omega) (by omega)]
  exact int64?_eq_some.2 rfl

/-- An integer of 32 bits is read back. -/
theorem ofContent?_int32 (n : Int32) :
    (Document.integer n.toInt).reread.int?.bind int32? = some n := by
  have hlow := n.le_toInt
  have hhigh := n.toInt_lt
  rw [Document.reread, Document.WrittenNumber.toDocument_ofInt (by omega) (by omega)]
  exact int32?_eq_some.2 rfl

/-- **A value is read back**, with the double that is read for its double. -/
theorem ofDocument?_reread (v : Value) : ofDocument? v.toDocument.reread = v.reread? := by
  cases v with
  | null => rfl
  | bool b => exact ofDocument?_object .bool (.bool b)
  | text s => exact ofDocument?_object .string (.text s)
  | int n =>
      exact (ofDocument?_object .int64 _).trans
        (congrArg (Option.map int) (ofContent?_int64 n))
  | date day =>
      exact (ofDocument?_object .date _).trans
        (congrArg (Option.map date) (ofContent?_int32 day))
  | timestamp micros =>
    exact (ofDocument?_object .timestamp _).trans
      (congrArg (Option.map timestamp) (ofContent?_int64 micros))
  | float x =>
    refine (ofDocument?_object .float64 _).trans ?_
    rw [Document.reread, reread?, ofContent?]
    cases Document.reread? x <;> rfl

end Value

namespace Cell

/-- The cell that the text of a cell is read as. -/
def readBack? (c : Cell) : Option Cell :=
  (Document.parse? c.toDocument.toText).bind ofDocument?

/-- **A cell is read back**, with the value that is read for its value. -/
theorem readBack?_eq (c : Cell) :
    c.readBack? = c.value.reread?.map fun v => { c with value := v } := by
  obtain ⟨v, display, error⟩ := c
  have hvalue := Value.ofDocument?_reread v
  rw [readBack?, Document.parse?_toText, Option.bind_some, toDocument, Document.reread]
  simp only [Document.rereadFields, ofDocument?, Document.fieldsNamed]
  cases error <;> simp [Document.reread, errorOf?, ofDocument?.only, hvalue, Document.text?,
    Option.map_eq_bind]

section Doubles

variable {c : Cell} {x : Float}

/-- A cell without a double comes back as it was. -/
theorem readBack?_of_ne_float (h : ∀ x, c.value ≠ .float x) : c.readBack? = some c := by
  rw [readBack?_eq]
  obtain ⟨v, display, error⟩ := c
  cases v with
  | float x => exact absurd rfl (h x)
  | _ => rfl

/-- A cell with a double is read back with the double that is read for it. -/
theorem readBack?_of_float (h : c.value = .float x) :
    c.readBack? = (Document.reread? x).map fun y => { c with value := .float y } := by
  rw [readBack?_eq, h, Value.reread?, Option.map_map]
  rfl

/-- A cell with a double comes back as it was exactly if the double does. -/
theorem readBack?_eq_self_iff (h : c.value = .float x) :
    c.readBack? = some c ↔ Document.reread? x = some x := by
  rw [readBack?_of_float h, Option.map_eq_some_iff]
  constructor
  · rintro ⟨y, hy, hsame⟩
    have hvalue : Value.float y = .float x := (congrArg Cell.value hsame).trans h
    rw [hy, Value.float.inj hvalue]
  · intro hx
    exact ⟨x, hx, by rw [← h]⟩

/-- A cell with a double is refused exactly if the double is not finite. -/
theorem readBack?_eq_none_iff (h : c.value = .float x) :
    c.readBack? = none ↔ x.isFinite = false := by
  rw [readBack?_of_float h, Option.map_eq_none_iff, ← Document.isSome_reread?_eq,
    Option.isSome_eq_false_iff, Option.isNone_iff_eq_none]

end Doubles

/-- What becomes of a cell that is written and read back. -/
structure ReadsBack (c : Cell) : Prop where
  /-- It comes back as it was unless its value is a double that is read as another one, or
  as none. -/
  kept_iff : c.readBack? = some c ↔ ∀ x, c.value = .float x → Document.reread? x = some x
  /-- It is refused if its value is a NaN or an infinity. -/
  refused_iff : c.readBack? = none ↔ ∃ x, c.value = .float x ∧ x.isFinite = false
  /-- A finite double may change, but nothing else does. -/
  finite : ∀ x, c.value = .float x → x.isFinite = true →
    ∃ y, Document.reread? x = some y ∧ c.readBack? = some { c with value := .float y }
  /-- A finite double with few digits does not change. -/
  few : ∀ x, c.value = .float x → x.isFinite = true → Document.FewDigits x →
    c.readBack? = some c

/-- **Cells are read back** as they were written, except for doubles that are not finite or
have many digits. -/
theorem readsBack (c : Cell) : c.ReadsBack := by
  by_cases hfloat : ∃ x, c.value = .float x
  · obtain ⟨x, hx⟩ := hfloat
    have honly : ∀ y, c.value = .float y →
        y = x := fun y hy => Value.float.inj (hy.symm.trans hx)
    refine ⟨?_, ?_, ?_, ?_⟩
    · rw [readBack?_eq_self_iff hx]
      exact ⟨fun h y hy => honly y hy ▸ h, fun h => h x hx⟩
    · rw [readBack?_eq_none_iff hx]
      exact ⟨fun h => ⟨x, hx, h⟩, fun ⟨y, hy, h⟩ => honly y hy ▸ h⟩
    · intro y hy hfinite
      rw [← Document.isSome_reread?_eq] at hfinite
      obtain ⟨z, hz⟩ := Option.isSome_iff_exists.1 hfinite
      exact ⟨z, hz, by rw [readBack?_of_float hy, hz, Option.map_some]⟩
    · intro y hy hfinite hfew
      exact (readBack?_eq_self_iff hy).2 (Document.reread?_eq_self hfinite hfew)
  · have hne : ∀ x, c.value ≠ .float x := fun x hx => hfloat ⟨x, hx⟩
    have hkept := readBack?_of_ne_float hne
    have hsome : c.readBack? ≠ none := by
      rw [hkept]
      exact Option.some_ne_none c
    exact ⟨iff_of_true hkept fun x hx => absurd hx (hne x),
      iff_of_false hsome fun ⟨x, hx, _⟩ => hne x hx,
      fun x hx => absurd hx (hne x), fun x hx => absurd hx (hne x)⟩

/-- The double in a cell for a failure comes back as it was, if it has few digits. -/
theorem readsBack_price :
    (failed (.float (.ofBits 0x40934a3d70a3d70a)) "out of stock").readBack? =
      some (failed (.float (.ofBits 0x40934a3d70a3d70a)) "out of stock") :=
  (readsBack _).few _ rfl (by decide +kernel) (by decide +kernel)

/-- A NaN is refused, and the greatest odd double becomes its neighbour below. -/
theorem doubles_lost :
    (ofValue (.float Binary.notANumber)).readBack? = none ∧
      (ofValue (.float (.ofBits 0x433fffffffffffff))).readBack? =
        some { ofValue (.float (.ofBits 0x433fffffffffffff)) with
          value := .float (.ofBits 0x433ffffffffffffe) } ∧
      (Float.ofBits 0x433fffffffffffff ≠ .ofBits 0x433ffffffffffffe) := by
  have hnan : Document.reread? Binary.notANumber = none := by decide +kernel
  have hodd : Document.reread? (.ofBits 0x433fffffffffffff) =
      some (.ofBits 0x433ffffffffffffe) := by
    decide +kernel
  refine ⟨?_, ?_, by decide +kernel⟩
  · rw [readBack?_of_float rfl, hnan, Option.map_none]
  · rw [readBack?_of_float rfl, hodd, Option.map_some]

end Cell

end FormulaTable
