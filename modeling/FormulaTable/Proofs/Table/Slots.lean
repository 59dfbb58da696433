import FormulaTable.Proofs.Result
import FormulaTable.Table.Stack
import Mathlib.Data.List.InsertIdx

/-!
# Columns and the results kept for them

A computed table has a slot for each column, with the column and the result that is kept for
it. Keeping and forgetting a result changes one slot, and no column.

* `columns_keep`, `columns_forget`, `columns_release` — what is kept does not matter to the
  columns.
* `mem_modify`, `exists_of_mem_forgetAt` — the slots after a change.
-/

namespace FormulaTable.ComputedTable

variable {σ : Type}

/-! ### Positions -/

/-- There is one column for each slot. -/
theorem length_columns (t : ComputedTable σ) : t.columns.length = t.slots.length :=
  List.length_map _

/-- The slot at a position is that of the column there. -/
theorem columns_getElem? (t : ComputedTable σ) (p : Nat) :
    t.columns[p]? = (t.slot? p).map (·.column) :=
  List.getElem?_map

/-- The column of a slot is the column at its position. -/
theorem columns_getElem?_of_slot? {t : ComputedTable σ} {p : Nat} {slot : Slot}
    (h : t.slot? p = some slot) :
    t.columns[p]? = some slot.column := by
  rw [columns_getElem?, h]
  rfl

/-- A kept result is the one of a slot. -/
theorem exists_slot?_of_cached? {t : ComputedTable σ} {p : Nat} {e : Evaluated}
    (h : t.cached? p = some e) :
    ∃ slot, t.slot? p = some slot ∧ slot.cached = some e :=
  Option.bind_eq_some_iff.1 h

/-- The result that is kept at a position is the one of its slot. -/
theorem cached?_of_slot? {t : ComputedTable σ} {p : Nat} {slot : Slot}
    (h : t.slot? p = some slot) :
    t.cached? p = slot.cached := by
  rw [cached?, h]
  rfl

/-- A slot is found at its position. -/
theorem slotAt_eq_ok {t : ComputedTable σ} {p : Nat} {slot : Slot} :
    t.slotAt p = .ok slot ↔ t.slot? p = some slot := by
  rw [slotAt]
  cases t.slot? p with
  | none =>
      constructor
      · rintro ⟨⟩
      · rintro ⟨⟩
  | some other =>
      constructor
      · rintro ⟨⟩
        rfl
      · rintro ⟨⟩
        rfl

/-- There is no slot beyond the last one. -/
theorem slotAt_eq_error {t : ComputedTable σ} {p : Nat} (h : t.slot? p = none) :
    t.slotAt p = .error (.invalidColumn p t.slots.length) := by
  rw [slotAt, h]

/-- A column is found at its position. -/
theorem columnAt_eq_ok {t : ComputedTable σ} {name : String} {p : Nat} {c : Column} :
    t.columnAt name p = .ok c ↔ t.columns[p]? = some c := by
  rw [columnAt, columns_getElem?]
  cases t.slot? p with
  | none => exact ⟨fun h => (nomatch h), fun h => (nomatch h)⟩
  | some slot =>
      constructor
      · rintro ⟨⟩
        rfl
      · rintro ⟨⟩
        rfl

/-- A slot is found by the position of its name. -/
theorem slotNamed_eq_ok {t : ComputedTable σ} {name : String} {slot : Slot} :
    t.slotNamed name = .ok slot ↔ ∃ p, t.position name = .ok p ∧ t.slot? p = some slot := by
  rw [slotNamed, bind_eq_ok]
  refine exists_congr fun p => and_congr_right fun _ => ?_
  cases t.slot? p with
  | none =>
      constructor
      · rintro ⟨⟩
      · rintro ⟨⟩
  | some other =>
      constructor
      · rintro ⟨⟩
        rfl
      · rintro ⟨⟩
        rfl

/-! ### Changes of one slot -/

/-- A changed slot comes from the one that was there. -/
theorem mem_modify {slots : List Slot} {p : Nat} {f : Slot → Slot} {slot : Slot}
    (h : slot ∈ slots.modify p f) :
    slot ∈ slots ∨ ∃ old, slots[p]? = some old ∧ slot = f old := by
  obtain ⟨q, hq⟩ := List.mem_iff_getElem?.1 h
  rw [List.getElem?_modify] at hq
  obtain ⟨old, hold, rfl⟩ := Option.map_eq_some_iff.1 hq
  by_cases hpq : p = q
  · exact .inr ⟨old, hpq ▸ hold, if_pos hpq⟩
  · rw [if_neg hpq]
    exact .inl (List.mem_of_getElem? hold)

/-- What leaves the column of a slot leaves all columns. -/
theorem map_column_modify {slots : List Slot} {p : Nat} {f : Slot → Slot}
    (hf : ∀ slot, (f slot).column = slot.column) :
    (slots.modify p f).map (·.column) = slots.map (·.column) := by
  refine List.ext_getElem? fun q => ?_
  rw [List.getElem?_map, List.getElem?_map, List.getElem?_modify]
  cases slots[q]? with
  | none => rfl
  | some slot =>
      show some (if p = q then f slot else slot).column = some slot.column
      split
      case isTrue => rw [hf]
      case isFalse => rfl

/-- Keeping a result changes the slot of its column, and no other. -/
theorem keep_slot? (t : ComputedTable σ) (p : Nat) (e : Evaluated) (q : Nat) :
    (t.keep p e).slot? q =
      (t.slot? q).map fun slot => if p = q then { slot with cached := some e } else slot :=
  List.getElem?_modify ..

/-- Keeping a result leaves the columns. -/
@[simp] theorem columns_keep (t : ComputedTable σ) (p : Nat) (e : Evaluated) :
    (t.keep p e).columns = t.columns := map_column_modify fun _ => rfl

/-- Forgetting a result leaves the columns. -/
@[simp] theorem columns_forget (t : ComputedTable σ) (p : Nat) :
    (t.forget p).columns = t.columns :=
  map_column_modify fun _ => rfl

/-- Forgetting all results leaves the columns. -/
@[simp] theorem columns_release (t : ComputedTable σ) : t.release.columns = t.columns :=
  List.map_map

/-! ### Results at several positions -/

/-- Results are forgotten at the given positions, and at no others. -/
theorem forgetAt_getElem? {slots : List Slot} {positions : List Nat} {p : Nat} :
    (forgetAt slots positions)[p]? =
      slots[p]?.map fun slot => if positions.contains p then { slot with cached := none }
        else slot := by
  rw [forgetAt, List.getElem?_map, List.getElem?_zipIdx, Option.map_map, Nat.zero_add]
  rfl

/-- Forgetting results leaves the columns. -/
theorem map_column_forgetAt (slots : List Slot) (positions : List Nat) :
    (forgetAt slots positions).map (·.column) = slots.map (·.column) := by
  refine List.ext_getElem? fun q => ?_
  rw [List.getElem?_map, List.getElem?_map, forgetAt_getElem?]
  cases slots[q]? with
  | none => rfl
  | some slot =>
      show some (if positions.contains q then { slot with cached := none }
          else slot).column = _
      split <;> rfl

/-- A result that is left was there, and its position is none of those that were given. -/
theorem exists_of_mem_forgetAt {slots : List Slot} {positions : List Nat} {slot : Slot}
    (h : slot ∈ forgetAt slots positions) {e : Evaluated} (he : slot.cached = some e) :
    ∃ p, p ∉ positions ∧ slots[p]? = some slot := by
  obtain ⟨p, hp⟩ := List.mem_iff_getElem?.1 h
  rw [forgetAt_getElem?] at hp
  obtain ⟨old, hold, rfl⟩ := Option.map_eq_some_iff.1 hp
  split at he
  case isTrue => cases he
  case isFalse hnot => exact ⟨p, by simpa using hnot, by rw [if_neg hnot]; exact hold⟩

/-! ### New columns -/

/-- A slot is made from a column and from the result that was kept at its position. -/
theorem slotsFor_getElem? {columns : List Column} {old : List Slot} {p : Nat} :
    (slotsFor columns old)[p]? = columns[p]?.map fun c => ⟨c, old[p]?.bind (·.cached)⟩ := by
  rw [slotsFor, List.getElem?_map, List.getElem?_zipIdx, Option.map_map, Nat.zero_add]
  rfl

/-- The slots that are made for columns hold them. -/
theorem map_column_slotsFor (columns : List Column) (old : List Slot) :
    (slotsFor columns old).map (·.column) = columns := by
  refine List.ext_getElem? fun p => ?_
  rw [List.getElem?_map, slotsFor_getElem?]
  cases columns[p]? <;> rfl

/-- New columns at the end have no results. -/
theorem slotsFor_append (t : ComputedTable σ) (c : Column) :
    slotsFor (t.columns ++ [c]) t.slots = t.slots ++ [⟨c, none⟩] := by
  have hold : slotsFor t.columns t.slots = t.slots := by
    refine List.ext_getElem? fun p => ?_
    rw [slotsFor_getElem?, columns_getElem?, slot?]
    cases t.slots[p]? <;> rfl
  have hnew : t.slots[t.columns.length]? = none :=
    List.getElem?_eq_none (Nat.le_of_eq t.length_columns.symm)
  rw [slotsFor, List.zipIdx_append, List.map_append, Nat.zero_add]
  refine congrArg₂ (· ++ ·) hold ?_
  show [(⟨c, t.slots[t.columns.length]?.bind (·.cached)⟩ : Slot)] = _
  rw [hnew]
  rfl

/-- A replaced column keeps the result for the time being. -/
theorem slotsFor_set (t : ComputedTable σ) (p : Nat) (c : Column) :
    slotsFor (t.columns.set p c) t.slots = t.slots.modify p fun slot =>
      { slot with column := c } := by
  refine List.ext_getElem? fun q => ?_
  rw [slotsFor_getElem?, List.getElem?_set, List.getElem?_modify, columns_getElem?, slot?,
    t.length_columns]
  cases hslot : t.slots[q]? with
  | none =>
      have hlen := List.getElem?_eq_none_iff.1 hslot
      split
      case isTrue heq =>
        rw [if_neg (by omega)]
        rfl
      case isFalse => rfl
  | some slot =>
      have hlen := (List.getElem?_eq_some_iff.1 hslot).1
      split
      case isTrue heq =>
        rw [if_pos (heq ▸ hlen)]
        rfl
      case isFalse => rfl

end FormulaTable.ComputedTable
