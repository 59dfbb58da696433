import FormulaTable.Proofs.Column
import FormulaTable.Proofs.Table.Run
import FormulaTable.Proofs.Table.Slots

/-!
# What reading a computed table keeps

All ways to read a computed table come down to a few changes: the source is read, an
evaluation or a hit is counted, and the result of a computed column is kept at its position.
A property that survives these changes survives every read, and every request to keep or
forget results.

* `Kept.keeps_perform` — the operations that are no edits.
* `Kept.keeps_readCell`, `Kept.keeps_readColumn` — where what is read comes from.
-/

namespace FormulaTable.ComputedTable

open Access

variable {σ : Type} [Tabular σ]

/-- A property that reading the source and counting keep. -/
structure Undisturbed (I : ComputedTable σ → Prop) : Prop where
  readCell : ∀ t, I t →
    ∀ row i, I { t with source := ((Tabular.readCell row i).on t.source).2 }
  readColumn : ∀ t, I t → ∀ i, I { t with source := ((Tabular.readColumn i).on t.source).2 }
  countEvaluation : ∀ t, I t → I t.countEvaluation
  countHit : ∀ t, I t → I t.countHit

/-- A property of tables with the given columns that reading keeps, if `Q` holds of the
results of the columns. -/
structure Kept (columns : List Column) (Q : Column → Evaluated → Prop)
    (I : ComputedTable σ → Prop) : Prop
    extends Undisturbed I where
  columns_eq : ∀ t, I t → t.columns = columns
  known : ∀ t, I t → ∀ slot ∈ t.slots, ∀ e, slot.cached = some e → Q slot.column e
  evaluate : ∀ c ∈ columns, c.isComputed → Keeps I (evaluateColumn c) (Q c)
  keep : ∀ t, I t → ∀ p c e, columns[p]? = some c → c.isComputed → Q c e → I (t.keep p e)
  forget : ∀ t, I t → ∀ p, I (t.forget p)
  release : ∀ t, I t → I t.release
  resetStatistics : ∀ t, I t → I t.resetStatistics

/-! ### Requests, case by case -/

section

variable {t : ComputedTable σ} {p : Nat} {slot : Slot} {e : Evaluated}

/-- A result that is kept is given at once, and counts as a hit. -/
theorem on_materializeAt_of_cached (h : t.cached? p = some e) :
    (materializeAt p).on t = (.ok e, t.countHit) := by
  rw [materializeAt, on_get_bind, h]
  rfl

/-- The empty name stands for all columns. -/
theorem materialize_empty :
    (materialize "" : Access (ComputedTable σ) Unit) =
      (materializeAll >>= fun _ => pure ()) :=
  if_pos (String.isEmpty_iff.2 rfl)

section

variable {name : String} (hname : name ≠ "")

include hname

/-- A name that cannot be found cannot be materialized. -/
theorem on_materialize_of_error {err : Error} (hp : t.position name = .error err) :
    (materialize name).on t = (.error err, t) := by
  rw [materialize, if_neg (mt String.isEmpty_iff.1 hname), on_get_bind,
    on_ofExcept_bind_error hp]

variable (hp : t.position name = .ok p) (hslot : t.slot? p = some slot)

include hp hslot

/-- Materializing a stored column does nothing. -/
theorem on_materialize_of_stored (hstored : slot.column.isComputed = false) :
    (materialize name).on t = (.ok (), t) := by
  rw [materialize, if_neg (mt String.isEmpty_iff.1 hname), on_get_bind,
    on_ofExcept_bind_ok hp, on_get_bind, hslot]
  show (if slot.column.isComputed then _ else _ : Access (ComputedTable σ) Unit).on t = _
  rw [hstored]
  rfl

/-- Materializing a computed column by name does so at its position. -/
theorem on_materialize_of_isComputed (hcomputed : slot.column.isComputed) :
    (materialize name).on t = (materializeAt p >>= fun _ => pure ()).on t := by
  rw [materialize, if_neg (mt String.isEmpty_iff.1 hname), on_get_bind,
    on_ofExcept_bind_ok hp, on_get_bind, hslot]
  show (if slot.column.isComputed then _ else _ : Access (ComputedTable σ) Unit).on t = _
  rw [if_pos hcomputed]

end

/-- There is no column to read beyond the last one. -/
theorem on_readColumn_of_none (hslot : t.slot? p = none) :
    (readColumn p).on t = (.error (.invalidColumn p t.slots.length), t) := by
  rw [readColumn, on_get_bind, on_ofExcept_bind_error (slotAt_eq_error hslot)]

section

variable (hslot : t.slot? p = some slot)

include hslot

/-- A stored column is read from the source. -/
theorem on_readColumn_of_stored {i : Nat} {k : Kind}
    (hcontent : slot.column.content = .stored i k) :
    (readColumn p).on t = (onSource (Tabular.readColumn i)).on t := by
  rw [readColumn, on_get_bind, on_ofExcept_bind_ok (slotAt_eq_ok.2 hslot)]
  simp only [hcontent]

/-- A kept column is read from its result, and this counts as no hit. -/
theorem on_readColumn_of_cached (hcomputed : slot.column.isComputed)
    (hcached : slot.cached = some e) :
    (readColumn p).on t = (.ok e.series, t) := by
  rw [readColumn, on_get_bind, on_ofExcept_bind_ok (slotAt_eq_ok.2 hslot)]
  cases hcontent : slot.column.content with
  | stored i k => exact absurd hcontent (Column.isComputed_iff.1 hcomputed i k)
  | _ =>
      simp only [hcached]
      rfl

/-- An open column is materialized when it is read. -/
theorem on_readColumn_of_open (hcomputed : slot.column.isComputed)
    (hcached : slot.cached = none) :
    (readColumn p).on t =
      (do return (← materializeAt p).series : Access (ComputedTable σ) Series).on t := by
  rw [readColumn, on_get_bind, on_ofExcept_bind_ok (slotAt_eq_ok.2 hslot)]
  cases hcontent : slot.column.content with
  | stored i k => exact absurd hcontent (Column.isComputed_iff.1 hcomputed i k)
  | _ => simp only [hcached]

end

variable {row : Nat}

/-- There is no cell to read beyond the last row. -/
theorem on_readCell_of_row_le (hrow : Tabular.rowCount t.source ≤ row) :
    (readCell row p).on t = (.error (.invalidRow row (Tabular.rowCount t.source)), t) := by
  rw [readCell, on_get_bind, on_ofExcept_bind_error (checkRow_eq_error hrow)]

variable (hrow : row < Tabular.rowCount t.source)

include hrow

/-- There is no cell to read beyond the last column. -/
theorem on_readCell_of_none (hslot : t.slot? p = none) :
    (readCell row p).on t = (.error (.invalidColumn p t.slots.length), t) := by
  rw [readCell, on_get_bind, on_ofExcept_bind_ok (checkRow_eq_ok.2 hrow), on_get_bind,
    on_ofExcept_bind_error (slotAt_eq_error hslot)]

variable (hslot : t.slot? p = some slot)

include hslot

/-- A stored cell is read from the source. -/
theorem on_readCell_of_stored {i : Nat} {k : Kind}
    (hcontent : slot.column.content = .stored i k) :
    (readCell row p).on t = (onSource (Tabular.readCell row i)).on t := by
  rw [readCell, on_get_bind, on_ofExcept_bind_ok (checkRow_eq_ok.2 hrow), on_get_bind,
    on_ofExcept_bind_ok (slotAt_eq_ok.2 hslot)]
  simp only [hcontent]

/-- A cell of a known computed column is a hit. -/
theorem on_readCell_of_cached (hcomputed : slot.column.isComputed)
    (hcached : slot.cached = some e) :
    (readCell row p).on t = (.ok (e.cell row), t.countHit) := by
  rw [readCell, on_get_bind, on_ofExcept_bind_ok (checkRow_eq_ok.2 hrow), on_get_bind,
    on_ofExcept_bind_ok (slotAt_eq_ok.2 hslot)]
  cases hcontent : slot.column.content with
  | stored i k => exact absurd hcontent (Column.isComputed_iff.1 hcomputed i k)
  | _ =>
      simp only [hcached]
      rfl

/-- A cell of an open column is read from the column, once it is materialized. -/
theorem on_readCell_of_open (hcomputed : slot.column.isComputed)
    (hcached : slot.cached = none) :
    (readCell row p).on t =
      (do return (← materializeAt p).cell row : Access (ComputedTable σ) Cell).on t := by
  rw [readCell, on_get_bind, on_ofExcept_bind_ok (checkRow_eq_ok.2 hrow), on_get_bind,
    on_ofExcept_bind_ok (slotAt_eq_ok.2 hslot)]
  cases hcontent : slot.column.content with
  | stored i k => exact absurd hcontent (Column.isComputed_iff.1 hcomputed i k)
  | _ => simp only [hcached]

end

/-! ### Evaluation -/

section

variable {I : ComputedTable σ → Prop}

/-- A series that is read from a stored column. -/
def SourceSeries (I : ComputedTable σ → Prop) (i : Nat) (s : Series) : Prop :=
  ∃ t, I t ∧ ((Tabular.readColumn i).on t.source).1 = .ok s

/-- A cell that is read from a stored column. -/
def SourceCell (I : ComputedTable σ → Prop) (row i : Nat) (cell : Cell) : Prop :=
  ∃ t, I t ∧ ((Tabular.readCell row i).on t.source).1 = .ok cell

/-- A series that is read as an input of a column. -/
def InputSeries (I : ComputedTable σ → Prop) (reader : Column) (input : String)
    (s : Series) : Prop :=
  ∃ t, I t ∧ (t.origin reader input = .ok (.kept s) ∨
    ∃ i, t.origin reader input = .ok (.source i) ∧ SourceSeries I i s)

/-- A read of a source cell keeps what is not disturbed by it. -/
theorem Undisturbed.keeps_onSource_readCell (h : Undisturbed I) (row i : Nat) :
    Keeps I (onSource (Tabular.readCell row i)) (SourceCell I row i) :=
  fun t ht => ⟨h.readCell t ht row i, fun _ hs => ⟨t, ht, hs⟩⟩

/-- A read of a source column keeps what is not disturbed by it. -/
theorem Undisturbed.keeps_onSource_readColumn (h : Undisturbed I) (i : Nat) :
    Keeps I (onSource (Tabular.readColumn i)) (SourceSeries I i) :=
  fun t ht => ⟨h.readColumn t ht i, fun _ hs => ⟨t, ht, hs⟩⟩

/-- Reading an input keeps what is not disturbed by reading the source. -/
theorem Undisturbed.keeps_readInput (h : Undisturbed I) (reader : Column) (input : String) :
    Keeps I (readInput reader input) (InputSeries I reader input) := by
  refine keeps_get.bind fun t ht => ?_
  refine (keeps_ofExcept (Q := fun o => t.origin reader input = .ok o) fun _ ho => ho).bind
    fun o ho => ?_
  cases o with
  | source i =>
      refine (h.keeps_onSource_readColumn i).imp fun s hs => ?_
      exact ⟨t, ht, .inr ⟨i, ho, hs⟩⟩
  | kept s => exact keeps_pure ⟨t, ht, .inl ho⟩

/-- A result comes from a run on series that were read as inputs. -/
theorem Undisturbed.keeps_evaluateColumn (h : Undisturbed I) (c : Column) :
    Keeps I (evaluateColumn c) fun e => ∃ x inputs t, c.computation? = some x ∧
      List.Forall₂ (InputSeries I c) x.inputs inputs ∧ I t ∧
        x.evaluateRows inputs (Tabular.rowCount t.source) = .ok e := by
  rw [evaluateColumn]
  cases hx : c.computation? with
  | none => exact keeps_throw _
  | some x =>
      refine (Keeps.mapM fun input _ => h.keeps_readInput c input).bind
        fun inputs hinputs => ?_
      refine (keeps_modify h.countEvaluation).bind fun _ _ => ?_
      refine keeps_get.bind fun t ht => ?_
      exact keeps_ofExcept fun e he => ⟨x, inputs, t, rfl, hinputs, ht, he⟩

end

/-! ### Reads -/

namespace Kept

variable {columns : List Column} {Q : Column → Evaluated → Prop}
  {I : ComputedTable σ → Prop}
  (h : Kept columns Q I)

include h

/-- The slots hold the columns, position by position. -/
theorem getElem?_of_slot? {t : ComputedTable σ} (ht : I t) {p : Nat} {slot : Slot}
    (hslot : t.slot? p = some slot) : columns[p]? = some slot.column :=
  h.columns_eq t ht ▸ columns_getElem?_of_slot? hslot

/-- Filling a position keeps the invariant. -/
theorem keeps_fill (p : Nat) : Keeps I (fill p) fun _ => True := by
  refine keeps_get.bind fun t ht => ?_
  cases hslot : t.slot? p with
  | none => exact keeps_pure trivial
  | some slot =>
      have hc := h.getElem?_of_slot? ht hslot
      show Keeps I (if slot.column.isComputed && slot.cached.isNone then _ else _) _
      split
      case isFalse => exact keeps_pure trivial
      case isTrue hopen =>
        have hcomputed := (Bool.and_eq_true_iff.1 hopen).1
        refine (h.evaluate _ (List.mem_of_getElem? hc) hcomputed).bind fun e he => ?_
        refine (keeps_modify fun t' ht' => h.keep t' ht' p _ e hc hcomputed he).bind
          fun _ _ => ?_
        exact keeps_pure trivial

/-- Filling several positions keeps the invariant. -/
theorem keeps_fillAll (ps : List Nat) : Keeps I (fillAll ps) fun _ => True :=
  (Keeps.mapM fun p _ => h.keeps_fill p).bind fun _ _ => keeps_pure trivial

/-- Materializing a column keeps the invariant, and gives a result as good as the kept
ones. -/
theorem keeps_materializeAt {p : Nat} {c : Column} (hc : columns[p]? = some c) :
    Keeps I (materializeAt p) (Q c) := by
  have hknown : ∀ {t e}, I t → t.cached? p = some e → Q c e := by
    intro t e ht hcached
    obtain ⟨slot, hslot, he⟩ := exists_slot?_of_cached? hcached
    have hcol := h.getElem?_of_slot? ht hslot
    rw [hc] at hcol
    cases hcol
    exact h.known t ht slot (List.mem_of_getElem? hslot) e he
  refine keeps_get.bind fun t ht => ?_
  cases hcached : t.cached? p with
  | some e =>
      refine (keeps_modify h.countHit).bind fun _ _ => ?_
      exact keeps_pure (hknown ht hcached)
  | none =>
      refine keeps_get.bind fun t₁ _ => ?_
      refine (h.keeps_fillAll (t₁.graph.orderFor p)).bind fun _ _ => ?_
      refine keeps_get.bind fun t₂ ht₂ => ?_
      cases hcached₂ : t₂.cached? p with
      | some e => exact keeps_pure (hknown ht₂ hcached₂)
      | none => exact keeps_get.bind fun _ _ => keeps_throw _

/-- Materializing everything keeps the invariant. -/
theorem keeps_materializeAll : Keeps I materializeAll fun _ => True :=
  keeps_get.bind fun t _ => h.keeps_fillAll t.graph.order

/-- Materializing by name keeps the invariant. -/
theorem keeps_materialize (name : String) : Keeps I (materialize name) fun _ => True := by
  rw [materialize]
  split
  case isTrue => exact h.keeps_materializeAll.bind fun _ _ => keeps_pure trivial
  case isFalse =>
    refine keeps_get.bind fun t _ => ?_
    refine (keeps_ofExcept (Q := fun _ => True) fun _ _ => trivial).bind fun p _ => ?_
    refine keeps_get.bind fun t₁ ht₁ => ?_
    cases hslot : t₁.slot? p with
    | none => exact keeps_pure trivial
    | some slot =>
        show Keeps I (if slot.column.isComputed then _ else _) _
        split
        case isFalse => exact keeps_pure trivial
        case isTrue =>
          refine (h.keeps_materializeAt (h.getElem?_of_slot? ht₁ hslot)).bind fun _ _ => ?_
          exact keeps_pure trivial

/-- Forgetting a result keeps the invariant. -/
theorem keeps_unmaterialize (name : String) :
    Keeps I (unmaterialize name) fun _ => True := by
  refine keeps_get.bind fun t _ => ?_
  refine (keeps_ofExcept (Q := fun _ => True) fun _ _ => trivial).bind fun p _ => ?_
  refine keeps_get.bind fun t₁ _ => ?_
  refine (keeps_modify fun t₂ ht₂ => h.forget t₂ ht₂ p).bind fun _ _ => ?_
  exact keeps_pure trivial

/-- A cell is read from a stored column, or is that of a result. -/
theorem keeps_readCell (row column : Nat) : Keeps I (readCell row column) fun cell =>
    (∃ t, I t ∧ row < Tabular.rowCount t.source) ∧ ∃ c, columns[column]? = some c ∧
      ((∃ i, c.content = .stored i c.kind ∧ SourceCell I row i cell) ∨
        (c.isComputed ∧ ∃ e, Q c e ∧ cell = e.cell row)) := by
  refine keeps_get.bind fun t ht => ?_
  refine (keeps_ofExcept (Q := fun _ => row < Tabular.rowCount t.source)
    fun _ hrow => checkRow_eq_ok.1 hrow).bind fun _ hrow => ?_
  refine keeps_get.bind fun t₁ ht₁ => ?_
  refine (keeps_ofExcept (Q := fun slot => t₁.slot? column = some slot)
    fun slot hslot => slotAt_eq_ok.1 hslot).bind fun slot hslot => ?_
  have hc := h.getElem?_of_slot? ht₁ hslot
  refine Keeps.imp ?_ fun cell hcell => ⟨⟨t, ht, hrow⟩, slot.column, hc, hcell⟩
  cases hcontent : slot.column.content with
  | stored i k =>
      refine (h.keeps_onSource_readCell row i).imp fun cell hcell => .inl ⟨i, ?_, hcell⟩
      rw [Column.kind_eq_of_content hcontent]
  | _ =>
      have hcomputed : slot.column.isComputed := by simp [Column.isComputed_iff, hcontent]
      cases hcached : slot.cached with
      | some e =>
          refine (keeps_modify h.countHit).bind fun _ _ =>
            keeps_pure (.inr ⟨hcomputed, e, ?_, rfl⟩)
          exact h.known t₁ ht₁ slot (List.mem_of_getElem? hslot) e hcached
      | none =>
          refine (h.keeps_materializeAt hc).bind fun e he => ?_
          exact keeps_pure (.inr ⟨hcomputed, e, he, rfl⟩)

/-- A column is read from a stored column, or is that of a result. -/
theorem keeps_readColumn (column : Nat) : Keeps I (readColumn column) fun s =>
    ∃ c, columns[column]? = some c ∧
      ((∃ i, c.content = .stored i c.kind ∧ SourceSeries I i s) ∨
        (c.isComputed ∧ ∃ e, Q c e ∧ s = e.series)) := by
  refine keeps_get.bind fun t₁ ht₁ => ?_
  refine (keeps_ofExcept (Q := fun slot => t₁.slot? column = some slot)
    fun slot hslot => slotAt_eq_ok.1 hslot).bind fun slot hslot => ?_
  have hc := h.getElem?_of_slot? ht₁ hslot
  refine Keeps.imp ?_ fun s hs => ⟨slot.column, hc, hs⟩
  cases hcontent : slot.column.content with
  | stored i k =>
      refine (h.keeps_onSource_readColumn i).imp fun s hs => .inl ⟨i, ?_, hs⟩
      rw [Column.kind_eq_of_content hcontent]
  | _ =>
      have hcomputed : slot.column.isComputed := by simp [Column.isComputed_iff, hcontent]
      cases hcached : slot.cached with
      | some e =>
          refine keeps_pure (.inr ⟨hcomputed, e, ?_, rfl⟩)
          exact h.known t₁ ht₁ slot (List.mem_of_getElem? hslot) e hcached
      | none =>
          refine (h.keeps_materializeAt hc).bind fun e he => ?_
          exact keeps_pure (.inr ⟨hcomputed, e, he, rfl⟩)

/-- Reading a message keeps the invariant. -/
theorem keeps_readCellError (row column : Nat) :
    Keeps I (readCellError row column) fun _ => True :=
  (h.keeps_readCell row column).bind fun _ _ => keeps_pure trivial

/-- Reading a row keeps the invariant. -/
theorem keeps_readRow (row : Nat) :
    Keeps I (Tabular.readRow row : Access (ComputedTable σ) (List Cell)) fun _ => True := by
  refine keeps_get.bind fun t _ => ?_
  refine (keeps_ofExcept (Q := fun _ => True) fun _ _ => trivial).bind fun _ _ => ?_
  refine keeps_get.bind fun t₁ _ => ?_
  exact (Keeps.mapM fun column _ => h.keeps_readCell row column).imp fun _ _ => trivial

/-- **Whatever is read, kept or forgotten**, the property stays. -/
theorem keeps_perform {op : Operation} (hop : ∀ e, op ≠ .edit e) :
    Keeps I op.perform fun _ => True := by
  cases op with
  | edit e => exact absurd rfl (hop e)
  | materialize name => exact h.keeps_materialize name
  | materializeAll => exact h.keeps_materializeAll.bind fun _ _ => keeps_pure trivial
  | unmaterialize name =>
      exact (h.keeps_unmaterialize name).bind fun _ _ => keeps_pure trivial
  | release => exact keeps_modify h.release
  | resetStatistics => exact keeps_modify h.resetStatistics
  | readCell row column =>
      exact (h.keeps_readCell row column).bind fun _ _ => keeps_pure trivial
  | readCellError row column =>
      exact (h.keeps_readCellError row column).bind fun _ _ => keeps_pure trivial
  | readRow row => exact (h.keeps_readRow row).bind fun _ _ => keeps_pure trivial
  | readColumn column =>
      exact (h.keeps_readColumn column).bind fun _ _ => keeps_pure trivial

end Kept

end FormulaTable.ComputedTable
