import FormulaTable.Proofs.Access
import FormulaTable.Proofs.Computation.Evaluation
import FormulaTable.Table.Stack

/-!
# What a table shows

Reading a table may change it, but what it shows stays the same. A `View` is what a table
shows, and `Shows P v` says that all tables with `P` show `v` and keep `P` when they are
read. A view is complete when nothing within its bounds fails to be read.

* `Shows.exists_readRow_eq_ok` — a row consists of its cells.
* `BaseTable.shows_view` — a table that holds its data shows it, and is not changed.
* `BaseTable.complete_view` — its view is complete if its values are of the declared kinds.
-/

namespace FormulaTable

/-- What a table shows to those who read it. -/
@[ext]
structure View where
  rows : Nat
  schema : List (String × Kind)
  cell : Nat → Nat → Except Error Cell
  series : Nat → Except Error Series

/-- All tables with `P` show the view, and keep `P` when they are read. -/
structure Shows {σ : Type} [Tabular σ] (P : σ → Prop) (v : View) : Prop where
  rowCount_eq : ∀ s, P s → Tabular.rowCount s = v.rows
  schema_eq : ∀ s, P s → Tabular.schema s = v.schema
  readCell_eq : ∀ s, P s →
    ∀ row column, ((Tabular.readCell row column).on s).1 = v.cell row column
  keeps_readCell : ∀ s, P s → ∀ row column, P ((Tabular.readCell row column).on s).2
  readColumn_eq : ∀ s, P s →
    ∀ column, ((Tabular.readColumn column).on s).1 = v.series column
  keeps_readColumn : ∀ s, P s → ∀ column, P ((Tabular.readColumn column).on s).2

/-- Every cell within the bounds can be read, and every column, which has one element for
each row and a type for its kind. -/
structure View.Complete (v : View) : Prop where
  cell : ∀ row < v.rows, ∀ column < v.schema.length, ∃ c, v.cell row column = .ok c
  series : ∀ {column name kind}, v.schema[column]? = some (name, kind) →
    ∃ s, v.series column = .ok s ∧ s.size = v.rows ∧ s.type.kind? = some kind

section

variable {σ : Type} [Tabular σ] {P : σ → Prop} {v : View} {s : σ}

/-- A row can be read, and consists of its cells. -/
theorem Shows.exists_readRow_eq_ok (h : Shows P v) (hv : v.Complete) (hs : P s) {row : Nat}
    (hrow : row < v.rows) : ∃ cells, ((Tabular.readRow row).on s).1 = .ok cells ∧
      List.Forall₂ (fun column cell => v.cell row column = .ok cell)
        (List.range v.schema.length) cells := by
  have hok : Access.Ensures P
      ((List.range v.schema.length).mapM fun column => Tabular.readCell row column)
      fun _ => P := by
    refine Access.Ensures.mapM fun column hcolumn s hs => ?_
    obtain ⟨cell, hcell⟩ := hv.cell row hrow column (List.mem_range.1 hcolumn)
    exact ⟨cell, (h.readCell_eq s hs row column).trans hcell,
      h.keeps_readCell s hs row column⟩
  have hcells := Access.Keeps.mapM fun column (_ : column ∈ List.range v.schema.length) =>
    show Access.Keeps P (Tabular.readCell row column) fun cell => v.cell row column =
      .ok cell from
      fun s hs => ⟨h.keeps_readCell s hs row column,
        fun _ hcell => h.readCell_eq s hs row column ▸ hcell⟩
  obtain ⟨cells, hread, -, -, hall⟩ := hok.and_keeps hcells s hs
  have hrows : row < Tabular.rowCount s := by rwa [h.rowCount_eq s hs]
  refine ⟨cells, ?_, hall⟩
  rw [Tabular.readRow, Access.on_bind_ok (Access.on_ask _ s),
    Access.on_ofExcept_bind_ok (checkRow_eq_ok.2 hrows),
    Access.on_bind_ok (Access.on_ask _ s), Tabular.columnCount, h.schema_eq s hs]
  exact hread

end

/-! ### Tables stored by columns -/

namespace MemoryTable

variable {t : MemoryTable} {column : Nat} {c : StoredColumn t.rows}

/-- A cell of a table in memory is the cell of its column. -/
theorem cell_eq_ok {row : Nat} (hrow : row < t.rows) (hc : t.columns[column]? = some c) :
    t.cell row column = .ok (c.cell row) := by
  rw [cell, columnAt, hc]
  show (checkRow row t.rows >>= fun _ => pure _) = _
  rw [checkRow_eq_ok.2 hrow]
  rfl

/-- A column of a table in memory is read as its series. -/
theorem series_eq_ok (hc : t.columns[column]? = some c) :
    (t.columnAt column).map (·.series) = .ok c.series := by
  rw [columnAt, hc]
  rfl

end MemoryTable

/-! ### Tables stored by rows -/

namespace RowTable

/-- The values are of the kinds of their columns, or null. -/
def Typed (t : RowTable) : Prop :=
  ∀ row ∈ t.rows, ∀ {column : Nat} {name : String} {kind : Kind} {v : Value},
    t.schema[column]? = some (name, kind) → row[column]? = some v → v.HasKind kind

/-- The value in a row and a column. -/
def value (t : RowTable) (row column : Nat) : Value :=
  ((t.rows[row]?.getD [])[column]?).getD .null

/-- A cell of a table of rows is the value in its row. -/
theorem cell_eq_ok {t : RowTable} {row column : Nat} (hrow : row < t.rows.length)
    (hcolumn : column < t.schema.length) :
    t.cell row column = .ok (.ofValue (t.value row column)) := by
  rw [cell, checkRow_eq_ok.2 hrow, checkColumn_eq_ok.2 hcolumn]
  rfl

/-- The values of a typed table of rows have the kinds of its columns. -/
theorem Typed.hasKind_value {t : RowTable} (h : t.Typed) {row column : Nat} {name : String}
    {kind : Kind} (hcolumn : t.schema[column]? = some (name, kind)) :
    (t.value row column).HasKind kind := by
  rw [value]
  cases hrow : t.rows[row]? with
  | none => exact .inl rfl
  | some cells =>
      rw [Option.getD_some]
      cases hv : cells[column]? with
      | none => exact .inl rfl
      | some v => exact h cells (List.mem_of_getElem? hrow) hcolumn hv

/-- A column is put together from the values in its rows. -/
theorem column_eq {t : RowTable} {column : Nat} {name : String} {kind : Kind}
    (hcolumn : t.schema[column]? = some (name, kind)) :
    t.column column = Series.ofValues kind
      ((List.range t.rows.length).map fun row => t.value row column) := by
  have hcells : ((List.range t.rows.length).mapM fun row => t.cell row column) =
      .ok ((List.range t.rows.length).map fun row => .ofValue (t.value row column)) :=
    mapM_eq_map fun row hrow => cell_eq_ok (List.mem_range.1 hrow)
      (List.getElem?_eq_some_iff.1 hcolumn).1
  simp only [RowTable.column, hcolumn, hcells]
  show Series.ofValues kind (List.map _ (List.map _ _)) = _
  rw [List.map_map]
  rfl

/-- A column can be put together if its values are of its kind. -/
theorem Typed.column_eq_ok {t : RowTable} (h : t.Typed) {column : Nat} {name : String}
    {kind : Kind} (hcolumn : t.schema[column]? = some (name, kind)) :
    ∃ s, t.column column = .ok s ∧ s.size = t.rows.length ∧ s.type.kind? = some kind := by
  obtain ⟨s, hs⟩ := Series.exists_ofValues_eq_ok
    ((List.range t.rows.length).map fun row => t.value row column)
    (List.forall_mem_map.2 fun row _ => h.hasKind_value hcolumn)
  refine ⟨s, ?_, ?_, ?_⟩
  · rw [column_eq hcolumn, hs]
  · rw [Series.size_ofValues hs, List.length_map, List.length_range]
  · rw [Series.type_ofValues hs, ElementType.kind?_elementType]

end RowTable

/-! ### Tables that hold their data -/

namespace BaseTable

/-- The values are of the kinds of their columns, or null; a column in memory is of one
type. -/
def Typed : BaseTable → Prop
  | memory _ => True
  | rows t => t.Typed

/-- What the table shows. -/
def view (s : BaseTable) : View := ⟨Tabular.rowCount s, Tabular.schema s, s.cell, s.column⟩

/-- A table that holds its data shows it, and is not changed by reading. -/
theorem shows_view (s : BaseTable) : Shows (· = s) s.view where
  rowCount_eq := by
    rintro _ rfl
    rfl
  schema_eq := by
    rintro _ rfl
    rfl
  readCell_eq := by
    rintro _ rfl row column
    rfl
  keeps_readCell := by
    rintro _ rfl row column
    rfl
  readColumn_eq := by
    rintro _ rfl column
    rfl
  keeps_readColumn := by
    rintro _ rfl column
    rfl

/-- Within its bounds a typed table shows everything. -/
theorem complete_view {s : BaseTable} (h : s.Typed) : s.view.Complete := by
  cases s with
  | memory t =>
      constructor
      · intro row hrow column hcolumn
        have hlen : column < t.columns.length := List.length_map (fun _ => _) ▸ hcolumn
        exact ⟨_, MemoryTable.cell_eq_ok hrow (List.getElem?_eq_getElem hlen)⟩
      · intro column name kind hcolumn
        obtain ⟨c, hc, heq⟩ := Option.map_eq_some_iff.1 (List.getElem?_map .. ▸ hcolumn)
        cases heq
        exact ⟨c.series, MemoryTable.series_eq_ok hc, c.size_eq, c.kind_eq⟩
  | rows t =>
      constructor
      · intro row hrow column hcolumn
        exact ⟨_, RowTable.cell_eq_ok hrow hcolumn⟩
      · intro column name kind hcolumn
        exact h.column_eq_ok hcolumn

end BaseTable

end FormulaTable
