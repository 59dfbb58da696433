import FormulaTable.Proofs.Table.Marker

/-!
# One table, several ways to read it

A cell can be read by itself, with its row, or out of its column, and each layer of a stack
answers in its own way: from the layer below, from a result that it keeps, or after an
evaluation. All ways give the same. The stacks are those in use: a layer is built over a
finished one, of which it only reads, and every layer may be read at any time, also past
those above it, so that each may keep any of its results.

* `Stack.Reachable` — the stacks in use.
* `Stack.reads_agree` — in all of them the ways to read agree.
-/

namespace FormulaTable

open Access

/-! ### Values that cannot be read -/

/-- The element of a row is present, and has no value of the kind of the column. -/
def StoredColumn.Unreadable {rows : Nat} (c : StoredColumn rows) (row : Nat) : Prop :=
  ∃ x, c.series.cells[row]? = some (some x) ∧ c.series.type.read? x = none

/-- The element in a row and a column is held in memory and cannot be read. -/
def BaseTable.Unreadable : BaseTable → Nat → Nat → Prop
  | .memory t, row, column => ∃ c, t.columns[column]? = some c ∧ c.Unreadable row
  | .rows _, _, _ => False

/-- The element that a stored column of the stack shows in a row cannot be read. -/
def Stack.Unreadable : (n : Nat) → Stack n → Nat → Nat → Prop
  | 0, s, row, column => BaseTable.Unreadable s row column
  | n + 1, t, row, column => ∃ c i k, (ComputedTable.columns t)[column]? = some c ∧
      c.content = .stored i k ∧ Unreadable n (ComputedTable.source t) row i

/-- A stored element has no value exactly if it cannot be read. -/
theorem StoredColumn.value?_eq_none {rows : Nat} {c : StoredColumn rows} {row : Nat} :
    c.series.value? row = none ↔ c.Unreadable row := by
  rw [Series.value?, if_pos (ElementType.isReadable_of_kind? c.kind_eq),
    StoredColumn.Unreadable]
  constructor
  · split
    case h_1 x hx => exact fun h => ⟨x, hx, h⟩
    case h_2 => rintro ⟨⟩
  · rintro ⟨x, hx, hread⟩
    rw [hx]
    exact hread

/-- A column gives the value of the cell, unless the element cannot be read: then it gives
none, and the cell is null with a message. -/
structure Cell.ReadFrom (c : Cell) (s : Series) (row : Nat) (unreadable : Prop) : Prop where
  value : ¬ unreadable → s.value? row = some c.value
  none : unreadable → s.value? row = none ∧ c.value = .null ∧ c.isError

/-- A stored cell shows what is read from its series, or that nothing can be. -/
theorem StoredColumn.cell_readFrom {rows : Nat} (c : StoredColumn rows) (row : Nat) :
    (c.cell row).ReadFrom c.series row (c.Unreadable row) := by
  rw [← value?_eq_none, StoredColumn.cell]
  cases hvalue : c.series.value? row with
  | none => exact ⟨fun h => absurd rfl h, fun _ => ⟨hvalue, rfl, rfl⟩⟩
  | some w => exact ⟨fun _ => hvalue, fun h => nomatch h⟩

/-- In a table that holds its data, columns give the values of the cells. -/
theorem BaseTable.exists_readFrom {s : BaseTable} (hs : s.Typed) {row column : Nat}
    (hrow : row < s.view.rows) (hcolumn : column < s.view.schema.length) :
    ∃ c series, s.view.cell row column = .ok c ∧
      s.view.series column = .ok series ∧
      c.ReadFrom series row (s.Unreadable row column) := by
  cases s with
  | memory t =>
      have hlen : column < t.columns.length := List.length_map (fun _ => _) ▸ hcolumn
      have hc := List.getElem?_eq_getElem hlen
      have hiff : (memory t).Unreadable row column ↔ t.columns[column].Unreadable row :=
        ⟨fun ⟨c, hc', h⟩ => Option.some.inj (hc.symm.trans hc') ▸ h, fun h => ⟨_, hc, h⟩⟩
      refine ⟨_, _, MemoryTable.cell_eq_ok hrow hc, MemoryTable.series_eq_ok hc, ?_⟩
      rw [hiff]
      exact t.columns[column].cell_readFrom row
  | rows t =>
      have hschema : t.schema[column]? = some (t.schema[column].1, t.schema[column].2) :=
        List.getElem?_eq_getElem hcolumn
      obtain ⟨series, hseries, -⟩ := RowTable.Typed.column_eq_ok hs hschema
      refine ⟨_, series, RowTable.cell_eq_ok hrow hcolumn, hseries, fun _ => ?_,
        fun h => h.elim⟩
      rw [RowTable.column_eq hschema] at hseries
      have hlen : row < t.rows.length := hrow
      refine Series.value?_ofValues hseries ?_
      rw [List.getElem?_map, List.getElem?_range hlen]
      rfl

/-! ### Stacks in use -/

namespace Stack

/-- The stack after an operation on the layer that is a number of layers below the top. The
base is not changed by any. -/
def perform : (n : Nat) → Nat → Operation → Stack n → Stack n
  | 0, _, _, s => s
  | n + 1, 0, op, t => (op.perform (σ := Stack n).on t).2
  | n + 1, depth + 1, op, t =>
    ({ (t : ComputedTable (Stack n)) with
        source := perform n depth op (ComputedTable.source t) } :
      ComputedTable (Stack n))

/-- The position of the column of a name: a base goes through its columns, a computed table
asks its graph. -/
def position? : (n : Nat) → Stack n → String → Option Nat
  | 0, s, name => Tabular.columnIndex? (σ := BaseTable) s name
  | _ + 1, t, name => (ComputedTable.graph t).position? name

/-- The stacks in use. The top is edited and read at will; below it everything is done
except edits. -/
inductive Reachable : (n : Nat) → Stack n → Prop
  | base {s : BaseTable} (typed : s.Typed)
      (distinct : ((Tabular.schema s).map (·.1)).Nodup) :
      Reachable 0 s
  | layer {n : Nat} {s : Stack n} {t : ComputedTable (Stack n)} (registry : Registry)
    (config : Config)
      (source : Reachable n s) (create : ComputedTable.create s registry config = .ok t) :
      Reachable (n + 1) t
  | atTop {n : Nat} {t : Stack (n + 1)} (op : Operation) (before : Reachable (n + 1) t) :
      Reachable (n + 1) (perform (n + 1) 0 op t)
  | beneath {n : Nat} {t : Stack (n + 1)} (depth : Nat) {op : Operation}
    (noEdit : ∀ e, op ≠ .edit e)
      (before : Reachable (n + 1) t) : Reachable (n + 1) (perform (n + 1) (depth + 1) op t)

/-! ### What stacks that are only read show -/

/-- All stacks with `P` show the view, in which cells and columns agree, and keep `P` when
any layer of theirs is read. -/
structure Displays (n : Nat) (P : Stack n → Prop) (v : View) : Prop where
  shows : Shows P v
  complete : v.Complete
  nodup : (v.schema.map (·.1)).Nodup
  perform : ∀ s, P s → ∀ depth op, (∀ e, op ≠ .edit e) → P (perform n depth op s)
  cell : ∀ s, P s → ∀ row < v.rows, ∀ column < v.schema.length, ∃ c series,
    v.cell row column = .ok c ∧ v.series column = .ok series ∧
      c.ReadFrom series row (Unreadable n s row column)
  position : ∀ s, P s → ∀ column name kind, v.schema[column]? = some (name, kind) →
    position? n s name = some column

/-- A column with a distinct name is found under it. -/
theorem idxOf?_name {schema : List (String × Kind)} (h : (schema.map (·.1)).Nodup)
    {column : Nat} {name : String} {kind : Kind}
    (hcolumn : schema[column]? = some (name, kind)) :
    (schema.map (·.1)).idxOf? name = some column := by
  rw [idxOf?_eq_some_of_nodup h, List.getElem?_map, hcolumn]
  rfl

/-- A table that holds its data displays it. -/
theorem displays_base {s : BaseTable} (hs : s.Typed)
    (hnames : ((Tabular.schema s).map (·.1)).Nodup) :
    Displays 0 (· = s) s.view where
  shows := s.shows_view
  complete := BaseTable.complete_view hs
  nodup := hnames
  perform := by
    rintro _ rfl depth op -
    rfl
  cell := by
    rintro _ rfl row hrow column hcolumn
    exact BaseTable.exists_readFrom hs hrow hcolumn
  position := by
    rintro _ rfl column name kind hcolumn
    exact idxOf?_name hnames hcolumn

section

variable {n : Nat} {P : Stack n → Prop} {v : View} {columns : List Column}
  {t : ComputedTable (Stack n)}

/-- A computed column gives the values of its cells, none of which is unreadable. -/
theorem readFrom_result (ht : t.ReadyFor P v columns) {row column : Nat}
    (hrow : row < v.rows) {c : Column} (hc : columns[column]? = some c)
    (hcomputed : c.isComputed) {e : Evaluated} (he : v.result columns c = .ok e) :
    (e.cell row).ReadFrom e.series row (Unreadable (n + 1) t row column) := by
  obtain ⟨hfaith, rfl⟩ := ht
  have hmem := List.mem_of_getElem? hc
  obtain ⟨x, inputs, -, -, hrun⟩ :=
    (View.result_eq_ok hfaith.wellFormed.describes hmem).1 he
  refine ⟨fun _ => Computation.value?_eq_some_cell hrun hrow, ?_⟩
  rintro ⟨d, i, k, hd, hcontent, -⟩
  obtain rfl : c = d := Option.some.inj (hc.symm.trans hd)
  exact absurd hcontent (Column.isComputed_iff.1 hcomputed i k)

/-- A stored column is read like the column of the source that it shows. -/
theorem unreadable_stored (ht : t.columns = columns) {row column i : Nat} {k : Kind}
    {c : Column} (hc : columns[column]? = some c) (hcontent : c.content = .stored i k) :
    Unreadable (n + 1) t row column ↔ Unreadable n t.source row i := by
  subst ht
  constructor
  · rintro ⟨d, j, k', hd, hcontent', h⟩
    obtain rfl : c = d := Option.some.inj (hc.symm.trans hd)
    rw [hcontent] at hcontent'
    cases hcontent'
    exact h
  · exact fun h => ⟨c, i, k, hc, hcontent, h⟩

/-- A computed view has the names of its columns. -/
theorem map_name_computed (v : View) (columns : List Column) :
    (v.computed columns).schema.map (·.1) = columns.map (·.name) := by
  rw [View.computed, List.map_map]
  rfl

/-- **One more layer**: over stacks that display a view, a computed table displays the view
of its columns. -/
theorem Displays.layer (h : Displays n P v) (ht : t.Faithful P v) :
    Displays (n + 1) (ComputedTable.ReadyFor P v t.columns) (v.computed t.columns) where
  shows := ComputedTable.shows_computed h.shows h.complete t.columns
  complete := ComputedTable.ReadyFor.complete_computed h.complete ⟨ht, rfl⟩
  nodup := by
    rw [map_name_computed]
    exact ht.wellFormed.describes.nodup
  perform t' ht' depth op hop := by
    cases depth with
    | zero =>
        exact ((ComputedTable.kept_faithful h.shows t.columns).keeps_perform hop t' ht').1
    | succ depth =>
        have hsource := h.perform _ ht'.1.source depth op hop
        refine ⟨ht'.1.of_slots_eq rfl rfl hsource ?_, ht'.2⟩
        exact (h.shows.schema_eq _ hsource).trans (h.shows.schema_eq _ ht'.1.source).symm
  cell t' ht' row hrow column hcolumn := by
    have hlen : column < t.columns.length := by
      rwa [View.computed, List.length_map] at hcolumn
    have hrow : row < v.rows := hrow
    have hc := List.getElem?_eq_getElem hlen
    rcases t.columns[column].stored_or_isComputed with ⟨i, hcontent⟩ | hcomputed
    · have hsource : t.columns[column].source? = some i := by rw [Column.source?, hcontent]
      obtain ⟨name, kind, hschema, -⟩ :=
        ht.wellFormed.hosts _ (List.mem_of_getElem? hc) i hsource
      rw [View.computed_cell_stored hrow hc hcontent,
        View.computed_series_stored hc hcontent, unreadable_stored ht'.2 hc hcontent]
      exact h.cell _ ht'.1.source row hrow i (List.getElem?_eq_some_iff.1 hschema).1
    · obtain ⟨e, he⟩ :=
        View.exists_result_eq_ok ht.wellFormed.describes h.complete ht.wellFormed.hosts hc
        hcomputed
      rw [View.computed_cell_computed hrow hc hcomputed,
        View.computed_series_computed hc hcomputed, he]
      exact ⟨_, _, rfl, rfl, readFrom_result ht' hrow hc hcomputed he⟩
  position t' ht' column name kind hcolumn := by
    have hdescribes := ht'.2 ▸ ht'.1.wellFormed.describes
    have hfind :=
      idxOf?_name ((map_name_computed v t.columns).symm ▸ hdescribes.nodup) hcolumn
    rwa [map_name_computed, ← hdescribes.names_eq] at hfind

end

/-! ### Every stack in use -/

/-- A base with distinct names that holds what it declares, or a computed table whose kept
results are right, over a stack that displays a view. -/
def Sound : (n : Nat) → Stack n → Prop
  | 0, s => BaseTable.Typed s ∧ ((Tabular.schema (σ := BaseTable) s).map (·.1)).Nodup
  | n + 1, t => ∃ P v, Displays n P v ∧ ComputedTable.Faithful P v t

variable {n : Nat} {s : Stack n}

/-- A sound stack displays some view. -/
theorem Sound.exists_displays (h : Sound n s) : ∃ P v, Displays n P v ∧ P s := by
  cases n with
  | zero => exact ⟨_, _, displays_base h.1 h.2, rfl⟩
  | succ n =>
      obtain ⟨P, v, hdisplays, hs⟩ := h
      exact ⟨_, _, hdisplays.layer hs, hs, rfl⟩

/-- **Stacks in use are sound**, by induction on how they came about. -/
theorem Reachable.sound (h : Reachable n s) : Sound n s := by
  induction h with
  | base typed distinct => exact ⟨typed, distinct⟩
  | layer registry config _ hcreate ih =>
      obtain ⟨P, v, hdisplays, hs⟩ := ih.exists_displays
      exact ⟨P, v, hdisplays, ComputedTable.faithful_of_create hdisplays.shows hs hcreate⟩
  | atTop op _ ih =>
      obtain ⟨P, v, hdisplays, ht⟩ := ih
      exact ⟨P, v, hdisplays, ht.perform hdisplays.shows op⟩
  | beneath depth noEdit _ ih =>
      obtain ⟨P, v, hdisplays, ht⟩ := ih
      exact ⟨P, v, hdisplays,
        ((hdisplays.layer ht).perform _ ⟨ht, rfl⟩ (depth + 1) _ noEdit).1⟩

/-- All ways to read the stack succeed within its bounds, and agree. -/
structure ReadsAgree (n : Nat) (s : Stack n) : Prop where
  /-- A row consists of its cells. -/
  row : ∀ row < Tabular.rowCount s, ∃ cells, ((Tabular.readRow row).on s).1 = .ok cells ∧
    List.Forall₂ (fun column cell => ((Tabular.readCell row column).on s).1 = .ok cell)
      (List.range (Tabular.columnCount s)) cells
  /-- A column has an element for each row, and a type for the kind that is declared. -/
  column : ∀ column < Tabular.columnCount s, ∃ series kind,
    ((Tabular.readColumn column).on s).1 = .ok series ∧ series.size = Tabular.rowCount s ∧
      Tabular.columnKind s column = .ok kind ∧ series.type.kind? = some kind
  /-- A column gives the value of the cell, unless what is stored cannot be read. -/
  cell : ∀ row < Tabular.rowCount s, ∀ column < Tabular.columnCount s, ∃ cell series,
    ((Tabular.readCell row column).on s).1 = .ok cell ∧
      ((Tabular.readColumn column).on s).1 = .ok series ∧
      cell.ReadFrom series row (Unreadable n s row column)
  /-- A column is found under its name. -/
  name : ∀ column < Tabular.columnCount s, ∃ name, Tabular.columnName s column = .ok name ∧
    Tabular.columnIndex? s name = some column ∧ position? n s name = some column
  /-- What is read stays the same, whatever is read, kept or forgotten in between, on any
  layer. -/
  steady : ∀ depth op, (∀ e, op ≠ .edit e) →
    (∀ row column, ((Tabular.readCell row column).on (perform n depth op s)).1 =
      ((Tabular.readCell row column).on s).1) ∧
    ∀ column, ((Tabular.readColumn column).on (perform n depth op s)).1 =
      ((Tabular.readColumn column).on s).1

/-- All ways to read a stack agree with the view that it displays. -/
theorem Displays.readsAgree {P : Stack n → Prop} {v : View} (h : Displays n P v)
    (hs : P s) :
    ReadsAgree n s := by
  have hcolumns : Tabular.columnCount s = v.schema.length := by
    rw [Tabular.columnCount, h.shows.schema_eq s hs]
  constructor
  · intro row hrow
    rw [h.shows.rowCount_eq s hs] at hrow
    obtain ⟨cells, hok, hall⟩ := h.shows.exists_readRow_eq_ok h.complete hs hrow
    refine ⟨cells, hok, ?_⟩
    rw [hcolumns]
    exact hall.imp fun column cell hcell =>
      (h.shows.readCell_eq s hs row column).trans hcell
  · intro column hcolumn
    have hc := List.getElem?_eq_getElem (hcolumns ▸ hcolumn)
    obtain ⟨series, hseries, hsize, hkind⟩ := h.complete.series hc
    refine ⟨series, _, (h.shows.readColumn_eq s hs column).trans hseries, ?_, ?_, hkind⟩
    · rw [hsize, h.shows.rowCount_eq s hs]
    · rw [Tabular.columnKind, Tabular.columnAt, h.shows.schema_eq s hs, hc]
      rfl
  · intro row hrow column hcolumn
    obtain ⟨cell, series, hcell, hseries, hread⟩ :=
      h.cell s hs row (h.shows.rowCount_eq s hs ▸ hrow) column (hcolumns ▸ hcolumn)
    exact ⟨cell, series, (h.shows.readCell_eq s hs row column).trans hcell,
      (h.shows.readColumn_eq s hs column).trans hseries, hread⟩
  · intro column hcolumn
    have hc := List.getElem?_eq_getElem (hcolumns ▸ hcolumn)
    refine ⟨_, ?_, ?_, h.position s hs column _ _ hc⟩
    · rw [Tabular.columnName, Tabular.columnAt, h.shows.schema_eq s hs, hc]
      rfl
    · rw [Tabular.columnIndex?, h.shows.schema_eq s hs]
      exact idxOf?_name h.nodup hc
  · intro depth op hop
    have hs' := h.perform s hs depth op hop
    exact ⟨fun row column => (h.shows.readCell_eq _ hs' row column).trans
        (h.shows.readCell_eq s hs row column).symm,
      fun column => (h.shows.readColumn_eq _ hs' column).trans
        (h.shows.readColumn_eq s hs column).symm⟩

/-- **All ways to read a stack in use agree**, whatever its layers keep. -/
theorem reads_agree (h : Reachable n s) : ReadsAgree n s := by
  obtain ⟨P, v, hdisplays, hs⟩ := h.sound.exists_displays
  exact hdisplays.readsAgree hs

/-- A computed table that shows one stored column, with nothing added to it. -/
def plainLayer {n : Nat} (source : Stack n) : Stack (n + 1) :=
  (⟨source, .standard, .standard, [⟨.stored "a" .int64 0, none⟩], ⟨["a"], [[]]⟩, 0, 0⟩ :
    ComputedTable (Stack n))

/-- A table in memory with one number, which is too large to be read. -/
def oversized : Stack 0 :=
  BaseTable.memory
    ⟨1, [⟨"a", .int64, ⟨.uint64, #[some (0xFFFFFFFFFFFFFFFF : UInt64)]⟩, rfl, rfl⟩], []⟩

/-- Two layers over it, after a column was added at the top and the lower layer was read. -/
def oversizedInUse : Stack 2 :=
  perform 2 1 (.readCell 0 0)
    (perform 2 0 (.edit (.add "b" (.applied .add "a" 1 .standard)))
        (plainLayer (plainLayer oversized)))

/-- The number cannot be read at the top either, and all ways to read say so. -/
theorem reads_agree_oversized :
    Unreadable 2 (plainLayer (plainLayer oversized)) 0 0 ∧ Reachable 2 oversizedInUse ∧
      ReadsAgree 2 oversizedInUse := by
  have hbase : Reachable 0 oversized := .base trivial (List.nodup_singleton _)
  have hlower : Reachable 1 (plainLayer oversized) := .layer .standard .standard hbase rfl
  have hupper : Reachable 2 (plainLayer (plainLayer oversized)) :=
    .layer .standard .standard hlower rfl
  have h : Reachable 2 oversizedInUse :=
    (hupper.atTop (.edit (.add "b" (.applied .add "a" 1 .standard)))).beneath 0
      (by rintro e ⟨⟩)
  have hlarge : int64? (0xFFFFFFFFFFFFFFFF : UInt64).toNat = none :=
    int64?_eq_none.2 (by decide)
  have hread : ElementType.uint64.read? (0xFFFFFFFFFFFFFFFF : UInt64) = none := by
    simp only [ElementType.read?, hlarge, Option.map_none]
  exact ⟨⟨_, 0, .int64, rfl, rfl, _, 0, .int64, rfl, rfl, _, rfl, _, rfl, hread⟩, h,
    reads_agree h⟩

end Stack
end FormulaTable
