import FormulaTable.Proofs.Table.Progress

/-!
# What a computed table can be relied on for

Two properties of every state of every run over a table that holds its data. What is kept
and what is read comes from the definitions of the columns and from the stored data alone,
whatever was read, kept or forgotten before; and every request within the bounds succeeds.

* `determined_run` — kept results and reads, by the definitions.
* `unstuck_run` — nothing that exists fails to be read.
* `shows_computed` — a computed table over a table that shows a view shows the view of its
  columns, so that it can be the source of another one.
-/

namespace FormulaTable.ComputedTable

open Access

variable {σ : Type} [Tabular σ] {P : σ → Prop} {v : View} {t : ComputedTable σ}
  {columns : List Column}

/-- A computed table shows what its definitions make of the view of its source. -/
theorem shows_computed (hP : Shows P v) (hv : v.Complete) (columns : List Column) :
    Shows (ReadyFor (σ := σ) P v columns) (v.computed columns) where
  rowCount_eq t ht := hP.rowCount_eq t.source ht.1.source
  schema_eq t ht := by
    obtain ⟨-, rfl⟩ := ht
    rfl
  readCell_eq t ht row column := readCell_eq hP hv ht row column
  keeps_readCell t ht row column :=
    ((kept_faithful hP columns).keeps_readCell row column t ht).1
  readColumn_eq t ht column := readColumn_eq hP hv ht column
  keeps_readColumn t ht column :=
    ((kept_faithful hP columns).keeps_readColumn column t ht).1

/-! ### Results by definition -/

/-- What a table keeps and shows is determined by its columns and by what its source
shows. -/
structure Determined (v : View) (t : ComputedTable σ) : Prop where
  /-- A kept result is that of the column's definition, with the messages of its
  failures. -/
  cached : ∀ slot ∈ t.slots, ∀ e, slot.cached = some e →
    v.result t.columns slot.column = .ok e
  /-- It comes from a run of the computation on the inputs that the definitions give. -/
  run : ∀ slot ∈ t.slots, ∀ e, slot.cached = some e →
    ∃ x inputs, slot.column.computation? = some x ∧
    x.inputs.mapM (v.input t.columns slot.column) = .ok inputs ∧
    x.evaluateRows inputs v.rows = .ok e
  /-- The results of the definitions are recursive: an input is a stored column or a
  result. -/
  recursive : ∀ c ∈ t.columns, v.result t.columns c =
    v.resultFrom (v.inputFrom t.columns (v.result t.columns)) c
  cell : ∀ row column, ((readCell row column).on t).1 =
    (v.computed t.columns).cell row column
  series : ∀ column, ((readColumn column).on t).1 = (v.computed t.columns).series column

/-- A faithful table is determined by its definitions and its source. -/
theorem Faithful.determined (hP : Shows P v) (hv : v.Complete) (h : t.Faithful P v) :
    t.Determined v where
  cached := h.coherent
  run slot hslot e he :=
    (View.result_eq_ok h.wellFormed.describes (List.mem_map_of_mem hslot)).1
      (h.coherent slot hslot e he)
  recursive _ hc := View.result_eq h.wellFormed.describes hc
  cell := readCell_eq hP hv ⟨h, rfl⟩
  series := readColumn_eq hP hv ⟨h, rfl⟩

/-- **Kept results are coherent**: over stored data, whatever is kept after a run is the
result of the current definitions, and so is whatever is read. -/
theorem determined_run {s : BaseTable} (hs : s.Typed) {registry : Registry}
    {config : Config} {t : ComputedTable BaseTable} (h : create s registry config = .ok t)
    (ops : List Operation) :
    (t.run ops).Determined s.view :=
  (faithful_run s.shows_view (faithful_of_create s.shows_view rfl h) ops).determined
    s.shows_view
    (BaseTable.complete_view hs)

/-- A column that is read, then computed otherwise, and evaluated again. -/
theorem determined_run_replaced :
    BaseTable.singleColumn.Typed ∧
      create BaseTable.singleColumn .standard .standard = .ok (singleColumn .standard) ∧
      ((singleColumn .standard).run
        [.edit (.add "b" (.applied .add "a" 1 .standard)), .readCell 0 1,
          .edit (.set "b" (.applied .mul "a" 3 .standard)), .materializeAll]).Determined
        BaseTable.singleColumn.view := by
  have hs : BaseTable.singleColumn.Typed := trivial
  exact ⟨hs, create_singleColumn rfl, determined_run hs (create_singleColumn rfl) _⟩

/-! ### Requests within the bounds -/

/-- Every request within the bounds succeeds, and no check of an evaluation fires. -/
structure Unstuck (t : ComputedTable σ) : Prop where
  materialize : ∀ c ∈ t.columns, ((materialize c.name).on t).1 = .ok ()
  materializeAll : ∃ n, (materializeAll.on t).1 = .ok n
  readCell : ∀ row < Tabular.rowCount t.source, ∀ column < t.columns.length,
    ∃ cell, ((readCell row column).on t).1 = .ok cell
  readCellError : ∀ row < Tabular.rowCount t.source, ∀ column < t.columns.length,
    ∃ message, ((readCellError row column).on t).1 = .ok message
  readRow : ∀ row < Tabular.rowCount t.source, ∃ cells,
    ((Tabular.readRow row).on t).1 = .ok cells ∧ cells.length = t.columns.length
  readColumn : ∀ column < t.columns.length, ∃ s, ((readColumn column).on t).1 = .ok s
  /-- The inputs that a column reads suit its computation. -/
  checkInputs : ∀ c ∈ t.columns, ∀ x inputs, c.computation? = some x →
    ((x.inputs.mapM (readInput c)).on t).1 = .ok inputs →
      x.checkInputs inputs (Tabular.rowCount t.source) = .ok ()

section

variable (hP : Shows P v) (hv : v.Complete) (ht : t.ReadyFor P v columns)

include hP hv ht

omit hP in
/-- What the definitions make of a complete view is complete. -/
theorem ReadyFor.complete_computed : (v.computed columns).Complete := by
  obtain ⟨hfaith, rfl⟩ := ht
  exact View.complete_computed hfaith.wellFormed.describes hv hfaith.wellFormed.hosts

/-- Every cell of the table can be read. -/
theorem exists_readCell_eq_ok {row column : Nat} (hrow : row < v.rows)
    (hcolumn : column < columns.length) :
    ∃ cell, ((ComputedTable.readCell row column).on t).1 = .ok cell := by
  have hlen : column < (v.computed columns).schema.length := by
    rwa [View.computed, List.length_map]
  rw [readCell_eq hP hv ht]
  exact (ht.complete_computed hv).cell row hrow column hlen

/-- Every column of the table can be read. -/
theorem exists_readColumn_eq_ok {column : Nat} (hcolumn : column < columns.length) :
    ∃ s, ((ComputedTable.readColumn column).on t).1 = .ok s := by
  have hlen : column < (v.computed columns).schema.length := by
    rwa [View.computed, List.length_map]
  rw [readColumn_eq hP hv ht]
  exact ((ht.complete_computed hv).series (List.getElem?_eq_getElem hlen)).imp
    fun _ hs => hs.1

/-- A column of the table can be materialized by its name. -/
theorem materialize_eq_ok {c : Column} (hc : c ∈ columns) :
    ((ComputedTable.materialize c.name).on t).1 = .ok () := by
  have hdescribes := ht.2 ▸ ht.1.wellFormed.describes
  by_cases hname : c.name = ""
  · obtain ⟨n, hn, -⟩ := ensures_materializeAll hP hv hdescribes t ht
    rw [hname, materialize_empty, on_bind_ok (Prod.ext hn rfl)]
    rfl
  · obtain ⟨p, hp⟩ := List.mem_iff_getElem?.1 hc
    have hpos : t.position c.name = .ok p := hdescribes.position_eq_ok.2 ⟨c, hp, rfl⟩
    have hcol := hp
    rw [← ht.2, columns_getElem?] at hcol
    obtain ⟨slot, hslot, rfl⟩ := Option.map_eq_some_iff.1 hcol
    cases hcomputed : slot.column.isComputed with
    | false => rw [on_materialize_of_stored hname hpos hslot hcomputed]
    | true =>
        obtain ⟨e, he, -⟩ := ensures_materializeAt hP hv hdescribes hp hcomputed t ht
        rw [on_materialize_of_isComputed hname hpos hslot hcomputed,
          on_bind_ok (Prod.ext he rfl)]
        rfl

/-- A row can be read, with a cell for each column. -/
theorem exists_readRow_eq_ok {row : Nat} (hrow : row < v.rows) : ∃ cells,
    ((Tabular.readRow row : Access (ComputedTable σ) (List Cell)).on t).1 = .ok cells ∧
      cells.length = columns.length := by
  obtain ⟨cells, hok, hall⟩ :=
    (shows_computed hP hv columns).exists_readRow_eq_ok (ht.complete_computed hv) ht hrow
  refine ⟨cells, hok, ?_⟩
  rw [← hall.length_eq, List.length_range]
  exact List.length_map _

/-- **Every request within the bounds succeeds.** -/
theorem ReadyFor.unstuck : t.Unstuck where
  materialize c hc := materialize_eq_ok hP hv ht (ht.2 ▸ hc)
  materializeAll :=
    (ensures_materializeAll hP hv (ht.2 ▸ ht.1.wellFormed.describes) t ht).imp
      fun _ h => h.1
  readCell row hrow column hcolumn :=
    exists_readCell_eq_ok hP hv ht (hP.rowCount_eq _ ht.1.source ▸ hrow) (ht.2 ▸ hcolumn)
  readCellError row hrow column hcolumn := by
    obtain ⟨cell, hcell⟩ :=
      exists_readCell_eq_ok hP hv ht (hP.rowCount_eq _ ht.1.source ▸ hrow)
      (ht.2 ▸ hcolumn)
    refine ⟨cell.error, ?_⟩
    rw [ComputedTable.readCellError, on_bind_ok (Prod.ext hcell rfl)]
    rfl
  readRow row hrow := by
    rw [ht.2]
    exact exists_readRow_eq_ok hP hv ht (hP.rowCount_eq _ ht.1.source ▸ hrow)
  readColumn column hcolumn := exists_readColumn_eq_ok hP hv ht (ht.2 ▸ hcolumn)
  checkInputs c hc x inputs hx hinputs := by
    obtain ⟨hfaith, rfl⟩ := ht
    have hdescribes := hfaith.wellFormed.describes
    obtain ⟨p, hp⟩ := List.mem_iff_getElem?.1 hc
    have hcomputed : c.isComputed := by rw [Column.isComputed, hx]; rfl
    obtain ⟨e, he⟩ :=
      View.exists_result_eq_ok hdescribes hv hfaith.wellFormed.hosts hp hcomputed
    obtain ⟨y, inputs', hy, hinputs', hrun⟩ := (View.result_eq_ok hdescribes hc).1 he
    rw [hx] at hy
    cases hy
    -- What is read are the inputs that the definitions give, and on those the run succeeds.
    have hread := (Keeps.mapM fun input (_ : input ∈ x.inputs) =>
      ((undisturbed_readyFor hP t.columns).keeps_readInput c input).imp fun _ hs =>
        input_eq_ok_of_inputSeries hP (fun _ ht => ht) hs) t ⟨hfaith, rfl⟩
    have hsame := hread.2 inputs hinputs
    rw [mapM_eq_ok.2 hsame] at hinputs'
    cases hinputs'
    rw [hP.rowCount_eq _ hfaith.source]
    exact Computation.checkInputs_eq_ok.2 (Computation.evaluateRows_eq_ok.1 hrun).1

end

/-- **Evaluation never gets stuck**: over stored data every request within the bounds
succeeds after every run; and a column of a kind takes every value that is converted to the
kind, and every stand-in for it. -/
theorem unstuck_run {s : BaseTable} (hs : s.Typed) {registry : Registry} {config : Config}
    {t : ComputedTable BaseTable} (h : create s registry config = .ok t) :
    (∀ ops, (t.run ops).Unstuck) ∧
      (∀ (b : SeriesBuilder) (v w : Value), v.convert b.kind = .ok w →
          ∃ b', b.append w = .ok b') ∧
      ∀ (b : SeriesBuilder) (c : Config) (message : String),
        ∃ b', b.append (c.marker message b.kind) = .ok b' := by
  have happend : ∀ (b : SeriesBuilder) {v : Value}, v.HasKind b.kind →
      ∃ b', b.append v = .ok b' := by
    intro b v hkind
    obtain ⟨cell, hcell⟩ := Option.isSome_iff_exists.1 (Kind.isSome_store?.2 hkind)
    refine ⟨b.push cell, ?_⟩
    rw [SeriesBuilder.append, hcell]
  refine ⟨fun ops => ?_, fun b v w hw => happend b (Value.hasKind_of_convert hw),
    fun b c message => happend b (c.hasKind_marker message b.kind)⟩
  have hfaith := faithful_run s.shows_view (faithful_of_create s.shows_view rfl h) ops
  exact ReadyFor.unstuck s.shows_view (BaseTable.complete_view hs) ⟨hfaith, rfl⟩

/-- The tables over one stored column. -/
theorem unstuck_run_singleColumn :
    BaseTable.singleColumn.Typed ∧
      create BaseTable.singleColumn .standard .standard = .ok (singleColumn .standard) ∧
      ∀ ops, ((singleColumn .standard).run ops).Unstuck := by
  have hs : BaseTable.singleColumn.Typed := trivial
  exact ⟨hs, create_singleColumn rfl, (unstuck_run hs (create_singleColumn rfl)).1⟩

end FormulaTable.ComputedTable
