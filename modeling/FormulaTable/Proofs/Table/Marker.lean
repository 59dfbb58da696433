import FormulaTable.Proofs.Table.Contract
import FormulaTable.Proofs.Table.Unmarked

/-!
# When markers pass for data

A failed row holds a marker, and a message says so. A column that reads another one is given
the values of the other one without their messages, and takes the markers among them for
data. Two tables whose computations differ in their markers alone show the same in a row as
long as no failed cell that is read there shows one marker in the first table and another
one in the second; and where a failed cell does, a column that copies it holds different
data in the two tables, with no message.

* `View.agree_computed` — cells agree if the failed cells that they go back to show the same
  markers.
* `View.computed_cell_copy` — the copy of a cell is its value, without its message.
* `markersMatter_run` — both, for the tables after alike runs.
-/

namespace FormulaTable

/-- Both cells are failures with one message, or both hold the same data. -/
structure Cell.Agrees (c c' : Cell) : Prop where
  error_eq : c.error = c'.error
  eq_of_data : c.error = none → c = c'

/-! ### Rows of computations that differ in their markers -/

namespace Computation

variable {x x' : Computation} {inputs inputs' : List Series} {row : Nat}

/-- The result of a row comes from the values of the inputs in the row. -/
theorem evalRow_congr (hx : x.Alike x')
    (hinputs : List.Forall₂ (fun s s' => s.value? row = s'.value? row) inputs inputs') :
    x.evalRow inputs row = x'.evalRow inputs' row := by
  have hread : x.readRow inputs row = x.readRow inputs' row :=
    mapM_zip_congr (hinputs.imp fun s s' hs _ => by simp only [readInput, hs]) x.inputs
  have hread' : x.readRow inputs' row = x'.readRow inputs' row := by
    rw [readRow, readRow, hx.inputs_eq]
  rw [evalRow, evalRow, hread, hread', hx.program_eq, hx.kind_eq]

section

variable {rows : Nat} {e : Evaluated} (h : x.evaluateRows inputs rows = .ok e)
  (hrow : row < rows)

include h hrow

/-- The cell of a row shows the result of the row. -/
theorem cell_evaluateRows : e.cell row = x.cellOf (x.evalRow inputs row) := by
  rw [Evaluated.cell, value?_evaluateRows h hrow, error?_evaluateRows h hrow]
  cases x.evalRow inputs row <;> rfl

/-- A reader of a row is given what the cell shows, with no message. -/
theorem value?_eq_some_cell : e.series.value? row = some (e.cell row).value := by
  rw [cell_evaluateRows h hrow, value?_evaluateRows h hrow]
  cases x.evalRow inputs row <;> rfl

end

/-- Equal results show in cells that agree. -/
theorem agrees_cellOf (r : Except RowError Value) : (x.cellOf r).Agrees (x'.cellOf r) := by
  cases r with
  | ok w => exact ⟨rfl, fun _ => rfl⟩
  | error e => exact ⟨rfl, fun h => nomatch h⟩

end Computation

/-- The formula is the name of a column and no more. -/
structure Computation.Copies (x : Computation) (c : Column) : Prop where
  inputs_eq : x.inputs = [c.name]
  program_eq : x.program = .input 0
  kind_eq : x.kind = c.kind

namespace Computation.Copies

variable {x : Computation} {c : Column} (hx : x.Copies c) {s : Series}

include hx

/-- A computation with one input accepts a column of its kind and length. -/
theorem accepts {rows : Nat} (hsize : s.size = rows) (hkind : s.type.kind? = some c.kind) :
    x.Accepts [s] rows := by
  rw [Computation.Accepts, hx.inputs_eq]
  exact .cons ⟨hsize, ElementType.isReadable_of_kind? hkind⟩ .nil

/-- A copy gives back the value that it reads. -/
theorem evalRow_eq {row : Nat} {w : Value} (hw : s.value? row = some w)
    (hkind : w.HasKind c.kind) :
    x.evalRow [s] row = .ok w := by
  have hread : x.readRow [s] row = .ok [w] := by
    rw [Computation.readRow, hx.inputs_eq, mapM_eq_ok]
    refine .cons ?_ .nil
    simp only [Computation.readInput, hw]
  rw [Computation.evalRow, hread, hx.program_eq, hx.kind_eq]
  exact Value.convert_of_hasKind hkind

end Computation.Copies

/-! ### Cells of alike columns -/

namespace View

/-- The cells in a row and a column of two views agree. -/
def CellsAgree (w w' : View) (row column : Nat) : Prop :=
  ∃ c c', w.cell row column = .ok c ∧ w'.cell row column = .ok c' ∧ c.Agrees c'

/-- If the cells in a row and a column of two views are failures, they show the same
marker. -/
def SameMarker (w w' : View) (row column : Nat) : Prop :=
  ∀ c c', w.cell row column = .ok c → w'.cell row column = .ok c' → c.isError → c'.isError →
    c.value = c'.value

variable {v : View} {columns columns' : List Column} {g : Graph}

/-- Cells that agree, and show the same markers, show the same values. -/
theorem CellsAgree.value_eq {w w' : View} {row column : Nat}
    (h : w.CellsAgree w' row column) (hsame : w.SameMarker w' row column) {c c' : Cell}
    (hc : w.cell row column = .ok c) (hc' : w'.cell row column = .ok c') :
    c.value = c'.value := by
  obtain ⟨d, d', hd, hd', hagree⟩ := h
  rw [hc] at hd
  rw [hc'] at hd'
  cases hd
  cases hd'
  cases herror : c.error with
  | none => rw [hagree.eq_of_data herror]
  | some message =>
      have hfailed : c.isError := by rw [Cell.isError, herror]; rfl
      have hfailed' : c'.isError := by rw [Cell.isError, ← hagree.error_eq, herror]; rfl
      exact hsame c c' hc hc' hfailed hfailed'

/-- What a computed column shows in a row of its result. -/
theorem computed_cell_eq_ok {row p : Nat} (hrow : row < v.rows) {c : Column}
    (hc : columns[p]? = some c) (hcomputed : c.isComputed) {e : Evaluated}
    (he : v.result columns c = .ok e) :
    (v.computed columns).cell row p = .ok (e.cell row) := by
  rw [computed_cell_computed hrow hc hcomputed, he]
  rfl

section

variable (h : g.Describes columns) {row : Nat} (hrow : row < v.rows)

include h hrow

/-- A reader of a computed column is given what its cells show, with no messages. -/
theorem value?_result {c : Column} (hc : c ∈ columns) {e : Evaluated}
    (he : v.result columns c = .ok e) :
    e.series.value? row = some (e.cell row).value := by
  obtain ⟨x, inputs, -, -, hrun⟩ := (result_eq_ok h hc).1 he
  exact Computation.value?_eq_some_cell hrun hrow

variable (halike : AlikeColumns columns columns')

include halike

/-- Alike columns are given the same in a row, if the cells that they read agree and show
the same markers. -/
theorem value?_input_eq {p : Nat} {c c' : Column} (hc : columns[p]? = some c)
    (hcc : c.Alike c')
    (hcells : ∀ q ∈ g.dependencies p, (v.computed columns).CellsAgree (v.computed columns')
        row q ∧ (v.computed columns).SameMarker (v.computed columns') row q)
    {x : Computation} (hx : c.computation? = some x) {name : String}
    (hname : name ∈ x.inputs) {s s' : Series} (hs : v.input columns c name = .ok s)
    (hs' : v.input columns' c' name = .ok s') :
    s.value? row = s'.value? row := by
  have hown' := hcc.own?_eq name
  rw [input] at hs hs'
  cases hown : c.own? name with
  | some i =>
      rw [inputFrom_own hown] at hs
      rw [inputFrom_own (hown'.symm.trans hown), hs] at hs'
      cases hs'
      rfl
  | none =>
      have hdep := Column.mem_dependencies_of_input hx hname hown
      obtain ⟨q, d, hd, hq, hfind⟩ := find?_of_mem_dependencies h hc hdep
      obtain ⟨d', hd', hdd⟩ := halike.exists_getElem? hd
      obtain ⟨hmem, rfl⟩ := (find?_name_eq_some h.nodup).1 hfind
      have hg' := halike.describes h
      have hmem' := List.mem_of_getElem? hd'
      have hfind' : columns'.find? (·.name = d.name) = some d' :=
        (find?_name_eq_some hg'.nodup).2 ⟨hmem', hdd.name_eq.symm⟩
      rcases d.stored_or_isComputed with ⟨i, hcontent⟩ | hcomputed
      · have hcontent' := hdd.content_eq_stored hcontent
        rw [inputFrom_stored hown hfind hcontent] at hs
        rw [inputFrom_stored (hown'.symm.trans hown) hfind' hcontent', hs] at hs'
        cases hs'
        rfl
      · have hcomputed' := hdd.isComputed_eq.symm.trans hcomputed
        rw [inputFrom_computed hown hfind hcomputed] at hs
        rw [inputFrom_computed (hown'.symm.trans hown) hfind' hcomputed'] at hs'
        obtain ⟨e, he, rfl⟩ := map_eq_ok.1 hs
        obtain ⟨e', he', rfl⟩ := map_eq_ok.1 hs'
        obtain ⟨hagree, hsame⟩ := hcells q hq
        rw [value?_result h hrow hmem he, value?_result hg' hrow hmem' he',
          hagree.value_eq hsame
          (computed_cell_eq_ok hrow hd hcomputed he)
            (computed_cell_eq_ok hrow hd' hcomputed' he')]

/-- **Cells agree** if the failed cells that they go back to show the same markers. -/
theorem agree_computed (hv : v.Complete) (hhosts : v.Hosts columns)
    (hhosts' : v.Hosts columns') {p : Nat}
    (hp : p < columns.length)
    (hsame : ∀ q ∈ g.reached p,
          (v.computed columns).SameMarker (v.computed columns') row q) :
    (v.computed columns).CellsAgree (v.computed columns') row p := by
  have hg' := halike.describes h
  induction p using h.wellFounded.induction with
  | _ p ih =>
      have hc := List.getElem?_eq_getElem hp
      have hmem := List.getElem_mem hp
      obtain ⟨c', hc', hcc⟩ := halike.exists_getElem? hc
      rcases columns[p].stored_or_isComputed with ⟨i, hcontent⟩ | hcomputed
      · have hsource : columns[p].source? = some i := by rw [Column.source?, hcontent]
        obtain ⟨name, kind, hschema, -⟩ := hhosts _ hmem i hsource
        obtain ⟨cell, hcell⟩ := hv.cell row hrow i (List.getElem?_eq_some_iff.1 hschema).1
        refine ⟨cell, cell, ?_, ?_, rfl, fun _ => rfl⟩
        · rw [computed_cell_stored hrow hc hcontent, hcell]
        · rw [computed_cell_stored hrow hc' (hcc.content_eq_stored hcontent), hcell]
      · have hcomputed' := hcc.isComputed_eq.symm.trans hcomputed
        obtain ⟨e, he⟩ := exists_result_eq_ok h hv hhosts hc hcomputed
        obtain ⟨e', he'⟩ := exists_result_eq_ok hg' hv hhosts' hc' hcomputed'
        obtain ⟨x, inputs, hx, hinputs, hrun⟩ := (result_eq_ok h hmem).1 he
        obtain ⟨y, inputs', hy, hinputs', hrun'⟩ :=
          (result_eq_ok hg' (List.mem_of_getElem? hc')).1 he'
        obtain ⟨x', hx', hxx⟩ := hcc.exists_computation? hx
        rw [hx'] at hy
        cases hy
        -- The columns that are read agree, and go back to the same failed cells.
        have hcells : ∀ q ∈ g.dependencies p,
            (v.computed columns).CellsAgree (v.computed columns') row q ∧
              (v.computed columns).SameMarker (v.computed columns') row q := by
          intro q hq
          have hlt : q < columns.length := h.size_eq ▸ h.closed p q hq
          refine ⟨ih q hq hlt fun r hr => hsame r ?_,
            hsame q (h.mem_reached.2 (.single hq))⟩
          exact h.mem_reached.2 (.head hq (h.mem_reached.1 hr))
        rw [← hxx.inputs_eq] at hinputs'
        have hvalues := forall₂_of_mapM_eq_ok hinputs hinputs' fun name hname s s' hs hs' =>
          value?_input_eq h hrow halike hc hcc hcells hx hname hs hs'
        refine ⟨_, _, computed_cell_eq_ok hrow hc hcomputed he,
          computed_cell_eq_ok hrow hc' hcomputed' he', ?_⟩
        rw [Computation.cell_evaluateRows hrun hrow,
          Computation.cell_evaluateRows hrun' hrow, Computation.evalRow_congr hxx hvalues]
        exact Computation.agrees_cellOf _

end

/-! ### Copies -/

/-- The value of a computed cell is of the kind of its column. -/
theorem hasKind_cell (h : g.Describes columns) {row : Nat} (hrow : row < v.rows)
    {c : Column} (hc : c ∈ columns) {e : Evaluated} (he : v.result columns c = .ok e) :
    (e.cell row).value.HasKind c.kind := by
  obtain ⟨x, inputs, hx, -, hrun⟩ := (result_eq_ok h hc).1 he
  have hvalue := Computation.value?_eq_some_cell hrun hrow
  rw [Computation.value?_evaluateRows hrun hrow] at hvalue
  rw [← Option.some.inj hvalue, Column.kind_eq_of_computation? hx]
  exact Computation.hasKind_stored row

/-- **The copy of a cell is its value**, without its message. -/
theorem computed_cell_copy (h : g.Describes columns) {row : Nat} (hrow : row < v.rows)
    {q : Nat} {c : Column} (hc : columns[q]? = some c) (hcomputed : c.isComputed)
    {x : Computation} (hx : x.Copies c) {name : String} {g' : Graph}
    (hg' : g'.Describes (columns ++ [.computed name x])) {cell : Cell}
    (hcell : (v.computed columns).cell row q = .ok cell) :
    (v.computed (columns ++ [.computed name x])).cell row columns.length =
      .ok (.ofValue cell.value) := by
  have hmem := List.mem_of_getElem? hc
  have hcopy : (columns ++ [.computed name x])[columns.length]? = some (.computed name x) :=
    List.getElem?_concat_length ..
  rw [computed_cell_computed hrow hc hcomputed] at hcell
  obtain ⟨e, he, rfl⟩ := map_eq_ok.1 hcell
  have hresult : v.result (columns ++ [.computed name x]) c = .ok e := by
    rw [← result_eq_of_subset h hg' (List.subset_append_left ..) hmem, he]
  have hown : (Column.computed name x).own? c.name = none := ite_self none
  have hinput : v.input (columns ++ [.computed name x]) (.computed name x) c.name =
      .ok e.series := by
    have hfind := (find?_name_eq_some hg'.nodup).2 ⟨List.mem_append_left _ hmem, rfl⟩
    rw [input, inputFrom_computed hown hfind hcomputed, hresult]
    rfl
  -- The copy runs on the values of the column, and gives back each of them.
  obtain ⟨hsize, hkind⟩ := readable_of_result_eq_ok h hmem he
  obtain ⟨e', hrun⟩ := Computation.exists_evaluateRows_eq_ok (hx.accepts hsize hkind)
  have he' : v.result (columns ++ [.computed name x]) (.computed name x) = .ok e' := by
    refine (result_eq_ok hg' (List.mem_of_getElem? hcopy)).2 ⟨x, [e.series], rfl, ?_, hrun⟩
    rw [hx.inputs_eq, mapM_eq_ok]
    exact .cons hinput .nil
  have heval := hx.evalRow_eq (value?_result h hrow hmem he) (hasKind_cell h hrow hmem he)
  rw [computed_cell_eq_ok hrow hcopy rfl he',
    Computation.cell_evaluateRows hrun hrow, heval]
  rfl

end View

/-! ### Tables after alike runs -/

namespace ComputedTable

open Access

variable {σ : Type} [Tabular σ] {P : σ → Prop} {v : View} {t t' : ComputedTable σ}

/-- What a table shows when it is read. -/
def shown (t : ComputedTable σ) : View where
  rows := Tabular.rowCount t
  schema := Tabular.schema t
  cell row column := ((readCell row column).on t).1
  series column := ((readColumn column).on t).1

/-- How markers matter in a row of two tables whose columns differ in nothing else. -/
structure MarkersMatter (row : Nat) (t t' : ComputedTable σ) : Prop where
  /-- A cell is a failure in both tables, with one message, or holds the same data in both,
  unless a failed cell that it goes back to shows different markers. -/
  agree : ∀ p < t.columns.length,
    (∀ q ∈ t.graph.reached p, t.shown.SameMarker t'.shown row q) →
    t.shown.CellsAgree t'.shown row p
  /-- Different markers are different data, with no message, in a column that copies
  them. -/
  differ : ∀ (q : Nat) (c : Column), t.columns[q]? = some c →
    ¬ t.shown.SameMarker t'.shown row q → ∀ x x' : Computation, x.Copies c → x.Alike x' →
      ∀ name : String, Text.isBlankText name = false → name ∉ t.columns.map (·.name) →
        ∃ w w' : Value, w ≠ w' ∧
          (t.run [.edit (.add name x)]).shown.cell row t.columns.length = .ok (.ofValue w) ∧
          (t'.run [.edit (.add name x')]).shown.cell row t.columns.length =
            .ok (.ofValue w')

section

variable (hP : Shows P v) (hv : v.Complete)

include hP hv

/-- A table shows what its definitions make of the view of its source. -/
theorem Faithful.shown_eq (h : t.Faithful P v) : t.shown = v.computed t.columns := by
  ext1
  · exact hP.rowCount_eq _ h.source
  · rfl
  · exact funext fun row => funext fun column => readCell_eq hP hv ⟨h, rfl⟩ row column
  · exact funext fun column => readColumn_eq hP hv ⟨h, rfl⟩ column

variable {row : Nat} (hrow : row < v.rows)

include hrow

/-- A computed column can be copied under any name that is free, and the copy has no
messages. -/
theorem Faithful.shown_cell_copy (h : t.Faithful P v) {q : Nat} {c : Column}
    (hc : t.columns[q]? = some c) (hcomputed : c.isComputed) {x : Computation}
    (hx : x.Copies c) {name : String} (hblank : Text.isBlankText name = false)
    (hfree : name ∉ t.columns.map (·.name)) {cell : Cell}
    (hcell : t.shown.cell row q = .ok cell) :
    (t.run [.edit (.add name x)]).shown.cell row t.columns.length =
      .ok (.ofValue cell.value) := by
  have hg := h.wellFormed.describes
  have hdeps : ∀ input ∈ (Column.computed name x).dependencies,
      input ∈ t.columns.map (·.name) := by
    show ∀ input ∈ x.inputs, _
    rw [hx.inputs_eq, List.forall_mem_singleton]
    exact List.mem_map_of_mem (List.mem_of_getElem? hc)
  obtain ⟨g', hg'⟩ := Graph.exists_describes_append hg hfree hdeps
  have hadd : (Edit.add name x).apply t = .ok (t.appended (.computed name x) g') :=
    map_eq_ok.2 ⟨_, addColumn_eq_ok.2 ⟨hblank, rfl, g', hg', rfl⟩, rfl⟩
  have hrun : t.run [.edit (.add name x)] = t.appended (.computed name x) g' :=
    perform_edit_of_ok hadd
  rw [h.shown_eq hP hv] at hcell
  rw [(faithful_run hP h _).shown_eq hP hv, hrun, columns_appended]
  exact View.computed_cell_copy hg hrow hc hcomputed hx hg' hcell

/-- Markers matter in this way to all tables with alike columns. -/
theorem Faithful.markersMatter (h : t.Faithful P v) (h' : t'.Faithful P v)
    (halike : AlikeColumns t.columns t'.columns) : t.MarkersMatter row t' where
  agree p hp hsame := by
    rw [h.shown_eq hP hv, h'.shown_eq hP hv] at hsame ⊢
    exact View.agree_computed h.wellFormed.describes hrow halike hv h.wellFormed.hosts
      h'.wellFormed.hosts hp
      hsame
  differ q c hc hdiffer x x' hx hxx name hblank hfree := by
    obtain ⟨c', hc', hcc⟩ := halike.exists_getElem? hc
    simp only [View.SameMarker, not_forall] at hdiffer
    obtain ⟨cell, cell', hcell, hcell', -, -, hne⟩ := hdiffer
    rcases c.stored_or_isComputed with ⟨i, hcontent⟩ | hcomputed
    · -- Both tables show the same stored cell.
      rw [h.shown_eq hP hv, View.computed_cell_stored hrow hc hcontent] at hcell
      rw [h'.shown_eq hP hv, View.computed_cell_stored hrow hc'
        (hcc.content_eq_stored hcontent), hcell] at hcell'
      exact absurd (congrArg Cell.value (Except.ok.inj hcell')) hne
    · have hx' : x'.Copies c' :=
        ⟨hxx.inputs_eq.symm.trans (hcc.name_eq ▸ hx.inputs_eq),
          hxx.program_eq.symm.trans hx.program_eq,
          hxx.kind_eq.symm.trans (hx.kind_eq.trans hcc.kind_eq)⟩
      have hfree' : name ∉ t'.columns.map (·.name) := halike.map_name_eq ▸ hfree
      refine ⟨cell.value, cell'.value, hne,
        h.shown_cell_copy hP hv hrow hc hcomputed hx hblank hfree hcell, ?_⟩
      rw [halike.length_eq]
      exact h'.shown_cell_copy hP hv hrow hc'
        (hcc.isComputed_eq.symm.trans hcomputed) hx' hblank hfree' hcell'

/-- **Markers matter only where they are read**: two tables over the same data, edited
alike, show the same in a row as far as no failed cell that is read shows different markers
there. -/
theorem markersMatter_run {s s' : σ} (hs : P s) (hs' : P s') {registry registry' : Registry}
    {config config' : Config} (h : create s registry config = .ok t)
    (h' : create s' registry' config' = .ok t') {ops ops' : List Operation}
    (hops : ops.map Operation.unmarked = ops'.map Operation.unmarked) :
    (t.run ops).MarkersMatter row (t'.run ops') := by
  have hfaith := faithful_of_create hP hs h
  have hfaith' := faithful_of_create hP hs' h'
  have halike : AlikeColumns t.columns t'.columns := by
    rw [AlikeColumns, columns_of_create h, columns_of_create h', sourceColumns,
      sourceColumns, hP.schema_eq s hs, hP.schema_eq s' hs']
  exact (faithful_run hP hfaith ops).markersMatter hP hv hrow (faithful_run hP hfaith' ops')
    (alike_run hP hfaith hfaith' halike hops)

end

/-- A failing column and a reader of it over one stored column, under two markers. -/
theorem markersMatter_run_chained :
    create BaseTable.singleColumn .standard .standard = .ok (singleColumn .standard) ∧
      create BaseTable.singleColumn .standard .otherSentinel =
      .ok (singleColumn .otherSentinel) ∧
      (Operation.chained .standard).map Operation.unmarked =
        (Operation.chained .otherSentinel).map Operation.unmarked ∧
      ((singleColumn .standard).run (Operation.chained .standard)).MarkersMatter 0
        ((singleColumn .otherSentinel).run (Operation.chained .otherSentinel)) := by
  have hs : BaseTable.singleColumn.Typed := trivial
  exact ⟨create_singleColumn rfl, create_singleColumn rfl, rfl,
    markersMatter_run BaseTable.singleColumn.shows_view (BaseTable.complete_view hs)
      (by decide) rfl rfl
      (create_singleColumn rfl) (create_singleColumn rfl) rfl⟩

/-- A marker passes for data: the column that is read fails in both tables, and the column
that reads it does not, but shows a number that depends on the marker. -/
theorem chained_cells_differ :
    Config.standard.unmarked = Config.otherSentinel.unmarked ∧
      create BaseTable.singleColumn .standard .standard = .ok (singleColumn .standard) ∧
      create BaseTable.singleColumn .standard .otherSentinel =
      .ok (singleColumn .otherSentinel) ∧
      (Operation.chained .standard).map Operation.unmarked =
        (Operation.chained .otherSentinel).map Operation.unmarked ∧
      ((singleColumn .standard).run (Operation.chained .standard)).shown.cell 0 1 =
        .ok (.failed (.int (-1)) RowError.divisionByZero.message) ∧
      ((singleColumn .otherSentinel).run (Operation.chained .otherSentinel)).shown.cell 0
        1 = .ok (.failed (.int (-7)) RowError.divisionByZero.message) ∧
      ((singleColumn .standard).run (Operation.chained .standard)).shown.cell 0 2 =
        .ok (.ofValue (.int 0)) ∧
      ((singleColumn .otherSentinel).run (Operation.chained .otherSentinel)).shown.cell 0
        2 = .ok (.ofValue (.int (-6))) :=
  ⟨rfl, create_singleColumn rfl, create_singleColumn rfl, rfl, rfl, rfl, rfl, rfl⟩

end ComputedTable

end FormulaTable
