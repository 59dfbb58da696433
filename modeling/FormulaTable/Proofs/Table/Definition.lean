import FormulaTable.Proofs.Column
import FormulaTable.Proofs.Dependency.Order
import FormulaTable.Proofs.Table.View

/-!
# What computed columns stand for

The result of a computed column, as its definition gives it: the computation runs on its
inputs, each of which is a stored column or the result of another computed column, and
nothing is kept. This is what a computed table is compared with.

* `result_eq` — the result of a column from the results of those that it reads.
* `result_congr`, `result_eq_of_subset` — results do not change with columns that are not
  reached.
* `exists_result_eq_ok` — over a complete view every computed column has a result.
-/

namespace FormulaTable

namespace View

variable (v : View) (columns : List Column)

/-- The values of an input of a column, where `result` gives the results of computed
columns. -/
def inputFrom (result : Column → Except Error Evaluated) (reader : Column)
    (input : String) :
    Except Error Series :=
  match reader.own? input with
  | some i => v.series i
  | none =>
    match columns.find? (·.name = input) with
    | none => .error (.unknownColumn input)
    | some c =>
      match c.content with
      | .stored i _ => v.series i
      | _ => (result c).map (·.series)

/-- The result of a column from the values of its inputs. -/
def resultFrom (input : Column → String → Except Error Series) (c : Column) :
    Except Error Evaluated :=
  match c.computation? with
  | none => .error (.invalidDefinition (.notComputed c.name))
  | some x => do
    let inputs ← x.inputs.mapM (input c)
    x.evaluateRows inputs v.rows

/-- The result of a column that reads others through no more than a number of steps. -/
def resultWithin : Nat → Column → Except Error Evaluated
  | 0, c => .error (.cycle [c.name])
  | depth + 1, c => v.resultFrom (v.inputFrom columns (resultWithin depth)) c

/-- The result of a column. Without cycles no path is longer than there are columns. -/
def result (c : Column) : Except Error Evaluated :=
  v.resultWithin columns (columns.length + 1) c

/-- The values of an input of a column. -/
def input (reader : Column) (name : String) : Except Error Series :=
  v.inputFrom columns (v.result columns) reader name

/-- What a table with these columns shows over the view. -/
def computed : View where
  rows := v.rows
  schema := columns.map fun c => (c.name, c.kind)
  cell row column := do
    checkRow row v.rows
    match columns[column]? with
    | none => .error (.invalidColumn column columns.length)
    | some c =>
      match c.content with
      | .stored i _ => v.cell row i
      | _ => (v.result columns c).map (·.cell row)
  series column :=
    match columns[column]? with
    | none => .error (.invalidColumn column columns.length)
    | some c =>
      match c.content with
      | .stored i _ => v.series i
      | _ => (v.result columns c).map (·.series)

variable {v columns}

/-! ### Inputs -/

/-- A column that reads its own name reads the stored column below it. -/
theorem inputFrom_own {result : Column → Except Error Evaluated} {reader : Column}
    {input : String} {i : Nat} (h : reader.own? input = some i) :
    v.inputFrom columns result reader input = v.series i := by
  rw [inputFrom, h]

/-- A stored input is read from the source. -/
theorem inputFrom_stored {result : Column → Except Error Evaluated} {reader c : Column}
    {input : String} {i : Nat} {k : Kind} (hown : reader.own? input = none)
    (hc : columns.find? (·.name = input) = some c) (hcontent : c.content = .stored i k) :
    v.inputFrom columns result reader input = v.series i := by
  simp only [inputFrom, hown, hc, hcontent]

/-- A computed input is read from its result. -/
theorem inputFrom_computed {result : Column → Except Error Evaluated} {reader c : Column}
    {input : String} (hown : reader.own? input = none)
    (hc : columns.find? (·.name = input) = some c) (hcomputed : c.isComputed) :
    v.inputFrom columns result reader input = (result c).map (·.series) := by
  simp only [inputFrom, hown, hc]
  cases hcontent : c.content with
  | stored i k => exact absurd hcontent (Column.isComputed_iff.1 hcomputed i k)
  | _ => rfl

/-! ### Cells and columns -/

/-- There is no cell beyond the last row. -/
theorem computed_cell_eq_error {row column : Nat} (hrow : v.rows ≤ row) :
    (v.computed columns).cell row column = .error (.invalidRow row v.rows) := by
  simp only [computed, checkRow_eq_error hrow]
  rfl

/-- There is no cell beyond the last column. -/
theorem computed_cell_of_none {row column : Nat} (hrow : row < v.rows)
    (hc : columns[column]? = none) :
    (v.computed columns).cell row column =
      .error (.invalidColumn column columns.length) := by
  simp only [computed, checkRow_eq_ok.2 hrow, hc]
  rfl

/-- A stored column shows the cells of the source. -/
theorem computed_cell_stored {row column i : Nat} {k : Kind} {c : Column}
    (hrow : row < v.rows) (hc : columns[column]? = some c)
    (hcontent : c.content = .stored i k) :
    (v.computed columns).cell row column = v.cell row i := by
  simp only [computed, checkRow_eq_ok.2 hrow, hc, hcontent]
  rfl

/-- A computed column shows the cells of its result. -/
theorem computed_cell_computed {row column : Nat} {c : Column} (hrow : row < v.rows)
    (hc : columns[column]? = some c) (hcomputed : c.isComputed) :
    (v.computed columns).cell row column = (v.result columns c).map (·.cell row) := by
  simp only [computed, checkRow_eq_ok.2 hrow, hc]
  cases hcontent : c.content with
  | stored i k => exact absurd hcontent (Column.isComputed_iff.1 hcomputed i k)
  | _ => rfl

/-- There is no column beyond the last one. -/
theorem computed_series_of_none {column : Nat} (hc : columns[column]? = none) :
    (v.computed columns).series column = .error (.invalidColumn column columns.length) := by
  simp only [computed, hc]

/-- A stored column shows the values of the source. -/
theorem computed_series_stored {column i : Nat} {k : Kind} {c : Column}
    (hc : columns[column]? = some c) (hcontent : c.content = .stored i k) :
    (v.computed columns).series column = v.series i := by
  simp only [computed, hc, hcontent]

/-- A computed column shows the values of its result. -/
theorem computed_series_computed {column : Nat} {c : Column}
    (hc : columns[column]? = some c) (hcomputed : c.isComputed) :
    (v.computed columns).series column = (v.result columns c).map (·.series) := by
  simp only [computed, hc]
  cases hcontent : c.content with
  | stored i k => exact absurd hcontent (Column.isComputed_iff.1 hcomputed i k)
  | _ => rfl

/-! ### Dependence on other columns -/

/-- An input that a column depends on is read from the column of the name only. -/
theorem inputFrom_congr {columns' : List Column}
    {result result' : Column → Except Error Evaluated} {reader : Column} {x : Computation}
    (hx : reader.computation? = some x)
    (hfind : ∀ name ∈ reader.dependencies, ∃ c, columns.find? (·.name = name) = some c ∧
        columns'.find? (·.name = name) = some c ∧ result c = result' c)
    {input : String} (hinput : input ∈ x.inputs) :
    v.inputFrom columns result reader input =
      v.inputFrom columns' result' reader input := by
  rw [inputFrom, inputFrom]
  cases hown : reader.own? input with
  | some i => rfl
  | none =>
      obtain ⟨c, hc, hc', hres⟩ :=
        hfind input (Column.mem_dependencies_of_input hx hinput hown)
      simp only [hc, hc', hres]

/-- A column gives the same result from the same inputs. -/
theorem resultFrom_congr {input input' : Column → String → Except Error Series} {c : Column}
    (h : ∀ x, c.computation? = some x → ∀ name ∈ x.inputs, input c name = input' c name) :
    v.resultFrom input c = v.resultFrom input' c := by
  rw [resultFrom, resultFrom]
  cases hx : c.computation? with
  | none => rfl
  | some x =>
      show (x.inputs.mapM (input c) >>= _) = (x.inputs.mapM (input' c) >>= _)
      rw [mapM_congr (h x hx)]

/-! ### Results -/

section

variable {g : Graph} (h : g.Describes columns)

include h

/-- A dependency of a column is one of the columns. -/
theorem find?_of_mem_dependencies {p : Nat} {c : Column} (hc : columns[p]? = some c)
    {name : String} (hname : name ∈ c.dependencies) :
    ∃ q d, columns[q]? = some d ∧ q ∈ g.dependencies p ∧
      columns.find? (·.name = name) = some d := by
  obtain ⟨q, d, hd, rfl, hq⟩ := h.exists_of_mem_dependencies hc hname
  exact ⟨q, d, hd, hq, (find?_name_eq_some h.nodup).2 ⟨List.mem_of_getElem? hd, rfl⟩⟩

/-- For a settled column more depth makes no difference. -/
theorem resultWithin_eq_of_settled {done : List Nat} (hdone : g.Settled done) {p : Nat}
    (hp : p ∈ done) {c : Column} (hc : columns[p]? = some c) {depth depth' : Nat}
    (hdepth : done.length ≤ depth) (hdepth' : done.length ≤ depth') :
    v.resultWithin columns depth c = v.resultWithin columns depth' c := by
  induction hdone generalizing p c depth depth' with
  | nil => cases hp
  | cons _ _ _ hdeps ih =>
      rw [List.length_cons] at hdepth hdepth'
      rcases List.mem_cons.1 hp with rfl | hp
      · obtain ⟨depth, rfl⟩ :=
          Nat.exists_eq_add_of_le' (Nat.le_trans (Nat.le_add_left 1 _) hdepth)
        obtain ⟨depth', rfl⟩ :=
          Nat.exists_eq_add_of_le' (Nat.le_trans (Nat.le_add_left 1 _) hdepth')
        refine resultFrom_congr fun x hx name hname =>
          inputFrom_congr hx (fun dep hdep => ?_) hname
        obtain ⟨q, d, hd, hq, hfind⟩ := find?_of_mem_dependencies h hc hdep
        exact ⟨d, hfind, hfind, ih (hdeps q hq) hd (by omega) (by omega)⟩
      · exact ih hp hc (by omega) (by omega)

/-- **The result of a column**, from the results of those that it reads. -/
theorem result_eq {c : Column} (hc : c ∈ columns) :
    v.result columns c = v.resultFrom (v.input columns) c := by
  obtain ⟨p, hp, rfl⟩ := List.getElem_of_mem hc
  obtain ⟨done, hdone, hall⟩ := h.exists_settled
  have hlen : done.length ≤ columns.length := by
    have hsub : done ⊆ List.range g.size := fun q hq =>
      List.mem_range.2 (hdone.nodup.2 q hq)
    have hle := (List.subperm_of_subset hdone.nodup.1 hsub).length_le
    rwa [List.length_range, h.size_eq] at hle
  refine resultFrom_congr fun x hx name hname =>
    inputFrom_congr hx (fun dep hdep => ?_) hname
  obtain ⟨q, d, hd, hq, hfind⟩ :=
    find?_of_mem_dependencies h (List.getElem?_eq_getElem hp) hdep
  refine ⟨d, hfind, hfind, ?_⟩
  exact resultWithin_eq_of_settled h hdone (hall q (h.closed p q hq)) hd hlen (by omega)

/-- The result of a computed column comes from inputs that can be read. -/
theorem result_eq_ok {c : Column} (hc : c ∈ columns) {e : Evaluated} :
    v.result columns c = .ok e ↔ ∃ x inputs, c.computation? = some x ∧
      x.inputs.mapM (v.input columns c) = .ok inputs ∧
      x.evaluateRows inputs v.rows = .ok e := by
  rw [result_eq h hc, resultFrom]
  cases hx : c.computation? with
  | none =>
      constructor
      · rintro ⟨⟩
      · rintro ⟨_, _, ⟨⟩, _⟩
  | some x =>
      simp only [bind_eq_ok]
      constructor
      · rintro ⟨inputs, hinputs, he⟩
        exact ⟨x, inputs, rfl, hinputs, he⟩
      · rintro ⟨_, inputs, ⟨⟩, hinputs, he⟩
        exact ⟨inputs, hinputs, he⟩

/-- Columns that two tables share, with all that they depend on, have the same results in
both. -/
theorem result_congr {g' : Graph} {columns' : List Column} (h' : g'.Describes columns')
    {U : Column → Prop} (hmem : ∀ c, U c → c ∈ columns ∧ c ∈ columns')
    (hdeps : ∀ c, U c → ∀ d ∈ columns, d.name ∈ c.dependencies → U d) {c : Column}
    (hc : U c) :
    v.result columns c = v.result columns' c := by
  obtain ⟨p, hp, rfl⟩ := List.getElem_of_mem (hmem c hc).1
  induction p using h.wellFounded.induction with
  | _ p ih =>
      obtain ⟨hin, hin'⟩ := hmem _ hc
      rw [result_eq h hin, result_eq h' hin']
      refine resultFrom_congr fun x hx name hname =>
        inputFrom_congr hx (fun dep hdep => ?_) hname
      obtain ⟨q, d, hd, hq, hfind⟩ :=
        find?_of_mem_dependencies h (List.getElem?_eq_getElem hp) hdep
      obtain ⟨hd', hname'⟩ := (find?_name_eq_some h.nodup).1 hfind
      obtain ⟨hlen, rfl⟩ := List.getElem?_eq_some_iff.1 hd
      have hU := hdeps _ hc _ hd' (hname' ▸ hdep)
      exact ⟨_, hfind, (find?_name_eq_some h'.nodup).2 ⟨(hmem _ hU).2, hname'⟩,
        ih q hq hlen hU⟩

/-- Further columns do not change the results of those that were there. -/
theorem result_eq_of_subset {g' : Graph} {columns' : List Column}
    (h' : g'.Describes columns') (hsub : columns ⊆ columns') {c : Column}
    (hc : c ∈ columns) :
    v.result columns c = v.result columns' c :=
  result_congr h h' (U := (· ∈ columns)) (fun _ hc => ⟨hc, hsub hc⟩)
    (fun _ _ _ hd _ => hd) hc

end

/-! ### Over a complete view -/

/-- The columns suit the view: where they refer to a stored column there is one, and a
column that shows it declares its kind. -/
def Hosts (v : View) (columns : List Column) : Prop :=
  ∀ c ∈ columns, ∀ i, c.source? = some i →
    ∃ name kind, v.schema[i]? = some (name, kind) ∧ (c.computation? = none → c.kind = kind)

/-- A result has an element for each row, and can be read by formulas. -/
theorem readable_of_result_eq_ok {g : Graph} (h : g.Describes columns) {c : Column}
    (hc : c ∈ columns) {e : Evaluated} (he : v.result columns c = .ok e) :
    e.series.size = v.rows ∧ e.series.type.kind? = some c.kind := by
  obtain ⟨x, inputs, hx, -, hrun⟩ := (result_eq_ok h hc).1 he
  refine ⟨Computation.size_evaluateRows hrun, ?_⟩
  rw [Computation.type_evaluateRows hrun, Column.kind_eq_of_computation? hx]
  exact ElementType.kind?_elementType x.kind

section

variable {g : Graph} (h : g.Describes columns) (hv : v.Complete) (hhosts : v.Hosts columns)

include hv hhosts in
/-- The stored column that a column refers to can be read. -/
theorem exists_series_eq_ok {c : Column} (hc : c ∈ columns) {i : Nat}
    (hi : c.source? = some i) :
    ∃ s, v.series i = .ok s ∧ s.size = v.rows ∧ s.type.isReadable := by
  obtain ⟨name, kind, hschema, -⟩ := hhosts c hc i hi
  obtain ⟨s, hs, hsize, hkind⟩ := hv.series hschema
  exact ⟨s, hs, hsize, ElementType.isReadable_of_kind? hkind⟩

include h hv hhosts

/-- An input can be read and suits the computation, if the columns that are depended on have
results. -/
theorem exists_input_eq_ok {p : Nat} {c : Column} (hc : columns[p]? = some c)
    {x : Computation} (hx : c.computation? = some x)
    (hres : ∀ q ∈ g.dependencies p, ∀ d, columns[q]? = some d → d.isComputed →
        ∃ e, v.result columns d = .ok e)
    {name : String} (hname : name ∈ x.inputs) :
    ∃ s, v.input columns c name = .ok s ∧ s.size = v.rows ∧ s.type.isReadable := by
  cases hown : c.own? name with
  | some i =>
      rw [input, inputFrom_own hown]
      rw [Column.own?] at hown
      split at hown
      case isTrue => exact exists_series_eq_ok hv hhosts (List.mem_of_getElem? hc) hown
      case isFalse => cases hown
  | none =>
      have hdep := Column.mem_dependencies_of_input hx hname hown
      obtain ⟨q, d, hd, hq, hfind⟩ := find?_of_mem_dependencies h hc hdep
      have hmem := List.mem_of_getElem? hd
      cases hcomputed : d.isComputed with
      | false =>
          have hnone : d.computation? = none := by simpa [Column.isComputed] using hcomputed
          obtain ⟨i, hcontent⟩ := Column.exists_content_eq_stored hnone
          rw [input, inputFrom_stored hown hfind hcontent]
          exact exists_series_eq_ok hv hhosts hmem (by rw [Column.source?, hcontent])
      | true =>
          obtain ⟨e, he⟩ := hres q hq d hd hcomputed
          obtain ⟨hsize, hkind⟩ := readable_of_result_eq_ok h hmem he
          rw [input, inputFrom_computed hown hfind hcomputed, he]
          exact ⟨e.series, rfl, hsize, ElementType.isReadable_of_kind? hkind⟩

/-- **Every computed column has a result.** -/
theorem exists_result_eq_ok {p : Nat} {c : Column} (hc : columns[p]? = some c)
    (hcomputed : c.isComputed) :
    ∃ e, v.result columns c = .ok e := by
  induction p using h.wellFounded.induction generalizing c with
  | _ p ih =>
      obtain ⟨x, hx⟩ := Option.isSome_iff_exists.1 hcomputed
      have hinput := fun name hname =>
        exists_input_eq_ok h hv hhosts hc hx (fun q hq d hd hd' => ih q hq hd hd')
          (hname : name ∈ _)
      obtain ⟨inputs, hinputs⟩ :=
        exists_mapM_eq_ok fun name hname => (hinput name hname).imp fun _ hs => hs.1
      have hacc : x.Accepts inputs v.rows := by
        refine List.forall₂_iff_get.2 ⟨(mapM_eq_ok.1 hinputs).length_eq, fun i hi hi' => ?_⟩
        obtain ⟨s, hs, hgood⟩ := hinput _ (List.get_mem x.inputs ⟨i, hi⟩)
        have hget := (List.forall₂_iff_get.1 (mapM_eq_ok.1 hinputs)).2 i hi hi'
        rw [hs] at hget
        rw [← Except.ok.inj hget]
        exact hgood
      obtain ⟨e, he⟩ := Computation.exists_evaluateRows_eq_ok hacc
      exact ⟨e, (result_eq_ok h (List.mem_of_getElem? hc)).2 ⟨x, inputs, hx, hinputs, he⟩⟩

/-- What a table with these columns shows is complete. -/
theorem complete_computed : (v.computed columns).Complete where
  cell row hrow column hcolumn := by
    have hrow : row < v.rows := hrow
    have hcolumn : column < columns.length := by rwa [computed, List.length_map] at hcolumn
    have hc := List.getElem?_eq_getElem hcolumn
    cases hcontent : columns[column].content with
    | stored i k =>
        have hsource : columns[column].source? = some i := by rw [Column.source?, hcontent]
        obtain ⟨name, kind, hschema, -⟩ := hhosts _ (List.mem_of_getElem? hc) i hsource
        rw [computed_cell_stored hrow hc hcontent]
        exact hv.cell row hrow i (List.getElem?_eq_some_iff.1 hschema).1
    | _ =>
        have hcomputed : columns[column].isComputed := by
          simp [Column.isComputed_iff, hcontent]
        obtain ⟨e, he⟩ := exists_result_eq_ok h hv hhosts hc hcomputed
        rw [computed_cell_computed hrow hc hcomputed, he]
        exact ⟨_, rfl⟩
  series {column name kind} hcolumn := by
    obtain ⟨c, hc, heq⟩ :=
      Option.map_eq_some_iff.1 ((List.getElem?_map ..).symm.trans hcolumn)
    cases heq
    cases hcontent : c.content with
    | stored i k =>
        have hsource : c.source? = some i := by rw [Column.source?, hcontent]
        have hnone : c.computation? = none := by rw [Column.computation?, hcontent]
        obtain ⟨name, kind, hschema, hkind⟩ := hhosts c (List.mem_of_getElem? hc) i hsource
        rw [computed_series_stored hc hcontent, hkind hnone]
        exact hv.series hschema
    | _ =>
        have hcomputed : c.isComputed := by simp [Column.isComputed_iff, hcontent]
        obtain ⟨e, he⟩ := exists_result_eq_ok h hv hhosts hc hcomputed
        have hreadable := readable_of_result_eq_ok h (List.mem_of_getElem? hc) he
        rw [computed_series_computed hc hcomputed, he]
        exact ⟨e.series, rfl, hreadable⟩

end

end View

end FormulaTable
