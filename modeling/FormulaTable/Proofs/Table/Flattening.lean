import FormulaTable.Proofs.Table.Coherence

/-!
# Views of views

A table over a computed table shows the columns of the latter as stored ones. What it
computes from them is what the columns of both give in one table: a stored column of the
upper table shows a result of the lower one, which does not change when columns are put
behind it.

* `View.result_stored_append` — a computed column of the upper table has the same result in
  one table.
* `View.computed_stored_append` — both tables show the same.
-/

namespace FormulaTable

namespace View

variable {base : View} {columns more : List Column}

/-- The upper table's columns of the lower one. -/
theorem storedColumns_computed_getElem? (base : View) {p : Nat} {c : Column}
    (hc : columns[p]? = some c) :
    (storedColumns (base.computed columns).schema)[p]? =
      some (.stored c.name c.kind p) := by
  rw [storedColumns_getElem?, computed, List.getElem?_map, hc]
  rfl

/-- A table that is read as stored has as many columns as before. -/
theorem length_storedColumns_computed :
    (storedColumns (base.computed columns).schema).length = columns.length := by
  rw [length_storedColumns, computed, List.length_map]

/-- The columns of a table are stored ones for the table above it. -/
theorem storedColumns_append_getElem?_of_lt {p : Nat} {c : Column}
    (hc : columns[p]? = some c) :
    (storedColumns (base.computed columns).schema ++ more)[p]? =
      some (.stored c.name c.kind p) := by
  have hstored := storedColumns_computed_getElem? base hc
  rw [List.getElem?_append_left (List.getElem?_eq_some_iff.1 hstored).1, hstored]

/-- Behind the columns of the lower table both lists are the same. -/
theorem storedColumns_append_getElem?_of_le (base : View) (more : List Column) {p : Nat}
    (hp : columns.length ≤ p) :
    (storedColumns (base.computed columns).schema ++ more)[p]? = (columns ++ more)[p]? := by
  rw [List.getElem?_append_right (by rwa [length_storedColumns_computed]),
    List.getElem?_append_right hp, length_storedColumns_computed]

section

variable {g gFlat gUpper : Graph} (hg : g.Describes columns)
  (hflat : gFlat.Describes (columns ++ more))
  (hupper : gUpper.Describes (storedColumns (base.computed columns).schema ++ more))
  (hmore : ∀ c ∈ more, c.source? = none)

include hg hflat

/-- Columns that are put behind others do not change what these show. -/
theorem computed_append_eq {p : Nat} {c : Column} (hc : columns[p]? = some c) :
    (∀ row < base.rows,
        (base.computed columns).cell row p = (base.computed (columns ++ more)).cell row p) ∧
      (base.computed columns).series p = (base.computed (columns ++ more)).series p := by
  have hc' : (columns ++ more)[p]? = some c := by
    rw [List.getElem?_append_left (List.getElem?_eq_some_iff.1 hc).1, hc]
  rcases c.stored_or_isComputed with ⟨i, hcontent⟩ | hcomputed
  · refine ⟨fun row hrow => ?_, ?_⟩
    · rw [computed_cell_stored hrow hc hcontent, computed_cell_stored hrow hc' hcontent]
    · rw [computed_series_stored hc hcontent, computed_series_stored hc' hcontent]
  · have hresult :=
      result_eq_of_subset (v := base) hg hflat (List.subset_append_left columns more)
      (List.mem_of_getElem? hc)
    refine ⟨fun row hrow => ?_, ?_⟩
    · rw [computed_cell_computed hrow hc hcomputed,
        computed_cell_computed hrow hc' hcomputed, hresult]
    · rw [computed_series_computed hc hcomputed,
        computed_series_computed hc' hcomputed, hresult]

include hupper hmore

/-- An input of a computed column of the upper table is the same in one table, if the
results are of the columns of the upper table that it reads: from the lower table a series
is read. -/
theorem input_stored_append {p : Nat} {c : Column} (hp : (columns ++ more)[p]? = some c)
    (hc : c ∈ more) {x : Computation} (hx : c.computation? = some x)
    (hresult : ∀ q ∈ gFlat.dependencies p, ∀ d, (columns ++ more)[q]? = some d → d ∈ more →
        (base.computed columns).result (storedColumns (base.computed columns).schema ++
        more) d = base.result (columns ++ more) d)
    {name : String} (hname : name ∈ x.inputs) :
    (base.computed columns).input
      (storedColumns (base.computed columns).schema ++ more) c name =
      base.input (columns ++ more) c name := by
  have hown : c.own? name = none := by rw [Column.own?, hmore c hc, ite_self]
  obtain ⟨q, d, hd, hq, hfind⟩ :=
    find?_of_mem_dependencies hflat hp (Column.mem_dependencies_of_input hx hname hown)
  have hdname := ((find?_name_eq_some hflat.nodup).1 hfind).2
  have hfindUpper : ∀ {e : Column},
      e ∈ storedColumns (base.computed columns).schema ++ more → e.name = name →
      (storedColumns (base.computed columns).schema ++ more).find?
        (·.name = name) = some e :=
    fun he hename => (find?_name_eq_some hupper.nodup).2 ⟨he, hename⟩
  rw [input, input]
  rcases Nat.lt_or_ge q columns.length with hlt | hge
  · -- The lower table has the column, and the upper one shows it.
    have hd' : columns[q]? = some d := by rwa [List.getElem?_append_left hlt] at hd
    have hstored := List.mem_of_getElem? (storedColumns_computed_getElem? base hd')
    rw [inputFrom_stored hown (hfindUpper (List.mem_append_left _ hstored) hdname) rfl,
      (computed_append_eq hg hflat hd').2]
    rcases d.stored_or_isComputed with ⟨i, hcontent⟩ | hcomputed
    · rw [computed_series_stored hd hcontent, inputFrom_stored hown hfind hcontent]
    · rw [computed_series_computed hd hcomputed, inputFrom_computed hown hfind hcomputed]
  · have hd' : d ∈ more := by
      rw [List.getElem?_append_right hge] at hd
      exact List.mem_of_getElem? hd
    have hcomputed : d.isComputed :=
      ComputedTable.isComputed_of_source?_eq_none (hmore d hd')
    rw [inputFrom_computed hown (hfindUpper (List.mem_append_right _ hd') hdname) hcomputed,
      inputFrom_computed hown hfind hcomputed, hresult q hq d hd hd']

/-- **A computed column of the upper table** has the same result in one table. The induction
is on what it depends on in the latter. -/
theorem result_stored_append {c : Column} (hc : c ∈ more) :
    (base.computed columns).result
      (storedColumns (base.computed columns).schema ++ more) c =
      base.result (columns ++ more) c := by
  obtain ⟨p, hp⟩ := List.mem_iff_getElem?.1 (List.mem_append_right columns hc)
  induction p using hflat.wellFounded.induction generalizing c with
  | _ p ih =>
      rw [result_eq hupper (List.mem_append_right _ hc),
        result_eq hflat (List.mem_append_right _ hc)]
      refine resultFrom_congr fun x hx name hname => ?_
      exact input_stored_append hg hflat hupper hmore hp hc hx
        (fun q hq d hd hd' => ih q hq hd' hd) hname

/-- A column of the upper table is computed, and has the result that it has over the columns
of both. -/
theorem result_stored_append_of_le {p : Nat} {c : Column} (hp : columns.length ≤ p)
    (hc : (columns ++ more)[p]? = some c) : c.isComputed ∧
      (base.computed columns).result
        (storedColumns (base.computed columns).schema ++ more) c =
        base.result (columns ++ more) c := by
  rw [List.getElem?_append_right hp] at hc
  have hmem := List.mem_of_getElem? hc
  exact ⟨ComputedTable.isComputed_of_source?_eq_none (hmore c hmem),
    result_stored_append hg hflat hupper hmore hmem⟩

/-- The cells of the upper table are those of one table. -/
theorem cell_stored_append (row p : Nat) :
    ((base.computed columns).computed
        (storedColumns (base.computed columns).schema ++ more)).cell row p =
      (base.computed (columns ++ more)).cell row p := by
  rcases Nat.lt_or_ge row base.rows with hrow | hrow
  · have hrowUpper : row < (base.computed columns).rows := hrow
    rcases Nat.lt_or_ge p columns.length with hp | hp
    · have hc := List.getElem?_eq_getElem hp
      rw [computed_cell_stored hrowUpper (storedColumns_append_getElem?_of_lt hc) rfl,
        (computed_append_eq hg hflat hc).1 row hrow]
    · have hback := storedColumns_append_getElem?_of_le base more hp
      cases hc : (columns ++ more)[p]? with
      | none =>
          rw [computed_cell_of_none hrowUpper (hback.trans hc),
            computed_cell_of_none hrow hc, List.length_append, List.length_append,
            length_storedColumns_computed]
      | some c =>
          obtain ⟨hcomputed, heq⟩ := result_stored_append_of_le hg hflat hupper hmore hp hc
          rw [computed_cell_computed hrowUpper (hback.trans hc) hcomputed,
            computed_cell_computed hrow hc hcomputed, heq]
  · have hrowUpper : (base.computed columns).rows ≤ row := hrow
    rw [computed_cell_eq_error hrowUpper, computed_cell_eq_error hrow]
    rfl

/-- The series of the upper table are those of one table. -/
theorem series_stored_append (p : Nat) :
    ((base.computed columns).computed
        (storedColumns (base.computed columns).schema ++ more)).series p =
      (base.computed (columns ++ more)).series p := by
  rcases Nat.lt_or_ge p columns.length with hp | hp
  · have hc := List.getElem?_eq_getElem hp
    rw [computed_series_stored (storedColumns_append_getElem?_of_lt hc) rfl,
      (computed_append_eq hg hflat hc).2]
  · have hback := storedColumns_append_getElem?_of_le base more hp
    cases hc : (columns ++ more)[p]? with
    | none =>
        rw [computed_series_of_none (hback.trans hc), computed_series_of_none hc,
          List.length_append, List.length_append, length_storedColumns_computed]
    | some c =>
        obtain ⟨hcomputed, heq⟩ := result_stored_append_of_le hg hflat hupper hmore hp hc
        rw [computed_series_computed (hback.trans hc) hcomputed,
          computed_series_computed hc hcomputed, heq]

/-- **Both tables show the same** as one with the columns of both. -/
theorem computed_stored_append :
    (base.computed columns).computed
      (storedColumns (base.computed columns).schema ++ more) =
      base.computed (columns ++ more) := by
  refine View.ext rfl ?_ (funext fun row => funext fun p => ?_) (funext fun p => ?_)
  · show List.map _ (_ ++ more) = List.map _ (columns ++ more)
    rw [List.map_append, List.map_append, map_storedColumns]
    rfl
  · exact cell_stored_append hg hflat hupper hmore row p
  · exact series_stored_append hg hflat hupper hmore p

end

end View

end FormulaTable
