import FormulaTable.Proofs.Table.Acceptance
import FormulaTable.Proofs.Table.Coherence
import FormulaTable.Proofs.Table.Determinism

/-!
# Taking a computation away again

A stored column that is given a computation can be returned to what is stored: the columns
and the graph are then what they were before, and so is all that is read. This takes a
column whose name is not blank. The columns of a source are taken over under whatever names
they have, and are given computations under these names, but to go back to what is stored is
to define a column anew, and a definition refuses a blank name.

* `clearComputation_accepted_iff` — which transformed columns can be returned.
* `exists_clearComputation_of_set` — a computation that was set is taken away without a
  trace.
* `reversible_run` — both, in every state that edits in place lead to.
-/

namespace FormulaTable

namespace ComputedTable

open Access

variable {σ : Type} [Tabular σ] {P : σ → Prop} {v : View} {schema : List (String × Kind)}
  {t t₁ : ComputedTable σ}

/-- The kind of the stored column behind a column can be found. -/
theorem WellFormed.exists_columnKind (h : t.WellFormed schema) {p i : Nat} {c : Column}
    (hc : t.columns[p]? = some c) (hi : c.source? = some i) :
    ∃ kind, Tabular.columnKind t.source i = .ok kind ∧
      (c.computation? = none → c.kind = kind) := by
  obtain ⟨rfl, hlt⟩ := h.layout.eq_of_source? hc hi
  obtain ⟨d, hd, -, -, hkind⟩ := h.layout.front i _ _ (List.getElem?_eq_getElem hlt)
  rw [hc] at hd
  cases hd
  refine ⟨schema[i].2, columnKind_eq_ok.2 ⟨schema[i].1, ?_⟩, hkind⟩
  rw [h.schema_eq]
  exact List.getElem?_eq_getElem hlt

/-! ### What can be returned -/

section

variable (h : t.WellFormed schema) {p i : Nat} {c : Column} {x : Computation}
  (hc : t.columns[p]? = some c)
  (hcontent : c.content = .transformed i x)

include h hc hcontent

/-- **A transformed column can be returned** to what is stored if its name is not blank, and
only then. -/
theorem clearComputation_accepted_iff :
    (∃ t', t.clearComputation c.name = .ok t') ↔ Text.isBlankText c.name = false := by
  have hsource : c.source? = some i := by rw [Column.source?, hcontent]
  constructor
  · rintro ⟨t', ht'⟩
    obtain ⟨q, d, hd, hname, hcases⟩ := (clearComputation_eq_ok h.describes).1 ht'
    obtain rfl := eq_of_getElem?_of_name_eq h.describes hd hc hname
    rcases hcases with ⟨⟨j, k, hstored⟩, -⟩ | ⟨-, -, -, -, -, hblank, -⟩
    · rw [hcontent] at hstored
      cases hstored
    · exact hblank
  · intro hblank
    obtain ⟨kind, hkind, -⟩ := h.exists_columnKind hc hsource
    -- What shows a stored column depends on nothing, so that it closes no cycle.
    have hname : (Column.stored c.name kind i).name = c.name := rfl
    have hfree : ∀ name,
        name ∉ (Column.stored c.name kind i).dependencies := fun _ => List.not_mem_nil
    have hacyclic : ¬ ∃ q d, t.columns[q]? = some d ∧
        d.name ∈ (Column.stored c.name kind i).dependencies ∧
        Relation.ReflTransGen t.graph.Reads q p := by
      rintro ⟨_, d, _, hdep, _⟩
      exact hfree d.name hdep
    obtain ⟨g, hg⟩ := (Graph.exists_describes_set hc hname h.describes).2
      ⟨fun name hdep => absurd hdep (hfree name), hacyclic⟩
    exact ⟨_, (clearComputation_eq_ok h.describes).2
      ⟨p, c, hc, rfl, .inr ⟨i, x, kind, hcontent, hkind, hblank, g, hg, rfl⟩⟩⟩

/-- A blank name is refused. -/
theorem clearComputation_of_isBlank (hblank : Text.isBlankText c.name) :
    t.clearComputation c.name = .error (.invalidDefinition .blankName) := by
  have hsource : c.source? = some i := by rw [Column.source?, hcontent]
  obtain ⟨kind, hkind, -⟩ := h.exists_columnKind hc hsource
  have hrefused : c.withoutComputation kind = .error (.invalidDefinition .blankName) :=
    if_pos hblank
  have hposition : t.position c.name = .ok p := h.describes.position_eq_ok.2 ⟨c, hc, rfl⟩
  refine bind_eq_error.2
    (.inr ⟨p, hposition, bind_eq_error.2 (.inr ⟨c, columnAt_eq_ok.2 hc, ?_⟩)⟩)
  rw [hcontent]
  exact bind_eq_error.2 (.inr ⟨kind, hkind, bind_eq_error.2 (.inl hrefused)⟩)

end

/-! ### Back to the table before -/

/-- A computation that is set for a stored column and taken away again leaves the columns
and the graph as they were. -/
theorem exists_clearComputation_of_set (h : t.WellFormed schema) {c : Column}
    (hmem : c ∈ t.columns) (hstored : c.isComputed = false)
    (hblank : Text.isBlankText c.name = false) {x : Computation}
    (hset : t.setComputation c.name x = .ok t₁) :
    ∃ t₂, t₁.clearComputation c.name = .ok t₂ ∧ t₂.columns = t.columns ∧
      t₂.graph = t.graph := by
  obtain ⟨p, d, hd, hname, g, hg, rfl⟩ := (setComputation_eq_ok h.describes).1 hset
  obtain ⟨q, hc⟩ := List.mem_iff_getElem?.1 hmem
  obtain rfl := eq_of_getElem?_of_name_eq h.describes hd hc hname
  have hnone : d.computation? = none := by simpa [Column.isComputed] using hstored
  obtain ⟨i, hcontent⟩ := Column.exists_content_eq_stored hnone
  have hsource : d.source? = some i := by rw [Column.source?, hcontent]
  obtain ⟨kind, hkind, heq⟩ := h.exists_columnKind hd hsource
  obtain rfl : d.kind = kind := heq hnone
  have hplain : Column.stored d.name d.kind i = d := by
    rw [Column.stored, ← hcontent]
  have hwith : d.withComputation x = .transformed d.name i x := by
    rw [Column.withComputation, hsource]
  have hcolumns : (t.replaced p (d.withComputation x) g).columns =
      t.columns.set p (d.withComputation x) :=
    columns_replaced ..
  obtain ⟨hlt, hget⟩ := List.getElem?_eq_some_iff.1 hd
  have hrestored : (t.columns.set p (d.withComputation x)).set p d = t.columns := by
    rw [List.set_set]
    exact hget ▸ List.set_getElem_self hlt
  refine ⟨(t.replaced p (d.withComputation x) g).replaced p d t.graph,
    (clearComputation_eq_ok (hcolumns.symm ▸ hg)).2
      ⟨p, d.withComputation x, ?_, ?_, .inr ⟨i, x, d.kind, ?_⟩⟩, ?_, rfl⟩
  · rw [hcolumns]
    exact List.getElem?_set_self hlt
  · exact Column.withComputation_name d x
  · refine ⟨by rw [hwith]; rfl, hkind, hblank, t.graph, ?_, by rw [hplain]⟩
    rw [hcolumns, hplain, hrestored]
    exact h.describes
  · rw [columns_replaced, hcolumns, hrestored]

/-! ### In every state -/

/-- A computation that is given to a stored column can be taken away again, if the name of
the column allows it. -/
structure Reversible (t : ComputedTable σ) : Prop where
  /-- The columns, with their kinds and their positions in the source, and the graph are
  then what they were, and so is whatever is read. -/
  clear_set : ∀ c ∈ t.columns, c.isComputed = false → Text.isBlankText c.name = false →
    ∀ x t₁, (setInPlace c.name x).on t = (.ok (), t₁) →
      ∃ t₂, (clearInPlace c.name).on t₁ = (.ok (), t₂) ∧ t₂.columns = t.columns ∧
        t₂.graph = t.graph ∧
        (∀ row column, ((readCell row column).on t₂).1 = ((readCell row column).on t).1) ∧
        ∀ column, ((readColumn column).on t₂).1 = ((readColumn column).on t).1
  clear_iff : ∀ c ∈ t.columns, ∀ i x, c.content = .transformed i x →
    ((∃ t', (clearInPlace c.name).on t = (.ok (), t')) ↔ Text.isBlankText c.name = false)
  /-- Under a blank name the computation stays. -/
  clear_blank : ∀ c ∈ t.columns, ∀ i x, c.content = .transformed i x →
    Text.isBlankText c.name →
    (clearInPlace c.name).on t = (.error (.invalidDefinition .blankName), t)

/-- Definitions may be set and cleared again in a faithful table. -/
theorem Faithful.reversible (hP : Shows P v) (h : t.Faithful P v) : t.Reversible where
  clear_set c hc hstored hblank x t₁ hset := by
    have hset := (Edit.on_inPlace_eq_ok h.wellFormed.describes (e := .set c.name x)).1 hset
    have h₁ := h.edited (Edit.edited h.wellFormed.describes hset)
    obtain ⟨t₂, hclear, hcolumns, hgraph⟩ :=
      exists_clearComputation_of_set h.wellFormed hc hstored hblank hset
    have h₂ := h₁.edited (Edit.edited h₁.wellFormed.describes (e := .clear c.name) hclear)
    refine ⟨t₂, (Edit.on_inPlace_eq_ok h₁.wellFormed.describes (e := .clear c.name)).2
      hclear, hcolumns, hgraph, ?_, ?_⟩
    · exact readCell_eq_of_columns_eq hP h h₂ hcolumns
    · exact readColumn_eq_of_columns_eq hP h h₂ hcolumns
  clear_iff c hc i x hcontent := by
    obtain ⟨p, hp⟩ := List.mem_iff_getElem?.1 hc
    rw [← clearComputation_accepted_iff h.wellFormed hp hcontent]
    exact exists_congr fun t' => Edit.on_inPlace_eq_ok h.wellFormed.describes
      (e := .clear c.name)
  clear_blank c hc i x hcontent hblank := by
    obtain ⟨p, hp⟩ := List.mem_iff_getElem?.1 hc
    rw [on_clearInPlace h.wellFormed.describes,
      clearComputation_of_isBlank h.wellFormed hp hcontent hblank]
    rfl

/-- **Transforming a stored column is reversible**, if its name is not blank, in every state
that a table can be brought to. -/
theorem reversible_run (hP : Shows P v) {s : σ} (hs : P s) {registry : Registry}
    {config : Config} (h : create s registry config = .ok t) (ops : List Operation) :
    (t.runInPlace ops).Reversible := by
  rw [runInPlace_eq_run (wellFormed_of_create h).describes]
  exact (faithful_run hP (faithful_of_create hP hs h) ops).reversible hP

/-- A stored column that a chain of columns starts from, made to show something else and
returned. -/
theorem reversible_run_chained :
    Shows (· = BaseTable.singleColumn) BaseTable.singleColumn.view ∧
      create BaseTable.singleColumn .standard .standard = .ok (singleColumn .standard) ∧
      ∃ t₁ t₂, (setInPlace "a" (.applied .mul "a" 5 .standard)).on
          ((singleColumn .standard).runInPlace (Operation.chained .standard)) =
            (.ok (), t₁) ∧
        (clearInPlace "a").on t₁ = (.ok (), t₂) ∧
        t₂.columns =
          ((singleColumn .standard).runInPlace (Operation.chained .standard)).columns := by
  have hcreate : create BaseTable.singleColumn .standard .standard =
      .ok (singleColumn .standard) :=
    create_singleColumn rfl
  have hshows := BaseTable.singleColumn.shows_view
  have hreversible := reversible_run hshows rfl hcreate (Operation.chained .standard)
  obtain ⟨t₂, hclear, hcolumns, -⟩ :=
    hreversible.clear_set (.stored "a" .int64 0) List.mem_cons_self rfl rfl
    (.applied .mul "a" 5 .standard) _ (Prod.ext rfl rfl)
  exact ⟨hshows, hcreate, _, t₂, Prod.ext rfl rfl, hclear, hcolumns⟩

/-! ### A blank name -/

end ComputedTable

/-- A table in memory with one row and one column, of a blank name. -/
def BaseTable.blankColumn : BaseTable :=
  .memory ⟨1, [⟨" ", .int64, ⟨.int64, #[some (5 : Int64)]⟩, rfl, rfl⟩], []⟩

/-- The formula that is a number. -/
def Computation.number (n : Int64) : Computation :=
  ⟨toString n.toInt, [], .int64, .constant (.int n), .standard, .standard⟩

namespace ComputedTable

/-- A column of a blank name takes a computation, and cannot be returned to what is
stored. -/
theorem clear_refused_blankColumn :
    ∃ t t₁, create BaseTable.blankColumn .standard .standard = .ok t ∧
      (setInPlace " " (.number 2)).on t = (.ok (), t₁) ∧
      ¬ ∃ t₂, (clearInPlace " ").on t₁ = (.ok (), t₂) := by
  have hcreate : (create BaseTable.blankColumn .standard .standard).isOk := rfl
  cases ht : create BaseTable.blankColumn .standard .standard with
  | error e =>
      rw [ht] at hcreate
      cases hcreate
  | ok t =>
      cases ht
      refine ⟨_, _, rfl, Prod.ext rfl rfl, ?_⟩
      rintro ⟨t₂, h⟩
      have hfails := congrArg Prod.fst h
      cases hfails

end ComputedTable

end FormulaTable
