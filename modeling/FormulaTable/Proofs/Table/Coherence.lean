import FormulaTable.Proofs.Table.Definition
import FormulaTable.Proofs.Table.Structure

/-!
# Kept results are those of the definitions

A result that is kept for a column is what the definition of the column gives, whichever
edits, reads and requests led to the table. An edit forgets what it makes wrong: the results
that are left belong to columns that do not reach the changed one, so that their
definitions, and all they read, are the same as before.

* `faithful_run` — kept results stay right on every run.
* `kept_faithful` — what is read is what the definitions give.
-/

namespace FormulaTable.ComputedTable

open Access

variable {σ : Type} [Tabular σ] {P : σ → Prop} {v : View} {t t' : ComputedTable σ}

/-- Every kept result is that of the definition of its column, over what the source
shows. -/
def Coherent (v : View) (t : ComputedTable σ) : Prop :=
  ∀ slot ∈ t.slots, ∀ e, slot.cached = some e → v.result t.columns slot.column = .ok e

/-- A well-formed table over a source that shows a view, with kept results that are
right. -/
structure Faithful (P : σ → Prop) (v : View) (t : ComputedTable σ) : Prop where
  source : P t.source
  wellFormed : t.WellFormed v.schema
  coherent : t.Coherent v

/-! ### Edits -/

omit [Tabular σ] in
/-- A table without results is right. -/
theorem coherent_of_empty (h : ∀ slot ∈ t.slots, slot.cached = none) : t.Coherent v := by
  intro slot hslot e he
  rw [h slot hslot] at he
  cases he

/-- Columns that do not reach a replaced one keep their results. -/
theorem result_eq_of_set {g g' : Graph} {columns : List Column} (h : g.Describes columns)
    {p : Nat} {c c' : Column} (hc : columns[p]? = some c) (hname : c'.name = c.name)
    (h' : g'.Describes (columns.set p c')) {q : Nat} {d : Column}
    (hd : columns[q]? = some d) (hqp : q ≠ p) (hq : ¬ Relation.TransGen g'.Reads q p) :
    v.result columns d = v.result (columns.set p c') d := by
  let U : Column → Prop := fun d =>
    ∃ q, columns[q]? = some d ∧ q ≠ p ∧ ¬ Relation.TransGen g'.Reads q p
  have hset : ∀ {q d}, columns[q]? = some d → q ≠ p → (columns.set p c')[q]? = some d := by
    intro q d hd hqp
    rw [List.getElem?_set_ne hqp.symm, hd]
  refine View.result_congr h h' (U := U) ?_ ?_ ⟨q, hd, hqp, hq⟩
  · rintro d ⟨q, hd, hqp, -⟩
    exact ⟨List.mem_of_getElem? hd, List.mem_of_getElem? (hset hd hqp)⟩
  · rintro d ⟨q, hd, hqp, hq⟩ d' hd' hdep
    obtain ⟨r, hr⟩ := List.mem_iff_getElem?.1 hd'
    have hreads : g'.Reads q r := by
      rcases eq_or_ne r p with rfl | hrp
      · rw [hc] at hr
        cases hr
        have hself := List.getElem?_set_self (a := c') (List.getElem?_eq_some_iff.1 hc).1
        exact (h'.mem_dependencies (hset hd hqp)).2 ⟨c', hself, hname ▸ hdep⟩
      · exact (h'.mem_dependencies (hset hd hqp)).2 ⟨d', hset hr hrp, hdep⟩
    refine ⟨r, hr, ?_, fun hrp => hq (.head hreads hrp)⟩
    rintro rfl
    exact hq (.single hreads)

/-- **An edit leaves no wrong result.** -/
theorem Coherent.edited {schema : List (String × Kind)} (h : t.Coherent v)
    (hwf : t.WellFormed schema) (hwf' : t'.WellFormed schema) (hedit : t.Edited t') :
    t'.Coherent v := by
  intro slot hslot e he
  have hg := hwf.describes
  have hg' := hwf'.describes
  cases hedit with
  | unchanged => exact h slot hslot e he
  | added c g hsource hgraph =>
      rw [columns_appended] at hg' ⊢
      rcases List.mem_append.1 hslot with hold | hnew
      · rw [← View.result_eq_of_subset hg hg' (List.subset_append_left t.columns [c])
          (List.mem_map_of_mem hold)]
        exact h slot hold e he
      · rw [List.mem_singleton.1 hnew] at he
        cases he
  | replaced p c c' g hc hname hsource hkind hgraph =>
      rw [columns_replaced]
      obtain ⟨q, hqp, hq, hget⟩ := exists_of_mem_replaced hslot he
      have hreach : ¬ Relation.TransGen g.Reads q p := fun hreach =>
        hq (hgraph.mem_affected.2 hreach)
      rw [← result_eq_of_set hg hc hname hgraph (columns_getElem?_of_slot? hget) hqp hreach]
      exact h slot (List.mem_of_getElem? hget) e he
  | removed p c g hc hsource hgraph =>
      have hmem : slot.column ∈ t.columns.eraseIdx p :=
        columns_removed t p g ▸ List.mem_map_of_mem hslot
      rw [columns_removed] at hg' ⊢
      rw [View.result_eq_of_subset hg' hg (fun _ hd => List.mem_of_mem_eraseIdx hd) hmem]
      exact h slot (List.mem_of_mem_eraseIdx hslot) e he

/-! ### Evaluation -/

/-- The values at an origin, over what the source shows. -/
def Origin.series (v : View) : Origin → Except Error Series
  | .source i => v.series i
  | .kept s => .ok s

omit [Tabular σ] in
/-- Where an input is read there is what the definitions say. -/
theorem input_of_origin (hg : t.graph.Describes t.columns) (h : t.Coherent v)
    {reader : Column} {input : String} {o : Origin} (ho : t.origin reader input = .ok o) :
    v.input t.columns reader input = o.series v := by
  rw [origin] at ho
  split at ho
  case h_1 i hown =>
      cases ho
      exact View.inputFrom_own hown
  case h_2 hown =>
      obtain ⟨slot, hslot, ho⟩ := bind_eq_ok.1 ho
      obtain ⟨p, hp, hslot⟩ := slotNamed_eq_ok.1 hslot
      have hc := columns_getElem?_of_slot? hslot
      have hmem := List.mem_of_getElem? hslot
      obtain ⟨c, hc', hname⟩ := hg.position_eq_ok.1 hp
      rw [hc] at hc'
      cases hc'
      have hfind := (find?_name_eq_some hg.nodup).2 ⟨List.mem_of_getElem? hc, hname⟩
      cases hcontent : slot.column.content with
      | stored i k =>
          rw [hcontent] at ho
          cases ho
          exact View.inputFrom_stored hown hfind hcontent
      | _ =>
          have hcomputed : slot.column.isComputed := by
            simp [Column.isComputed_iff, hcontent]
          rw [hcontent] at ho
          cases hcached : slot.cached with
          | none =>
              rw [hcached] at ho
              cases ho
          | some e =>
              rw [hcached] at ho
              cases ho
              rw [View.input, View.inputFrom_computed hown hfind hcomputed,
                h slot hmem e hcached]
              rfl

/-- The states in which a table with the given columns may be read. -/
def ReadyFor (P : σ → Prop) (v : View) (columns : List Column) (t : ComputedTable σ) :
    Prop :=
  t.Faithful P v ∧ t.columns = columns

/-- A table stays faithful if neither its slots nor what its source shows change. -/
theorem Faithful.of_slots_eq (h : t.Faithful P v) (hslots : t'.slots = t.slots)
    (hgraph : t'.graph = t.graph) (hsource : P t'.source)
    (hschema : Tabular.schema t'.source = Tabular.schema t.source) :
    t'.Faithful P v := by
  have hcolumns : t'.columns = t.columns := congrArg (List.map Slot.column) hslots
  refine ⟨hsource,
    h.wellFormed.of_columns_eq hcolumns hgraph hschema (hslots ▸ h.wellFormed.empty), ?_⟩
  intro slot hslot e he
  rw [hcolumns]
  exact h.coherent slot (hslots ▸ hslot) e he

section

variable (hP : Shows P v)

include hP

/-- Reading the source and counting leave the kept results alone. -/
theorem undisturbed_readyFor (columns : List Column) :
    Undisturbed fun t : ComputedTable σ => t.ReadyFor P v columns where
  readCell t ht row i := by
    have hsource := hP.keeps_readCell _ ht.1.source row i
    refine ⟨ht.1.of_slots_eq rfl rfl hsource ?_, ht.2⟩
    rw [hP.schema_eq _ hsource, hP.schema_eq _ ht.1.source]
  readColumn t ht i := by
    have hsource := hP.keeps_readColumn _ ht.1.source i
    refine ⟨ht.1.of_slots_eq rfl rfl hsource ?_, ht.2⟩
    rw [hP.schema_eq _ hsource, hP.schema_eq _ ht.1.source]
  countEvaluation t ht := ⟨ht.1.of_slots_eq rfl rfl ht.1.source rfl, ht.2⟩
  countHit t ht := ⟨ht.1.of_slots_eq rfl rfl ht.1.source rfl, ht.2⟩

/-- What is read as an input is the input. -/
theorem input_eq_ok_of_inputSeries {I : ComputedTable σ → Prop} {columns : List Column}
    (hI : ∀ t, I t → t.ReadyFor P v columns) {reader : Column} {input : String} {s : Series}
    (h : InputSeries I reader input s) : v.input columns reader input = .ok s := by
  obtain ⟨t, ht, h⟩ := h
  obtain ⟨hfaith, rfl⟩ := hI t ht
  rcases h with ho | ⟨i, ho, t', ht', hs⟩
  · exact input_of_origin hfaith.wellFormed.describes hfaith.coherent ho
  · rw [input_of_origin hfaith.wellFormed.describes hfaith.coherent ho, Origin.series,
      ← hP.readColumn_eq _ (hI t' ht').1.source i]
    exact hs

/-- **An evaluation gives the result of the definition.** -/
theorem keeps_evaluateColumn_result {I : ComputedTable σ → Prop} {columns : List Column}
    (hbase : Undisturbed I) (hI : ∀ t, I t → t.ReadyFor P v columns) {c : Column}
    (hc : c ∈ columns) :
    Keeps I (evaluateColumn c) fun e => v.result columns c = .ok e := by
  refine (hbase.keeps_evaluateColumn c).imp fun e => ?_
  rintro ⟨x, inputs, t, hx, hinputs, ht, he⟩
  obtain ⟨hfaith, rfl⟩ := hI t ht
  refine (View.result_eq_ok hfaith.wellFormed.describes hc).2
    ⟨x, inputs, hx, mapM_eq_ok.2 ?_, ?_⟩
  · exact hinputs.imp fun _ _ hs => input_eq_ok_of_inputSeries hP hI hs
  · rw [← hP.rowCount_eq _ hfaith.source]
    exact he

/-- **Reading keeps the results right**, and what is kept for a column is its result. -/
theorem kept_faithful (columns : List Column) :
    Kept columns (fun c e => v.result columns c = .ok e)
      fun t : ComputedTable σ => t.ReadyFor P v columns := by
  have hbase := undisturbed_readyFor hP columns
  exact
    { hbase with
      columns_eq := fun t ht => ht.2
      known := by
        rintro t ⟨ht, rfl⟩ slot hslot e he
        exact ht.coherent slot hslot e he
      evaluate := fun c hc _ => keeps_evaluateColumn_result hP hbase (fun _ ht => ht) hc
      keep := by
        rintro t ⟨ht, rfl⟩ p c e hc hcomputed he
        refine ⟨⟨ht.source, ht.wellFormed.keep hc hcomputed, fun slot hslot e' he' => ?_⟩,
          columns_keep t p e⟩
        rw [columns_keep]
        rcases mem_modify hslot with hslot | ⟨old, hold, rfl⟩
        · exact ht.coherent slot hslot e' he'
        · cases he'
          rw [columns_getElem?_of_slot? hold] at hc
          cases hc
          exact he
      forget := by
        rintro t ⟨ht, rfl⟩ p
        refine ⟨⟨ht.source, ht.wellFormed.forget p, fun slot hslot e he => ?_⟩,
          columns_forget t p⟩
        rw [columns_forget]
        rcases mem_modify hslot with hslot | ⟨old, -, rfl⟩
        · exact ht.coherent slot hslot e he
        · cases he
      release := by
        rintro t ⟨ht, rfl⟩
        refine ⟨⟨ht.source, ht.wellFormed.release, coherent_of_empty fun slot hslot => ?_⟩,
          columns_release t⟩
        obtain ⟨old, -, rfl⟩ := List.mem_map.1 hslot
        rfl
      resetStatistics := fun t ht => ⟨ht.1.of_slots_eq rfl rfl ht.1.source rfl, ht.2⟩ }

omit hP in
/-- Every edit keeps the results right. -/
theorem Faithful.edited (h : t.Faithful P v) (hedit : t.Edited t') : t'.Faithful P v := by
  have hwf := h.wellFormed.edited hedit
  refine ⟨?_, hwf, h.coherent.edited h.wellFormed hwf hedit⟩
  rw [hedit.source_eq]
  exact h.source

/-- Every operation keeps the results right. -/
theorem Faithful.perform (h : t.Faithful P v) (op : Operation) :
    (op.perform.on t).2.Faithful P v := by
  cases op with
  | edit e => exact h.edited (perform_edit h.wellFormed.describes e)
  | _ => exact ((kept_faithful hP t.columns).keeps_perform (by simp) t ⟨h, rfl⟩).1.1

/-- **Kept results stay right on every run.** -/
theorem faithful_run (h : t.Faithful P v) (ops : List Operation) :
    (t.run ops).Faithful P v :=
  run_induction (fun _ ht op => ht.perform hP op) h ops

/-- A new table keeps nothing yet. -/
theorem faithful_of_create {s : σ} {registry : Registry} {config : Config} (hs : P s)
    (h : create s registry config = .ok t) : t.Faithful P v := by
  have hwf := wellFormed_of_create h
  obtain ⟨-, g, -, rfl⟩ := create_eq_ok.1 h
  refine ⟨hs, hP.schema_eq s hs ▸ hwf, coherent_of_empty fun slot hslot => ?_⟩
  obtain ⟨c, -, rfl⟩ := List.mem_map.1 hslot
  rfl

end

end FormulaTable.ComputedTable
