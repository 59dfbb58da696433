import FormulaTable.Proofs.Table.Coherence

/-!
# Evaluation never gets stuck

Over a source in which everything within the bounds can be read, every column of a computed
table can be read too. Columns are evaluated in an order in which each one comes after those
it depends on, so that its inputs are known when its turn comes, and a run of a computation
cannot fail on them.

* `ensures_fillAll` — evaluating in order succeeds, and afterwards the columns are known.
* `readCell_eq`, `readColumn_eq` — what is read is what the definitions give.
-/

namespace FormulaTable.ComputedTable

open Access

variable {σ : Type} [Tabular σ] {P : σ → Prop} {v : View} {t t' : ComputedTable σ}
  {columns : List Column} {g : Graph}

/-- The columns at the given positions are known, as far as they are computed. -/
def Filled (ps : List Nat) (t : ComputedTable σ) : Prop :=
  ∀ p ∈ ps, ∀ slot, t.slot? p = some slot → slot.column.isComputed → slot.cached.isSome

/-- A table with the given columns may be read, and those at the given positions are
known. -/
def ReadyWith (P : σ → Prop) (v : View) (columns : List Column) (ps : List Nat)
    (t : ComputedTable σ) :
    Prop :=
  t.ReadyFor P v columns ∧ t.Filled ps

omit [Tabular σ] in
/-- A result that is kept fills its position, and empties none. -/
theorem Filled.keep {ps : List Nat} (h : t.Filled ps) (p : Nat) (e : Evaluated) :
    (t.keep p e).Filled (ps ++ [p]) := by
  intro q hq slot hslot hcomputed
  rw [keep_slot?] at hslot
  obtain ⟨old, hold, rfl⟩ := Option.map_eq_some_iff.1 hslot
  by_cases hpq : p = q
  · rw [if_pos hpq]
    rfl
  · rw [if_neg hpq] at hcomputed ⊢
    rcases List.mem_append.1 hq with hq | hq
    · exact h q hq old hold hcomputed
    · exact absurd (List.mem_singleton.1 hq).symm hpq

omit [Tabular σ] in
/-- A computed column that is known has a result. -/
theorem Filled.exists_cached? {ps : List Nat} (h : t.Filled ps) {p : Nat} (hp : p ∈ ps)
    {c : Column} (hc : t.columns[p]? = some c) (hcomputed : c.isComputed) :
    ∃ e, t.cached? p = some e := by
  rw [columns_getElem?] at hc
  obtain ⟨slot, hslot, rfl⟩ := Option.map_eq_some_iff.1 hc
  obtain ⟨e, he⟩ := Option.isSome_iff_exists.1 (h p hp slot hslot hcomputed)
  exact ⟨e, Option.bind_eq_some_iff.2 ⟨slot, hslot, he⟩⟩

/-- The stored columns that a table refers to are those of the view. -/
theorem WellFormed.hosts (h : t.WellFormed v.schema) : v.Hosts t.columns := by
  intro c hc i hi
  obtain ⟨p, hp⟩ := List.mem_iff_getElem?.1 hc
  obtain ⟨rfl, hlt⟩ := h.layout.eq_of_source? hp hi
  obtain ⟨d, hd, -, -, hkind⟩ := h.layout.front i _ _ (List.getElem?_eq_getElem hlt)
  rw [hp] at hd
  cases hd
  exact ⟨_, _, List.getElem?_eq_getElem hlt, hkind⟩

/-- The graph of a table is the one that its columns make. -/
theorem ReadyFor.graph_eq (h : t.ReadyFor P v columns) (hg : g.Describes columns) :
    t.graph = g := by
  obtain ⟨ht, rfl⟩ := h
  exact ht.wellFormed.describes.graph_eq hg

omit [Tabular σ] in
/-- An input of a column is found, if the columns that it depends on are known. -/
theorem exists_origin_eq_ok (hg : t.graph.Describes t.columns) {p : Nat} {c : Column}
    (hc : t.columns[p]? = some c) {x : Computation} (hx : c.computation? = some x)
    (hfilled : t.Filled (t.graph.dependencies p)) {input : String}
    (hinput : input ∈ x.inputs) :
    ∃ o, t.origin c input = .ok o := by
  rw [origin]
  split
  case h_1 i hown => exact ⟨_, rfl⟩
  case h_2 hown =>
    have hdep := Column.mem_dependencies_of_input hx hinput hown
    obtain ⟨q, d, hd, hname, hq⟩ := hg.exists_of_mem_dependencies hc hdep
    have hpos : t.position input = .ok q := hg.position_eq_ok.2 ⟨d, hd, hname⟩
    rw [columns_getElem?] at hd
    obtain ⟨slot, hslot, rfl⟩ := Option.map_eq_some_iff.1 hd
    have hnamed := slotNamed_eq_ok.2 ⟨q, hpos, hslot⟩
    cases hcontent : slot.column.content with
    | stored i k => exact ⟨.source i, bind_eq_ok.2 ⟨slot, hnamed, by rw [hcontent]; rfl⟩⟩
    | _ =>
        have hcomputed : slot.column.isComputed := by simp [Column.isComputed_iff, hcontent]
        obtain ⟨e, he⟩ := Option.isSome_iff_exists.1 (hfilled q hq slot hslot hcomputed)
        exact ⟨.kept e.series, bind_eq_ok.2 ⟨slot, hnamed, by rw [hcontent, he]; rfl⟩⟩

section

variable (hP : Shows P v)

include hP

/-- Reads of the source leave a table ready. -/
theorem undisturbed_readyWith (columns : List Column) (ps : List Nat) :
    Undisturbed fun t : ComputedTable σ => t.ReadyWith P v columns ps where
  readCell t ht row i := ⟨(undisturbed_readyFor hP columns).readCell t ht.1 row i, ht.2⟩
  readColumn t ht i := ⟨(undisturbed_readyFor hP columns).readColumn t ht.1 i, ht.2⟩
  countEvaluation t ht := ⟨(undisturbed_readyFor hP columns).countEvaluation t ht.1, ht.2⟩
  countHit t ht := ⟨(undisturbed_readyFor hP columns).countHit t ht.1, ht.2⟩

variable (hv : v.Complete) (hg : g.Describes columns)

include hv hg

/-! ### Evaluation in order -/

/-- An input of a column can be read when the columns that it depends on are known. -/
theorem ensures_readInput {ps : List Nat} {p : Nat} {c : Column} (hc : columns[p]? = some c)
    {x : Computation} (hx : c.computation? = some x) (hdeps : g.dependencies p ⊆ ps)
    {input : String} (hinput : input ∈ x.inputs) :
    Ensures (ReadyWith P v columns ps) (readInput (σ := σ) c input) fun _ _ => True := by
  rintro t ⟨ht, hfilled⟩
  have hgraph := ht.graph_eq hg
  obtain ⟨hfaith, rfl⟩ := ht
  have hdescribes := hfaith.wellFormed.describes
  obtain ⟨o, ho⟩ := exists_origin_eq_ok hdescribes hc hx
    (fun q hq => hfilled q (hdeps (hgraph ▸ hq))) hinput
  -- The input has a value, since every computed column has a result.
  obtain ⟨s, hs, -⟩ := View.exists_input_eq_ok hdescribes hv hfaith.wellFormed.hosts hc hx
    (fun q _ d hd hcomputed =>
        View.exists_result_eq_ok hdescribes hv hfaith.wellFormed.hosts hd hcomputed)
    hinput
  rw [input_of_origin hdescribes hfaith.coherent ho] at hs
  rw [readInput, on_get_bind,
    on_bind_ok (show (ofExcept _).on t = (.ok o, t) by rw [ho]; rfl)]
  cases o with
  | source i =>
      refine ⟨s, ?_, trivial⟩
      rw [← hs, Origin.series, ← hP.readColumn_eq _ hfaith.source i]
      rfl
  | kept s' => exact ⟨s', rfl, trivial⟩

/-- A column can be evaluated when the columns that it depends on are known. -/
theorem ensures_evaluateColumn {ps : List Nat} {p : Nat} {c : Column}
    (hc : columns[p]? = some c) (hcomputed : c.isComputed) (hdeps : g.dependencies p ⊆ ps) :
    Ensures (ReadyWith P v columns ps) (evaluateColumn (σ := σ) c) fun e t =>
      t.ReadyWith P v columns ps ∧ v.result columns c = .ok e := by
  obtain ⟨x, hx⟩ := Option.isSome_iff_exists.1 hcomputed
  have hbase := undisturbed_readyWith hP columns ps (σ := σ)
  have hready : ∀ t : ComputedTable σ, t.ReadyWith P v columns ps →
      t.ReadyFor P v columns :=
    fun _ ht => ht.1
  have hkeep := keeps_evaluateColumn_result hP hbase hready (List.mem_of_getElem? hc)
  refine Ensures.imp (Ensures.and_keeps (K := fun _ _ => True) ?_ hkeep) fun e t h => h.2
  rw [evaluateColumn, hx]
  -- Each input can be read, and is what the definitions give.
  have hreads : Ensures (ReadyWith P v columns ps) (x.inputs.mapM (readInput (σ := σ) c))
      fun _ => ReadyWith P v columns ps := by
    refine Ensures.mapM fun input hinput => ?_
    refine (Ensures.and_keeps (ensures_readInput hP hv hg hc hx hdeps hinput)
      (hbase.keeps_readInput c input)).imp fun _ _ h => h.2.1
  have hvalues := Keeps.mapM fun input (_ : input ∈ x.inputs) =>
    (hbase.keeps_readInput c input).imp fun _ hs => input_eq_ok_of_inputSeries hP hready hs
  refine (hreads.and_keeps hvalues).bind fun inputs => ?_
  refine (ensures_modify (J := fun t => t.ReadyWith P v columns ps ∧
    List.Forall₂ (fun input s => v.input columns c input = .ok s) x.inputs
      inputs) fun t ht =>
      ⟨hbase.countEvaluation t ht.1, ht.2.2⟩).bind fun _ => ?_
  refine ensures_get.bind fun t => ensures_ofExcept ?_
  rintro _ ⟨rfl, ht, hinputs⟩
  obtain ⟨⟨hfaith, rfl⟩, -⟩ := ht
  obtain ⟨e, he⟩ := View.exists_result_eq_ok hg hv hfaith.wellFormed.hosts hc hcomputed
  obtain ⟨y, inputs', hy, hinputs', hrun⟩ :=
    (View.result_eq_ok hg (List.mem_of_getElem? hc)).1 he
  rw [hx] at hy
  cases hy
  rw [mapM_eq_ok.2 hinputs] at hinputs'
  cases hinputs'
  rw [← hP.rowCount_eq _ hfaith.source] at hrun
  exact ⟨e, hrun, trivial⟩

/-- Evaluating a column that is ready makes it known. -/
theorem ensures_fill {ps : List Nat} {p : Nat} (hdeps : g.dependencies p ⊆ ps) :
    Ensures (ReadyWith P v columns ps) (fill (σ := σ) p) fun _ =>
      ReadyWith P v columns (ps ++ [p]) := by
  refine ensures_get.bind fun t => ?_
  cases hslot : t.slot? p with
  | none =>
      refine ensures_pure ?_
      rintro _ ⟨rfl, ht, hfilled⟩
      refine ⟨ht, fun q hq slot hq' hcomputed => ?_⟩
      rcases List.mem_append.1 hq with hq | hq
      · exact hfilled q hq slot hq' hcomputed
      · rw [List.mem_singleton.1 hq, hslot] at hq'
        cases hq'
  | some slot =>
      show Ensures _ (if slot.column.isComputed && slot.cached.isNone then _ else _) _
      split
      case isFalse hknown =>
        refine ensures_pure ?_
        rintro _ ⟨rfl, ht, hfilled⟩
        refine ⟨ht, fun q hq other hq' hcomputed => ?_⟩
        rcases List.mem_append.1 hq with hq | hq
        · exact hfilled q hq other hq' hcomputed
        · rw [List.mem_singleton.1 hq, hslot] at hq'
          cases hq'
          simpa [hcomputed, Option.isSome_iff_ne_none] using hknown
      case isTrue hopen =>
        have hcomputed := (Bool.and_eq_true_iff.1 hopen).1
        rintro _ ⟨rfl, ht⟩
        have hc : columns[p]? = some slot.column := ht.1.2 ▸ columns_getElem?_of_slot? hslot
        refine Ensures.bind (ensures_evaluateColumn hP hv hg hc hcomputed hdeps)
          (fun e => ?_) t ht
        refine (ensures_modify fun t₁ ht₁ => ?_).bind fun _ => ensures_pure fun _ ht₂ => ht₂
        obtain ⟨⟨hready, hfilled⟩, he⟩ := ht₁
        exact ⟨(kept_faithful hP columns).keep t₁ hready p _ e hc hcomputed he,
          hfilled.keep p e⟩

/-- **Evaluating in order succeeds**, and makes the columns known. -/
theorem ensures_mapM_fill {wanted : Nat → Bool}
    (hclosed : ∀ p, wanted p → ∀ q ∈ g.dependencies p, wanted q) {placed ps : List Nat}
    (hready : g.ReadyAfter wanted placed ps) :
    Ensures (ReadyWith P v columns placed) (ps.mapM (fill (σ := σ)))
      fun _ => ReadyWith P v columns (placed ++ ps) := by
  induction ps generalizing placed with
  | nil =>
      rw [List.mapM_nil, List.append_nil]
      exact ensures_pure fun _ ht => ht
  | cons p ps ih =>
      obtain ⟨⟨-, hwanted, -, hdeps⟩, hrest⟩ := hready
      rw [List.mapM_cons]
      refine (ensures_fill hP hv hg fun q hq => hdeps q hq (hclosed p hwanted q hq)).bind
        fun _ => ?_
      refine (ih hrest).bind fun _ => ensures_pure fun t ht => ?_
      rwa [List.append_assoc, List.singleton_append] at ht

/-- Filling in an order that is closed under dependencies succeeds, and leaves a ready table
in which all of it is filled. -/
theorem ensures_fillAll {wanted : Nat → Bool}
    (hclosed : ∀ p, wanted p → ∀ q ∈ g.dependencies p, wanted q) :
    Ensures (ReadyFor P v columns) (fillAll (σ := σ) (g.orderOf wanted))
      fun _ => ReadyWith P v columns (g.orderOf wanted) := by
  have hfill := ensures_mapM_fill hP hv hg hclosed Graph.readyAfter_orderOf (σ := σ)
  refine (hfill.of_imp fun t ht => ⟨ht, fun p hp => nomatch hp⟩).bind fun _ => ?_
  exact ensures_pure fun _ ht => ht

/-- Materializing everything succeeds, and leaves a ready table in which everything is
filled. -/
theorem ensures_materializeAll :
    Ensures (ReadyFor P v columns) (materializeAll (σ := σ)) fun _ _ => True := by
  rintro t ht
  have hgraph := ht.graph_eq hg
  rw [materializeAll, on_get_bind, hgraph]
  exact (ensures_fillAll hP hv hg fun _ _ _ _ => rfl).imp (fun _ _ _ => trivial) t ht

/-- A computed column can be evaluated with all it needs, and its result is that of the
definition. -/
theorem ensures_materializeAt {p : Nat} {c : Column} (hc : columns[p]? = some c)
    (hcomputed : c.isComputed) :
    Ensures (ReadyFor P v columns) (materializeAt (σ := σ) p) fun e _ =>
      v.result columns c = .ok e := by
  have hkeep := (kept_faithful hP columns).keeps_materializeAt hc (σ := σ)
  refine Ensures.imp (Ensures.and_keeps (K := fun _ _ => True) ?_ hkeep) fun _ _ h => h.2.2
  have hp : p < g.size := hg.size_eq ▸ (List.getElem?_eq_some_iff.1 hc).1
  refine ensures_get.bind fun t => ?_
  cases hcached : t.cached? p with
  | some e =>
      exact (ensures_modify (J := fun _ => True) fun _ _ => trivial).bind fun _ =>
        ensures_pure fun _ _ => trivial
  | none =>
      refine ensures_get.bind fun t₁ => ?_
      rintro _ ⟨rfl, rfl, ht⟩
      have hfill : Ensures (ReadyFor P v columns) (fillAll (σ := σ) (g.orderFor p))
          fun _ => ReadyWith P v columns (g.orderFor p) :=
        ensures_fillAll hP hv hg fun _ hq _ hr =>
          hg.contains_closure_of_mem_dependencies hp hq hr
      rw [ht.graph_eq hg]
      refine Ensures.bind (L := fun _ _ => True) hfill
        (fun _ => ensures_get.bind fun t₂ => ?_) t ht
      rintro _ ⟨rfl, ht₂, hfilled⟩
      -- The column itself is among those that were evaluated.
      obtain ⟨e, hcached₂⟩ :=
        hfilled.exists_cached? ((hg.mem_orderFor hp).2 .refl) (ht₂.2.symm ▸ hc) hcomputed
      rw [hcached₂]
      exact ⟨e, rfl, trivial⟩

end

/-! ### Reads -/

section

variable (hP : Shows P v) (hv : v.Complete) (ht : t.ReadyFor P v columns)

include hP hv ht

/-- **A cell that is read is that of the definitions.** -/
theorem readCell_eq (row column : Nat) :
    ((readCell row column).on t).1 = (v.computed columns).cell row column := by
  have hready := ht
  obtain ⟨hfaith, rfl⟩ := ht
  have hrows := hP.rowCount_eq _ hfaith.source
  rcases Nat.lt_or_ge row v.rows with hrow | hrow
  · have hrow' : row < Tabular.rowCount t.source := hrows ▸ hrow
    cases hslot : t.slot? column with
    | none =>
        have hc : t.columns[column]? = none := by rw [columns_getElem?, hslot]; rfl
        rw [on_readCell_of_none hrow' hslot, View.computed_cell_of_none hrow hc,
          t.length_columns]
    | some slot =>
        have hc := columns_getElem?_of_slot? hslot
        rcases slot.column.stored_or_isComputed with ⟨i, hcontent⟩ | hcomputed
        · rw [on_readCell_of_stored hrow' hslot hcontent,
            View.computed_cell_stored hrow hc hcontent]
          exact hP.readCell_eq _ hfaith.source row i
        · rw [View.computed_cell_computed hrow hc hcomputed]
          cases hcached : slot.cached with
          | some e =>
              rw [on_readCell_of_cached hrow' hslot hcomputed hcached,
                hfaith.coherent slot (List.mem_of_getElem? hslot) e hcached]
              rfl
          | none =>
              obtain ⟨e, he, hresult⟩ :=
                ensures_materializeAt hP hv hfaith.wellFormed.describes hc hcomputed
                t hready
              obtain ⟨t', hon⟩ := exists_on_eq_ok he
              rw [hresult, on_readCell_of_open hrow' hslot hcomputed hcached,
                on_bind_ok hon]
              rfl
  · rw [on_readCell_of_row_le (hrows ▸ hrow), View.computed_cell_eq_error hrow, hrows]

/-- **A column that is read is that of the definitions.** -/
theorem readColumn_eq (column : Nat) :
    ((readColumn column).on t).1 = (v.computed columns).series column := by
  have hready := ht
  obtain ⟨hfaith, rfl⟩ := ht
  cases hslot : t.slot? column with
  | none =>
      have hc : t.columns[column]? = none := by rw [columns_getElem?, hslot]; rfl
      rw [on_readColumn_of_none hslot, View.computed_series_of_none hc, t.length_columns]
  | some slot =>
      have hc := columns_getElem?_of_slot? hslot
      rcases slot.column.stored_or_isComputed with ⟨i, hcontent⟩ | hcomputed
      · rw [on_readColumn_of_stored hslot hcontent, View.computed_series_stored hc hcontent]
        exact hP.readColumn_eq _ hfaith.source i
      · rw [View.computed_series_computed hc hcomputed]
        cases hcached : slot.cached with
        | some e =>
            rw [on_readColumn_of_cached hslot hcomputed hcached,
              hfaith.coherent slot (List.mem_of_getElem? hslot) e hcached]
            rfl
        | none =>
            obtain ⟨e, he, hresult⟩ :=
              ensures_materializeAt hP hv hfaith.wellFormed.describes hc hcomputed
              t hready
            obtain ⟨t', hon⟩ := exists_on_eq_ok he
            rw [hresult, on_readColumn_of_open hslot hcomputed hcached, on_bind_ok hon]
            rfl

end

end FormulaTable.ComputedTable
