import FormulaTable.Proofs.Table.Edit

/-!
# The structure of a computed table

What holds of the columns, the graph and the kept results of a computed table after any run.
The columns of the source come first, each at its own position, and purely computed columns
follow; the graph is that of the columns; and only columns with a computation have a kept
result. Every edit restores this, in whichever way it changes the table, and everything else
leaves the columns alone.

* `wellFormed_run` — a table that is well formed stays so on every run.
* `exists_create_consistent` — a source with distinct names gives a table, and `Consistent`
  holds on every run of it.
-/

namespace FormulaTable

open Access

/-- Tables whose columns are not changed by reading. -/
class SteadySchema (σ : Type) [Tabular σ] : Prop where
  schema_readCell : ∀ (s : σ) (row column : Nat),
    Tabular.schema ((Tabular.readCell row column).on s).2 = Tabular.schema s
  schema_readColumn : ∀ (s : σ) (column : Nat),
    Tabular.schema ((Tabular.readColumn column).on s).2 = Tabular.schema s

instance : SteadySchema BaseTable where
  schema_readCell _ _ _ := rfl
  schema_readColumn _ _ := rfl

/-- Columns of a schema, as stored ones in their order. -/
def storedColumns (schema : List (String × Kind)) : List Column :=
  schema.zipIdx.map fun ((name, kind), i) => .stored name kind i

/-- Stored columns stand in the order of the schema. -/
theorem storedColumns_getElem? (schema : List (String × Kind)) (p : Nat) :
    (storedColumns schema)[p]? = schema[p]?.map fun c => .stored c.1 c.2 p := by
  rw [storedColumns, List.getElem?_map, List.getElem?_zipIdx, Option.map_map, Nat.zero_add]
  rfl

/-- There is one stored column for each entry of the schema. -/
theorem length_storedColumns (schema : List (String × Kind)) :
    (storedColumns schema).length = schema.length := by
  rw [storedColumns, List.length_map, List.length_zipIdx]

/-- They are of the names and kinds of the schema. -/
theorem map_storedColumns (schema : List (String × Kind)) :
    (storedColumns schema).map (fun c => (c.name, c.kind)) = schema := by
  refine List.ext_getElem? fun p => ?_
  rw [List.getElem?_map, storedColumns_getElem?, Option.map_map]
  exact Option.map_id_apply

/-- Stored columns have the names of the schema. -/
theorem map_name_storedColumns (schema : List (String × Kind)) :
    (storedColumns schema).map (·.name) = schema.map (·.1) := by
  have hnames := congrArg (List.map Prod.fst) (map_storedColumns schema)
  rwa [List.map_map] at hnames

/-- The columns of a table over a source with the given schema: first those of the source,
each at its own position, and then purely computed ones. -/
structure Layout (schema : List (String × Kind)) (columns : List Column) : Prop where
  front : ∀ (p : Nat) (name : String) (kind : Kind), schema[p]? = some (name, kind) →
    ∃ c, columns[p]? = some c ∧ c.name = name ∧ c.source? = some p ∧
      (c.computation? = none → c.kind = kind)
  back : ∀ (p : Nat) (c : Column), schema.length ≤ p → columns[p]? = some c →
    c.source? = none

namespace Layout

variable {schema : List (String × Kind)} {columns : List Column} (h : Layout schema columns)

include h

/-- A column that refers to a stored one stands at its position. -/
theorem eq_of_source? {p i : Nat} {c : Column} (hc : columns[p]? = some c)
    (hi : c.source? = some i) :
    i = p ∧ p < schema.length := by
  rcases Nat.lt_or_ge p schema.length with hp | hp
  · obtain ⟨d, hd, -, hsource, -⟩ := h.front _ _ _ (List.getElem?_eq_getElem hp)
    rw [hc] at hd
    cases hd
    rw [hi] at hsource
    exact ⟨Option.some.inj hsource, hp⟩
  · rw [h.back p c hp hc] at hi
    cases hi

/-- A computed column at the end. -/
theorem append {c : Column} (hsource : c.source? = none) :
    Layout schema (columns ++ [c]) where
  front p name kind hp := by
    obtain ⟨d, hd, hd'⟩ := h.front p name kind hp
    refine ⟨d, ?_, hd'⟩
    rw [List.getElem?_append_left (List.getElem?_eq_some_iff.1 hd).1, hd]
  back p d hp hd := by
    rcases Nat.lt_or_ge p columns.length with hlt | hge
    · rw [List.getElem?_append_left hlt] at hd
      exact h.back p d hp hd
    · rw [List.getElem?_append_right hge] at hd
      rw [List.mem_singleton.1 (List.mem_of_getElem? hd)]
      exact hsource

/-- Another column of the same name over the same stored column. -/
theorem set {p : Nat} {c c' : Column} (hc : columns[p]? = some c) (hname : c'.name = c.name)
    (hsource : c'.source? = c.source?)
    (hkind : c'.computation? = none →
      ∃ i name, c.source? = some i ∧ schema[i]? = some (name, c'.kind)) :
    Layout schema (columns.set p c') where
  front q name kind hq := by
    obtain ⟨d, hd, hd'⟩ := h.front q name kind hq
    rcases eq_or_ne p q with rfl | hpq
    · rw [hc] at hd
      cases hd
      obtain ⟨hn, hs, -⟩ := hd'
      refine ⟨c', List.getElem?_set_self (List.getElem?_eq_some_iff.1 hc).1, hname.trans hn,
        hsource.trans hs, fun hnone => ?_⟩
      obtain ⟨i, name', hi, hschema⟩ := hkind hnone
      rw [hs] at hi
      cases hi
      rw [hq] at hschema
      cases hschema
      rfl
    · exact ⟨d, by rw [List.getElem?_set_ne hpq, hd], hd'⟩
  back q d hq hd := by
    rcases eq_or_ne p q with rfl | hpq
    · rw [List.getElem?_set_self (List.getElem?_eq_some_iff.1 hc).1] at hd
      cases hd
      exact hsource.trans (h.back p c hq hc)
    · rw [List.getElem?_set_ne hpq] at hd
      exact h.back q d hq hd

/-- A purely computed column may go: it stands behind those of the source. -/
theorem eraseIdx {p : Nat} {c : Column} (hc : columns[p]? = some c)
    (hsource : c.source? = none) :
    Layout schema (columns.eraseIdx p) := by
  have hp : schema.length ≤ p := by
    by_contra hlt
    obtain ⟨d, hd, -, hd', -⟩ :=
      h.front p _ _ (List.getElem?_eq_getElem (Nat.lt_of_not_le hlt))
    rw [hc] at hd
    cases hd
    rw [hsource] at hd'
    cases hd'
  constructor
  · intro q name kind hq
    obtain ⟨d, hd, hd'⟩ := h.front q name kind hq
    have hlt := (List.getElem?_eq_some_iff.1 hq).1
    exact ⟨d, by rw [List.getElem?_eraseIdx_of_lt (by omega), hd], hd'⟩
  · intro q d hq hd
    rcases Nat.lt_or_ge q p with hlt | hge
    · rw [List.getElem?_eraseIdx_of_lt hlt] at hd
      exact h.back q d hq hd
    · rw [List.getElem?_eraseIdx_of_ge hge] at hd
      exact h.back (q + 1) d (by omega) hd

end Layout

namespace ComputedTable

variable {σ : Type} [Tabular σ] {schema : List (String × Kind)} {t t' : ComputedTable σ}

/-- What holds of a computed table over a source with the given schema. -/
structure WellFormed (schema : List (String × Kind)) (t : ComputedTable σ) : Prop where
  schema_eq : Tabular.schema t.source = schema
  describes : t.graph.Describes t.columns
  layout : Layout schema t.columns
  /-- Nothing is kept for a column that shows a stored one. -/
  empty : ∀ slot ∈ t.slots, slot.column.isComputed = false → slot.cached = none

/-! ### Edits -/

/-- The graph is that of the columns, whatever an edit makes of them. -/
theorem Edited.describes (hedit : t.Edited t') (h : t.graph.Describes t.columns) :
    t'.graph.Describes t'.columns := by
  cases hedit with
  | unchanged => exact h
  | added c g hsource hg => rwa [columns_appended]
  | replaced p c c' g hc hname hsource hkind hg => rwa [columns_replaced]
  | removed p c g hc hsource hg => rwa [columns_removed]

/-- A table stays well formed whatever an edit makes of it. -/
theorem WellFormed.edited (h : t.WellFormed schema) (hedit : t.Edited t') :
    t'.WellFormed schema := by
  have hdescribes := hedit.describes h.describes
  cases hedit with
  | unchanged => exact h
  | added c g hsource hg =>
      refine ⟨h.schema_eq, hdescribes, ?_, ?_⟩
      · rw [columns_appended]
        exact h.layout.append hsource
      · intro slot hslot hplain
        rcases List.mem_append.1 hslot with hslot | hslot
        · exact h.empty slot hslot hplain
        · rw [List.mem_singleton.1 hslot]
  | replaced p c c' g hc hname hsource hkind hg =>
      refine ⟨h.schema_eq, hdescribes, ?_, ?_⟩
      · rw [columns_replaced]
        exact h.layout.set hc hname hsource (h.schema_eq ▸ hkind)
      · intro slot hslot hplain
        by_contra hkept
        obtain ⟨e, he⟩ := Option.ne_none_iff_exists'.1 hkept
        obtain ⟨q, -, -, hget⟩ := exists_of_mem_replaced hslot he
        exact hkept (h.empty slot (List.mem_of_getElem? hget) hplain)
  | removed p c g hc hsource hg =>
      refine ⟨h.schema_eq, hdescribes, ?_, ?_⟩
      · rw [columns_removed]
        exact h.layout.eraseIdx hc hsource
      · intro slot hslot hplain
        exact h.empty slot (List.mem_of_mem_eraseIdx hslot) hplain

/-! ### Everything else -/

/-- A table with the same columns and graph over a source with the same schema. -/
theorem WellFormed.of_columns_eq (h : t.WellFormed schema)
    (hcolumns : t'.columns = t.columns) (hgraph : t'.graph = t.graph)
    (hschema : Tabular.schema t'.source = Tabular.schema t.source)
    (hempty : ∀ slot ∈ t'.slots, slot.column.isComputed = false → slot.cached = none) :
    t'.WellFormed schema where
  schema_eq := hschema.trans h.schema_eq
  describes := hcolumns ▸ hgraph ▸ h.describes
  layout := hcolumns ▸ h.layout
  empty := hempty

/-- Keeping the result of a computed column leaves a table well formed. -/
theorem WellFormed.keep (h : t.WellFormed schema) {p : Nat} {c : Column} {e : Evaluated}
    (hc : t.columns[p]? = some c) (hcomputed : c.isComputed) :
    (t.keep p e).WellFormed schema := by
  refine h.of_columns_eq (columns_keep t p e) rfl rfl fun slot hslot hplain => ?_
  rcases mem_modify hslot with hslot | ⟨old, hold, rfl⟩
  · exact h.empty slot hslot hplain
  · rw [columns_getElem?_of_slot? hold] at hc
    cases hc
    rw [hcomputed] at hplain
    cases hplain

/-- Forgetting a result leaves a table well formed. -/
theorem WellFormed.forget (h : t.WellFormed schema) (p : Nat) :
    (t.forget p).WellFormed schema := by
  refine h.of_columns_eq (columns_forget t p) rfl rfl fun slot hslot hplain => ?_
  rcases mem_modify hslot with hslot | ⟨old, -, rfl⟩
  · exact h.empty slot hslot hplain
  · rfl

/-- Forgetting all results leaves a table well formed. -/
theorem WellFormed.release (h : t.WellFormed schema) : t.release.WellFormed schema := by
  refine h.of_columns_eq (columns_release t) rfl rfl fun slot hslot _ => ?_
  obtain ⟨old, -, rfl⟩ := List.mem_map.1 hslot
  rfl

/-- Reading changes neither the columns nor the graph. -/
theorem kept_graph (columns : List Column) (g : Graph) :
    Kept columns (fun _ _ => True) fun t : ComputedTable σ => t.columns = columns ∧
      t.graph = g := by
  have hbase : Undisturbed fun t : ComputedTable σ => t.columns = columns ∧ t.graph = g :=
    { readCell := fun _ ht _ _ => ht
      readColumn := fun _ ht _ => ht
      countEvaluation := fun _ ht => ht
      countHit := fun _ ht => ht }
  exact
    { hbase with
      columns_eq := fun _ ht => ht.1
      known := fun _ _ _ _ _ _ => trivial
      evaluate := fun c _ _ => (hbase.keeps_evaluateColumn c).imp fun _ _ => trivial
      keep := fun t ht p _ e _ _ _ => ⟨(columns_keep t p e).trans ht.1, ht.2⟩
      forget := fun t ht p => ⟨(columns_forget t p).trans ht.1, ht.2⟩
      release := fun t ht => ⟨(columns_release t).trans ht.1, ht.2⟩
      resetStatistics := fun _ ht => ht }

/-- After every operation the graph is that of the columns. -/
theorem describes_perform (h : t.graph.Describes t.columns) (op : Operation) :
    (op.perform.on t).2.graph.Describes (op.perform.on t).2.columns := by
  by_cases hop : ∃ e, op = .edit e
  · obtain ⟨e, rfl⟩ := hop
    exact (perform_edit h e).describes h
  · have hread : ∀ e, op ≠ .edit e := fun e he => hop ⟨e, he⟩
    obtain ⟨hcolumns, hgraph⟩ :=
      ((kept_graph t.columns t.graph).keeps_perform hread t ⟨rfl, rfl⟩).1
    rw [hcolumns, hgraph]
    exact h

instance : SteadySchema (ComputedTable σ) where
  schema_readCell t row column := by
    have hkeep := ((kept_graph t.columns t.graph).keeps_readCell row column t ⟨rfl, rfl⟩).1
    exact congrArg (List.map fun c => (c.name, c.kind)) hkeep.1
  schema_readColumn t column := by
    have hkeep := ((kept_graph t.columns t.graph).keeps_readColumn column t ⟨rfl, rfl⟩).1
    exact congrArg (List.map fun c => (c.name, c.kind)) hkeep.1

/-- Over a source whose columns are steady, reading keeps a table well formed. -/
theorem kept_wellFormed [SteadySchema σ] (columns : List Column) :
    Kept columns (fun _ _ => True) fun t : ComputedTable σ => t.WellFormed schema ∧
      t.columns = columns := by
  have hbase : Undisturbed fun t : ComputedTable σ => t.WellFormed schema ∧
      t.columns = columns :=
    { readCell := fun t ht row i =>
        ⟨ht.1.of_columns_eq rfl rfl (SteadySchema.schema_readCell t.source row i)
          ht.1.empty, ht.2⟩
      readColumn := fun t ht i =>
        ⟨ht.1.of_columns_eq rfl rfl (SteadySchema.schema_readColumn t.source i) ht.1.empty,
          ht.2⟩
      countEvaluation := fun t ht => ⟨ht.1.of_columns_eq rfl rfl rfl ht.1.empty, ht.2⟩
      countHit := fun t ht => ⟨ht.1.of_columns_eq rfl rfl rfl ht.1.empty, ht.2⟩ }
  exact
    { hbase with
      columns_eq := fun t ht => ht.2
      known := fun _ _ _ _ _ _ => trivial
      evaluate := fun c _ _ => (hbase.keeps_evaluateColumn c).imp fun _ _ => trivial
      keep := fun t ht p c e hc hcomputed _ =>
        ⟨ht.1.keep (ht.2 ▸ hc) hcomputed, (columns_keep t p e).trans ht.2⟩
      forget := fun t ht p => ⟨ht.1.forget p, (columns_forget t p).trans ht.2⟩
      release := fun t ht => ⟨ht.1.release, (columns_release t).trans ht.2⟩
      resetStatistics := fun t ht => ⟨ht.1.of_columns_eq rfl rfl rfl ht.1.empty, ht.2⟩ }

/-- Every operation keeps a table well formed. -/
theorem WellFormed.perform [SteadySchema σ] (h : t.WellFormed schema) (op : Operation) :
    (op.perform.on t).2.WellFormed schema := by
  cases op with
  | edit e => exact h.edited (perform_edit h.describes e)
  | _ => exact ((kept_wellFormed t.columns).keeps_perform (by simp) t ⟨h, rfl⟩).1.1

/-- **A well-formed table stays so on every run.** -/
theorem wellFormed_run [SteadySchema σ] (h : t.WellFormed schema) (ops : List Operation) :
    (t.run ops).WellFormed schema :=
  run_induction (fun _ ht op => ht.perform op) h ops

/-! ### New tables -/

omit [Tabular σ] in
/-- What shows no stored column is computed. -/
theorem isComputed_of_source?_eq_none {c : Column} (h : c.source? = none) :
    c.isComputed := by
  refine Column.isComputed_iff.2 fun i k hcontent => ?_
  rw [Column.source?, hcontent] at h
  cases h

/-- The columns of a source stand in the order of its schema. -/
theorem sourceColumns_getElem? (s : σ) (p : Nat) :
    (sourceColumns s)[p]? = (Tabular.schema s)[p]?.map fun c => .stored c.1 c.2 p :=
  storedColumns_getElem? (Tabular.schema s) p

/-- The columns of a source have the names of its schema. -/
theorem map_name_sourceColumns (s : σ) :
    (sourceColumns s).map (·.name) = (Tabular.schema s).map (·.1) :=
  map_name_storedColumns (Tabular.schema s)

/-- The columns of a source are laid out as its schema says. -/
theorem layout_sourceColumns (s : σ) : Layout (Tabular.schema s) (sourceColumns s) where
  front p name kind hp := by
    refine ⟨.stored name kind p, ?_, rfl, rfl, fun _ => rfl⟩
    rw [sourceColumns_getElem?, hp]
    rfl
  back p c hp hc := by
    rw [sourceColumns_getElem?, List.getElem?_eq_none hp] at hc
    cases hc

/-- A table is created if its settings are valid and the columns of the source have a
graph. -/
theorem create_eq_ok {s : σ} {registry : Registry} {config : Config} :
    create s registry config = .ok t ↔ config.validate = .ok () ∧ ∃ g : Graph,
      g.Describes (sourceColumns s) ∧
        t = ⟨s, registry, config, (sourceColumns s).map (⟨·, none⟩), g, 0, 0⟩ := by
  rw [create, bind_eq_ok]
  constructor
  · rintro ⟨⟨⟩, hvalid, h⟩
    obtain ⟨g, hg, h⟩ := bind_eq_ok.1 h
    exact ⟨hvalid, g, Graph.build_eq_ok.1 hg, (Except.ok.inj h).symm⟩
  · rintro ⟨hvalid, g, hg, rfl⟩
    exact ⟨(), hvalid, bind_eq_ok.2 ⟨g, Graph.build_eq_ok.2 hg, rfl⟩⟩

/-- A source with distinct names can be shown. -/
theorem exists_create_eq_ok {s : σ} {registry : Registry} {config : Config}
    (hnames : ((Tabular.schema s).map (·.1)).Nodup) (hvalid : config.validate = .ok ()) :
    ∃ t, create s registry config = .ok t := by
  have hnodup : ((sourceColumns s).map (·.name)).Nodup := by
    rw [map_name_sourceColumns]
    exact hnames
  have hdeps : ∀ c ∈ sourceColumns s, c.dependencies = [] := by
    intro c hc
    obtain ⟨⟨⟨name, kind⟩, i⟩, -, rfl⟩ := List.mem_map.1 hc
    rfl
  obtain ⟨g, hg⟩ := Graph.exists_describes hnodup hdeps
  exact ⟨_, create_eq_ok.2 ⟨hvalid, g, hg, rfl⟩⟩

/-- A new table has the columns of its source. -/
theorem columns_of_create {s : σ} {registry : Registry} {config : Config}
    (h : create s registry config = .ok t) : t.columns = sourceColumns s := by
  obtain ⟨-, g, -, rfl⟩ := create_eq_ok.1 h
  rw [columns, List.map_map]
  exact List.map_id _

/-- A new table is well formed. -/
theorem wellFormed_of_create {s : σ} {registry : Registry} {config : Config}
    (h : create s registry config = .ok t) : t.WellFormed (Tabular.schema s) := by
  have hcolumns := columns_of_create h
  obtain ⟨-, g, hg, rfl⟩ := create_eq_ok.1 h
  refine ⟨rfl, ?_, ?_, ?_⟩
  · rw [hcolumns]
    exact hg
  · rw [hcolumns]
    exact layout_sourceColumns s
  · intro slot hslot _
    obtain ⟨c, -, rfl⟩ := List.mem_map.1 hslot
    rfl

/-- The graph of a table is that of its columns, after every run. -/
theorem describes_run {s : σ} {registry : Registry} {config : Config}
    (h : create s registry config = .ok t) (ops : List Operation) :
    (t.run ops).graph.Describes (t.run ops).columns :=
  run_induction (I := fun t => t.graph.Describes t.columns)
    (fun _ ht op => describes_perform ht op)
    (wellFormed_of_create h).describes ops

/-! ### What can be relied on -/

/-- How the columns, the graph, the kept results and the source of a computed table go
together. -/
structure Consistent (schema : List (String × Kind)) (t : ComputedTable σ) : Prop where
  names_nodup : (t.columns.map (·.name)).Nodup
  /-- There is one place for a result for each column. -/
  slots_length : t.slots.length = t.columns.length
  /-- Nothing is kept for a column that shows a stored one. -/
  slots_empty : ∀ slot ∈ t.slots, slot.column.isComputed = false → slot.cached = none
  graph_eq : Graph.build t.columns = .ok t.graph
  acyclic : ∀ p, ¬ Relation.TransGen t.graph.Reads p p
  inputs_named : ∀ c ∈ t.columns, ∀ input ∈ c.inputs, ∃ d ∈ t.columns, d.name = input
  schema_eq : Tabular.schema t.source = schema
  /-- The columns of the source come first, in its order. -/
  source_columns : ∀ (p : Nat) (name : String) (kind : Kind),
    schema[p]? = some (name, kind) →
    ∃ c, t.columns[p]? = some c ∧ c.name = name ∧ c.source? = some p
  /-- All later columns are purely computed. -/
  computed_columns : ∀ (p : Nat) (c : Column), schema.length ≤ p → t.columns[p]? = some c →
    c.source? = none ∧ c.isComputed
  kind_computed : ∀ c ∈ t.columns, ∀ x, c.computation? = some x → c.kind = x.kind
  kind_stored : ∀ (p : Nat) (c : Column), t.columns[p]? = some c → c.isComputed = false →
    schema[p]? = some (c.name, c.kind)
  counts_le : t.statistics.materializedColumns ≤ t.statistics.computedColumns

/-- Every input of a column is its own name or that of a column that it depends on. -/
theorem WellFormed.exists_input (h : t.WellFormed schema) {c : Column} (hc : c ∈ t.columns)
    {input : String} (hinput : input ∈ c.inputs) : ∃ d ∈ t.columns, d.name = input := by
  cases hx : c.computation? with
  | none =>
      rw [Column.inputs, hx] at hinput
      cases hinput
  | some x =>
      rw [Column.inputs, hx] at hinput
      cases hown : c.own? input with
      | some i =>
          rw [Column.own?] at hown
          split at hown
          case isTrue heq => exact ⟨c, hc, heq.symm⟩
          case isFalse => cases hown
      | none =>
          obtain ⟨p, hp⟩ := List.mem_iff_getElem?.1 hc
          have hdep := Column.mem_dependencies_of_input hx hinput hown
          obtain ⟨q, d, hd, hname, -⟩ := h.describes.exists_of_mem_dependencies hp hdep
          exact ⟨d, List.mem_of_getElem? hd, hname⟩

/-- A well-formed table is consistent. -/
theorem WellFormed.consistent (h : t.WellFormed schema) : t.Consistent schema where
  names_nodup := h.describes.nodup
  slots_length := t.length_columns.symm
  slots_empty := h.empty
  graph_eq := Graph.build_eq_ok.2 h.describes
  acyclic := h.describes.not_transGen_self
  inputs_named _ hc _ hinput := h.exists_input hc hinput
  schema_eq := h.schema_eq
  source_columns p name kind hp := by
    obtain ⟨c, hc, hname, hsource, -⟩ := h.layout.front p name kind hp
    exact ⟨c, hc, hname, hsource⟩
  computed_columns p c hp hc :=
    ⟨h.layout.back p c hp hc, isComputed_of_source?_eq_none (h.layout.back p c hp hc)⟩
  kind_computed _ _ _ hx := Column.kind_eq_of_computation? hx
  kind_stored p c hc hplain := by
    have hnone : c.computation? = none := by simpa [Column.isComputed] using hplain
    obtain ⟨i, hcontent⟩ := Column.exists_content_eq_stored hnone
    have hsource : c.source? = some i := by rw [Column.source?, hcontent]
    obtain ⟨rfl, hlt⟩ := h.layout.eq_of_source? hc hsource
    obtain ⟨d, hd, hname, -, hkind⟩ := h.layout.front i _ _ (List.getElem?_eq_getElem hlt)
    rw [hc] at hd
    cases hd
    rw [List.getElem?_eq_getElem hlt, hname, hkind hnone]
    rfl
  counts_le := by
    refine List.countP_mono_left fun slot hslot hkept => ?_
    by_contra hplain
    rw [h.empty slot hslot (by simpa using hplain)] at hkept
    cases hkept

/-- **The representation invariant**: a source with distinct names gives a table, and its
parts go together after every run. -/
theorem exists_create_consistent [SteadySchema σ] (s : σ) (registry : Registry)
    (config : Config) (hnames : ((Tabular.schema s).map (·.1)).Nodup)
    (hvalid : config.validate = .ok ()) :
    ∃ t, create s registry config = .ok t ∧ ∀ ops,
      (t.run ops).Consistent (Tabular.schema s) := by
  obtain ⟨t, ht⟩ := exists_create_eq_ok hnames hvalid
  exact ⟨t, ht, fun ops => (wellFormed_run (wellFormed_of_create ht) ops).consistent⟩

/-- The representation invariant of the tables over one stored column. -/
theorem exists_create_consistent_memory :
    ((Tabular.schema BaseTable.singleColumn).map (·.1)).Nodup ∧
      Config.standard.validate = .ok () ∧
      ∃ t, create BaseTable.singleColumn .standard .standard = .ok t ∧
        ∀ ops, (t.run ops).Consistent (Tabular.schema BaseTable.singleColumn) :=
  ⟨by decide, rfl,
    exists_create_consistent BaseTable.singleColumn .standard .standard (by decide) rfl⟩

end ComputedTable

/-- The columns of a stack are those of its outermost table. -/
instance (n : Nat) : SteadySchema (Stack n) :=
  match n with
  | 0 => inferInstanceAs (SteadySchema BaseTable)
  | n + 1 => inferInstanceAs (SteadySchema (ComputedTable (Stack n)))

end FormulaTable
