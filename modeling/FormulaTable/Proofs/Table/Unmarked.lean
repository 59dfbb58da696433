import FormulaTable.Proofs.Table.Coherence

/-!
# Tables that differ in their markers

The settings of a computation choose its markers: what is stored in the rows that fail. Two
columns are alike if they are the same without the markers. Whether an edit succeeds, and
which graph it makes, does not depend on markers, so that alike edits keep the columns of
two tables alike.

* `AlikeColumns.describes` — alike columns make the same graph.
* `alike_run` — alike runs lead to alike columns.
-/

namespace FormulaTable

/-! ### What is left without markers -/

/-- The settings without the choice of markers. -/
def Config.unmarked (c : Config) : Config := { c with errorSentinel := 0, errorLabel := "" }

/-- The computation without its markers. -/
def Computation.unmarked (x : Computation) : Computation :=
  { x with config := x.config.unmarked }

/-- The content without the markers of its computation. -/
def Content.unmarked : Content → Content
  | stored i k => stored i k
  | computed x => computed x.unmarked
  | transformed i x => transformed i x.unmarked

/-- The column without the markers of its computation. -/
def Column.unmarked (c : Column) : Column := ⟨c.name, c.content.unmarked⟩

/-- The edit without the markers of the computation that it brings. -/
def Edit.unmarked : Edit → Edit
  | add name x => add name x.unmarked
  | set name x => set name x.unmarked
  | clear name => clear name
  | remove name => remove name

/-- The operation without markers. -/
def Operation.unmarked : Operation → Operation
  | edit e => edit e.unmarked
  | op => op

namespace Content

/-- A stored column has no markers to lose. -/
theorem unmarked_eq_stored {content : Content} {i : Nat} {k : Kind} :
    content.unmarked = stored i k ↔ content = stored i k := by
  cases content <;> simp [unmarked]

/-- What is a transformed column without markers is one with markers. -/
theorem unmarked_eq_transformed {content : Content} {i : Nat} {y : Computation} :
    content.unmarked = transformed i y ↔
      ∃ x, content = transformed i x ∧ x.unmarked = y := by
  cases content <;> simp [unmarked]

end Content

namespace Column

variable (c : Column)

/-- Markers have nothing to do with the stored column below. -/
@[simp] theorem source?_unmarked : c.unmarked.source? = c.source? := by
  obtain ⟨name, content⟩ := c
  cases content <;> rfl

/-- Markers have nothing to do with what a column depends on. -/
@[simp] theorem dependencies_unmarked : c.unmarked.dependencies = c.dependencies := by
  obtain ⟨name, content⟩ := c
  cases content <;> rfl

/-- Markers have nothing to do with the kind of a column. -/
@[simp] theorem kind_unmarked : c.unmarked.kind = c.kind := by
  obtain ⟨name, content⟩ := c
  cases content <;> rfl

/-- The computation of a column without markers is its computation without them. -/
@[simp] theorem computation?_unmarked :
    c.unmarked.computation? = c.computation?.map (·.unmarked) := by
  obtain ⟨name, content⟩ := c
  cases content <;> rfl

/-- Setting a computation without markers sets it in a column without them. -/
@[simp] theorem unmarked_withComputation (x : Computation) :
    (c.withComputation x).unmarked = c.unmarked.withComputation x.unmarked := by
  obtain ⟨name, content⟩ := c
  cases content <;> rfl

end Column

/-! ### Alike columns -/

/-- The computations are the same but for their markers. -/
def Computation.Alike (x x' : Computation) : Prop := x.unmarked = x'.unmarked

namespace Computation.Alike

variable {x x' : Computation} (h : x.Alike x')

include h

/-- Alike computations have the same inputs. -/
theorem inputs_eq : x.inputs = x'.inputs := (congrArg Computation.inputs h :)

/-- Alike computations have the same kind. -/
theorem kind_eq : x.kind = x'.kind := (congrArg Computation.kind h :)

/-- Alike computations have the same program. -/
theorem program_eq : x.program = x'.program := (congrArg Computation.program h :)

end Computation.Alike

/-- The columns are the same but for their markers. -/
def Column.Alike (c c' : Column) : Prop := c.unmarked = c'.unmarked

namespace Column.Alike

variable {c c' : Column} (h : c.Alike c')

include h

/-- Alike columns have the same name. -/
theorem name_eq : c.name = c'.name := (congrArg Column.name h :)

/-- Alike columns have the same stored column below. -/
theorem source?_eq : c.source? = c'.source? := by
  rw [← source?_unmarked, h, source?_unmarked]

/-- Alike columns read themselves in the same way. -/
theorem own?_eq (input : String) : c.own? input = c'.own? input := by
  rw [own?, own?, h.name_eq, h.source?_eq]

/-- Only a column that shows the same stored one is like a stored column. -/
theorem content_eq_stored {i : Nat} {k : Kind} (hc : c.content = .stored i k) :
    c'.content = .stored i k := by
  rw [← Content.unmarked_eq_stored] at hc ⊢
  exact (congrArg Column.content h).symm.trans hc

/-- What is like a transformed column is one over the same stored column. -/
theorem exists_content_eq_transformed {i : Nat} {x : Computation}
    (hc : c.content = .transformed i x) :
    ∃ x', c'.content = .transformed i x' := by
  have hcontent : c'.content.unmarked = .transformed i x.unmarked :=
    (congrArg Column.content h).symm.trans (Content.unmarked_eq_transformed.2 ⟨x, hc, rfl⟩)
  exact (Content.unmarked_eq_transformed.1 hcontent).imp fun _ hx => hx.1

/-- Alike columns have alike computations. -/
theorem exists_computation? {x : Computation} (hx : c.computation? = some x) :
    ∃ x', c'.computation? = some x' ∧ x.Alike x' := by
  have hx' : c'.computation?.map (·.unmarked) = some x.unmarked := by
    rw [← computation?_unmarked, ← h, computation?_unmarked, hx]
    rfl
  exact (Option.map_eq_some_iff.1 hx').imp fun _ hx' => ⟨hx'.1, hx'.2.symm⟩

/-- Alike columns are computed or stored both. -/
theorem isComputed_eq : c.isComputed = c'.isComputed := by
  have hx := congrArg (·.computation?.isSome) h
  simpa [isComputed] using hx

/-- Alike columns have the same kind. -/
theorem kind_eq : c.kind = c'.kind := by
  rw [← kind_unmarked, h, kind_unmarked]

/-- Alike columns stay alike when alike computations are set. -/
theorem withComputation {x x' : Computation} (hx : x.Alike x') :
    (c.withComputation x).Alike (c'.withComputation x') := by
  rw [Column.Alike, unmarked_withComputation, unmarked_withComputation, h, hx]

end Column.Alike

/-- The columns are the same but for their markers. -/
def AlikeColumns (columns columns' : List Column) : Prop :=
  columns.map Column.unmarked = columns'.map Column.unmarked

/-- Markers do not matter to a graph. -/
theorem Graph.describes_map_unmarked {g : Graph} {columns : List Column} :
    g.Describes (columns.map Column.unmarked) ↔ g.Describes columns := by
  have hnames : (columns.map Column.unmarked).map (·.name) = columns.map (·.name) :=
    List.map_map
  have hresolve : ∀ names direct,
      (columns.map Column.unmarked).mapM (resolve names) = .ok direct ↔
      columns.mapM (resolve names) = .ok direct := by
    intro names direct
    rw [mapM_eq_ok, mapM_eq_ok, List.forall₂_map_left_iff]
    simp only [resolve, Column.dependencies_unmarked]
  constructor
  · rintro ⟨⟨hg, hnodup, hdirect⟩, hcycle⟩
    rw [hnames] at hg hnodup hdirect
    exact ⟨⟨hg, hnodup, (hresolve _ _).1 hdirect⟩, hcycle⟩
  · rintro ⟨⟨hg, hnodup, hdirect⟩, hcycle⟩
    refine ⟨⟨?_, ?_, ?_⟩, hcycle⟩
    · rwa [hnames]
    · rwa [hnames]
    · rw [hnames]
      exact (hresolve _ _).2 hdirect

namespace AlikeColumns

variable {columns columns' : List Column} (h : AlikeColumns columns columns')

include h

/-- Likeness of columns works either way round. -/
theorem symm : AlikeColumns columns' columns := Eq.symm h

/-- Alike columns make the same graph. -/
theorem describes {g : Graph} (hg : g.Describes columns) : g.Describes columns' := by
  rw [← Graph.describes_map_unmarked, AlikeColumns.symm h, Graph.describes_map_unmarked]
  exact hg

/-- Where one list has a column the other one has a column like it. -/
theorem exists_getElem? {p : Nat} {c : Column} (hc : columns[p]? = some c) :
    ∃ c', columns'[p]? = some c' ∧ c.Alike c' := by
  have hp : (columns'.map Column.unmarked)[p]? = some c.unmarked := by
    rw [← h, List.getElem?_map, hc]
    rfl
  rw [List.getElem?_map] at hp
  exact (Option.map_eq_some_iff.1 hp).imp fun c' hc' => ⟨hc'.1, hc'.2.symm⟩

/-- Columns stay alike when alike ones are added. -/
theorem append {c c' : Column} (hc : c.Alike c') :
    AlikeColumns (columns ++ [c]) (columns' ++ [c']) := by
  rw [AlikeColumns, List.map_append, List.map_append, h, List.map_singleton,
    List.map_singleton, hc]

/-- Columns stay alike when alike ones are set. -/
theorem set (p : Nat) {c c' : Column} (hc : c.Alike c') :
    AlikeColumns (columns.set p c) (columns'.set p c') := by
  rw [AlikeColumns, List.map_set, List.map_set, h, hc]

/-- Columns stay alike when they are removed at the same position. -/
theorem eraseIdx (p : Nat) : AlikeColumns (columns.eraseIdx p) (columns'.eraseIdx p) := by
  rw [AlikeColumns, ← List.eraseIdx_map, ← List.eraseIdx_map, h]

/-- Alike columns have the same names. -/
theorem map_name_eq : columns.map (·.name) = columns'.map (·.name) := by
  have hnames := congrArg (List.map (·.name)) h
  rwa [List.map_map, List.map_map] at hnames

/-- There are as many columns that are alike. -/
theorem length_eq : columns.length = columns'.length := by
  have hlen := congrArg List.length h
  rwa [List.length_map, List.length_map] at hlen

end AlikeColumns

/-! ### Alike runs -/

namespace ComputedTable

open Access

variable {σ : Type} [Tabular σ] {P : σ → Prop} {v : View} {t t' : ComputedTable σ}

section

variable (h : AlikeColumns t.columns t'.columns)

include h

omit [Tabular σ] in
/-- Alike columns are added alike. -/
theorem exists_addColumn_eq_ok {name : String} {x x' : Computation} (hx : x.Alike x')
    {t₁ : ComputedTable σ} {n : Nat} (h₁ : t.addColumn name x = .ok (t₁, n)) :
    ∃ t₁', t'.addColumn name x' = .ok (t₁', n) ∧ AlikeColumns t₁.columns t₁'.columns := by
  obtain ⟨hblank, rfl, g, hg, rfl⟩ := addColumn_eq_ok.1 h₁
  have hcolumn : (Column.computed name x).Alike (.computed name x') :=
    congrArg (Column.computed name) hx
  have halike := h.append hcolumn
  refine ⟨_, addColumn_eq_ok.2 ⟨hblank, h.length_eq, g, halike.describes hg, rfl⟩, ?_⟩
  rwa [columns_appended, columns_appended]

variable (ht : t.graph.Describes t.columns) (ht' : t'.graph.Describes t'.columns)

include ht ht'

omit [Tabular σ] in
/-- Alike computations are set alike. -/
theorem exists_setComputation_eq_ok {name : String} {x x' : Computation} (hx : x.Alike x')
    {t₁ : ComputedTable σ} (h₁ : t.setComputation name x = .ok t₁) :
    ∃ t₁', t'.setComputation name x' = .ok t₁' ∧ AlikeColumns t₁.columns t₁'.columns := by
  obtain ⟨p, c, hc, hname, g, hg, rfl⟩ := (setComputation_eq_ok ht).1 h₁
  obtain ⟨c', hc', hcc⟩ := h.exists_getElem? hc
  have halike := h.set p (hcc.withComputation hx)
  refine ⟨_, (setComputation_eq_ok ht').2
    ⟨p, c', hc', hcc.name_eq.symm.trans hname, g, halike.describes hg, rfl⟩, ?_⟩
  rwa [columns_replaced, columns_replaced]

/-- Definitions are cleared alike over sources with the same schema. -/
theorem exists_clearComputation_eq_ok
    (hschema : Tabular.schema t.source = Tabular.schema t'.source) {name : String}
    {t₁ : ComputedTable σ} (h₁ : t.clearComputation name = .ok t₁) :
    ∃ t₁', t'.clearComputation name = .ok t₁' ∧ AlikeColumns t₁.columns t₁'.columns := by
  obtain ⟨p, c, hc, hname, hcases⟩ := (clearComputation_eq_ok ht).1 h₁
  obtain ⟨c', hc', hcc⟩ := h.exists_getElem? hc
  have hname' : c'.name = name := hcc.name_eq.symm.trans hname
  rcases hcases with
    ⟨⟨i, k, hcontent⟩, rfl⟩ | ⟨i, x, kind, hcontent, hkind, hblank, g, hg, rfl⟩
  · exact ⟨t', (clearComputation_eq_ok ht').2
      ⟨p, c', hc', hname', .inl ⟨⟨i, k, hcc.content_eq_stored hcontent⟩, rfl⟩⟩, h⟩
  · obtain ⟨x', hx'⟩ := hcc.exists_content_eq_transformed hcontent
    have halike := h.set p (c := .stored name kind i) rfl
    have hkind' : Tabular.columnKind t'.source i = .ok kind := by
      rw [columnKind_eq_ok, ← hschema]
      exact columnKind_eq_ok.1 hkind
    refine ⟨_, (clearComputation_eq_ok ht').2 ⟨p, c', hc', hname',
      .inr ⟨i, x', kind, hx', hkind', hblank, g, halike.describes hg, rfl⟩⟩, ?_⟩
    rwa [columns_replaced, columns_replaced]

omit [Tabular σ] in
/-- Columns are removed alike. -/
theorem exists_removeColumn_eq_ok {name : String} {t₁ : ComputedTable σ}
    (h₁ : t.removeColumn name = .ok t₁) :
    ∃ t₁', t'.removeColumn name = .ok t₁' ∧ AlikeColumns t₁.columns t₁'.columns := by
  obtain ⟨p, c, hc, hname, hsource, hdependents, g, hg, rfl⟩ := (removeColumn_eq_ok ht).1 h₁
  obtain ⟨c', hc', hcc⟩ := h.exists_getElem? hc
  rw [(h.describes ht).graph_eq ht'] at hdependents
  refine ⟨_, (removeColumn_eq_ok ht').2 ⟨p, c', hc', hcc.name_eq.symm.trans hname,
    hcc.source?_eq.symm.trans hsource, hdependents, g,
    (h.eraseIdx p).describes hg, rfl⟩, ?_⟩
  rw [columns_removed, columns_removed]
  exact h.eraseIdx p

/-- **An edit does not depend on markers**: where it succeeds an alike one does, and leads
to alike columns. -/
theorem exists_apply_eq_ok (hschema : Tabular.schema t.source = Tabular.schema t'.source)
    {e e' : Edit} (he : e.unmarked = e'.unmarked) {t₁ : ComputedTable σ}
    (h₁ : e.apply t = .ok t₁) :
    ∃ t₁', e'.apply t' = .ok t₁' ∧ AlikeColumns t₁.columns t₁'.columns := by
  cases e with
  | add name x =>
      cases e' with
      | add name' x' =>
          obtain ⟨rfl, hx⟩ := Edit.add.inj he
          obtain ⟨⟨t₁, n⟩, hadd, rfl⟩ := map_eq_ok.1 h₁
          obtain ⟨t₁', hadd', halike⟩ := exists_addColumn_eq_ok h hx hadd
          exact ⟨t₁', map_eq_ok.2 ⟨_, hadd', rfl⟩, halike⟩
      | _ => cases he
  | set name x =>
      cases e' with
      | set name' x' =>
          obtain ⟨rfl, hx⟩ := Edit.set.inj he
          exact exists_setComputation_eq_ok h ht ht' hx h₁
      | _ => cases he
  | clear name =>
      cases e' with
      | clear name' =>
          obtain rfl := Edit.clear.inj he
          exact exists_clearComputation_eq_ok h ht ht' hschema h₁
      | _ => cases he
  | remove name =>
      cases e' with
      | remove name' =>
          obtain rfl := Edit.remove.inj he
          exact exists_removeColumn_eq_ok h ht ht' h₁
      | _ => cases he

end

/-- An operation that is no edit leaves the columns as they are. -/
theorem columns_perform {op : Operation} (h : ∀ e, op ≠ .edit e) :
    (op.perform.on t).2.columns = t.columns :=
  ((kept_graph t.columns t.graph).keeps_perform h t ⟨rfl, rfl⟩).1.1

/-- Alike operations keep columns alike. -/
theorem alike_perform (ht : t.graph.Describes t.columns)
    (ht' : t'.graph.Describes t'.columns)
    (hschema : Tabular.schema t.source = Tabular.schema t'.source)
    (h : AlikeColumns t.columns t'.columns) {op op' : Operation}
    (hop : op.unmarked = op'.unmarked) :
    AlikeColumns (op.perform.on t).2.columns (op'.perform.on t').2.columns := by
  cases op with
  | edit e =>
      cases op' with
      | edit e' =>
          have he : e.unmarked = e'.unmarked := Operation.edit.inj hop
          cases hres : e.apply t with
          | ok t₁ =>
              obtain ⟨t₁', hres', halike⟩ := exists_apply_eq_ok h ht ht' hschema he hres
              rwa [perform_edit_of_ok hres, perform_edit_of_ok hres']
          | error err =>
              -- If the other edit succeeded, so would this one.
              cases hres' : e'.apply t' with
              | error err' => rwa [perform_edit_of_error hres, perform_edit_of_error hres']
              | ok t₁' =>
                  obtain ⟨t₁, h₁, -⟩ :=
                    exists_apply_eq_ok h.symm ht' ht hschema.symm he.symm hres'
                  rw [hres] at h₁
                  cases h₁
      | _ => cases hop
  | _ =>
      cases op' with
      | edit e' => cases hop
      | _ =>
          rw [columns_perform (by simp), columns_perform (by simp)]
          exact h

/-- **Alike runs lead to alike columns.** -/
theorem alike_run (hP : Shows P v) (ht : t.Faithful P v) (ht' : t'.Faithful P v)
    (h : AlikeColumns t.columns t'.columns) {ops ops' : List Operation}
    (hops : ops.map Operation.unmarked = ops'.map Operation.unmarked) :
    AlikeColumns (t.run ops).columns (t'.run ops').columns := by
  induction ops generalizing t t' ops' with
  | nil =>
      obtain rfl := List.map_eq_nil_iff.1 hops.symm
      exact h
  | cons op ops ih =>
      obtain ⟨op', ops', rfl, hop, hops⟩ := List.map_eq_cons_iff.1 hops.symm
      have hschema : Tabular.schema t.source = Tabular.schema t'.source :=
        ht.wellFormed.schema_eq.trans ht'.wellFormed.schema_eq.symm
      exact ih (ht.perform hP op) (ht'.perform hP op')
        (alike_perform ht.wellFormed.describes ht'.wellFormed.describes hschema h hop.symm)
          hops.symm

end ComputedTable

end FormulaTable
