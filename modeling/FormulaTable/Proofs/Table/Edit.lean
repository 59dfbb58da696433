import FormulaTable.Proofs.Dependency.Order
import FormulaTable.Proofs.Table.Reading

/-!
# What an edit does

An edit that succeeds leaves the table as it is, adds a computed column at the end, replaces
a column by another one of the same name over the same stored column, or removes a computed
column that nothing reads. In each case the new columns make the new graph. For each edit
there is one statement of when it succeeds and what it gives; `Edited` lists the changes
that come about, with the results that are kept.

* `addColumn_eq_ok`, `setComputation_eq_ok`, `clearComputation_eq_ok`, `removeColumn_eq_ok`
  — the edits.
* `Edit.edited` — every edit that succeeds is one of the changes.
-/

namespace FormulaTable

open Access

namespace ComputedTable

variable {σ : Type} {t t' : ComputedTable σ}

/-! ### Changes of the columns -/

/-- The table with a column at its end. -/
def appended (t : ComputedTable σ) (c : Column) (g : Graph) : ComputedTable σ :=
  { t with slots := t.slots ++ [⟨c, none⟩], graph := g }

/-- The table with another column at a position, without the results that depend on it. -/
def replaced (t : ComputedTable σ) (p : Nat) (c : Column) (g : Graph) : ComputedTable σ :=
  { t with
    slots :=
      forgetAt (t.slots.modify p fun slot => { slot with column := c }) (p :: g.affected p)
    graph := g }

/-- The table without the column at a position. -/
def removed (t : ComputedTable σ) (p : Nat) (g : Graph) : ComputedTable σ :=
  { t with slots := t.slots.eraseIdx p, graph := g }

/-- A column that is added comes last. -/
@[simp] theorem columns_appended (t : ComputedTable σ) (c : Column) (g : Graph) :
    (t.appended c g).columns = t.columns ++ [c] :=
  List.map_append

/-- A column that is replaced keeps its position. -/
@[simp] theorem columns_replaced (t : ComputedTable σ) (p : Nat) (c : Column) (g : Graph) :
    (t.replaced p c g).columns = t.columns.set p c := by
  rw [columns, replaced, map_column_forgetAt, ← slotsFor_set, map_column_slotsFor]

/-- A column that is removed leaves its position to the next one. -/
@[simp] theorem columns_removed (t : ComputedTable σ) (p : Nat) (g : Graph) :
    (t.removed p g).columns = t.columns.eraseIdx p :=
  (List.eraseIdx_map ..).symm

/-- A result that is left after a replacement was there, and does not depend on the replaced
column. -/
theorem exists_of_mem_replaced {p : Nat} {c : Column} {g : Graph} {slot : Slot}
    (h : slot ∈ (t.replaced p c g).slots) {e : Evaluated} (he : slot.cached = some e) :
    ∃ q, q ≠ p ∧ q ∉ g.affected p ∧ t.slots[q]? = some slot := by
  obtain ⟨q, hq, hget⟩ := exists_of_mem_forgetAt h he
  rw [List.mem_cons, not_or] at hq
  rw [List.getElem?_modify_ne _ _ (Ne.symm hq.1)] at hget
  exact ⟨q, hq.1, hq.2, hget⟩

/-! ### Edits of a table whose graph describes its columns -/

/-- Columns are installed if they have a graph. -/
theorem install_eq_ok {columns : List Column} : t.install columns = .ok t' ↔
    ∃ g : Graph, g.Describes columns ∧
      t' = { t with slots := slotsFor columns t.slots, graph := g } := by
  rw [install, bind_eq_ok]
  refine exists_congr fun g => ?_
  rw [Graph.build_eq_ok]
  exact and_congr_right fun _ => ⟨fun h => (Except.ok.inj h).symm, fun h => h ▸ rfl⟩

/-- A column is replaced if there is a graph with the new one. -/
theorem replaceAt_eq_ok {p : Nat} {c : Column} : t.replaceAt p c = .ok t' ↔
    ∃ g : Graph, g.Describes (t.columns.set p c) ∧ t' = t.replaced p c g := by
  rw [replaceAt, bind_eq_ok]
  constructor
  · rintro ⟨t₁, h₁, h⟩
    obtain ⟨g, hg, rfl⟩ := install_eq_ok.1 h₁
    refine ⟨g, hg, (Except.ok.inj h).symm.trans ?_⟩
    rw [invalidate, replaced, slotsFor_set]
  · rintro ⟨g, hg, rfl⟩
    refine ⟨_, install_eq_ok.2 ⟨g, hg, rfl⟩, congrArg Except.ok ?_⟩
    rw [invalidate, replaced, slotsFor_set]

/-- **Adding a column** asks for a name, and for columns that make a graph. -/
theorem addColumn_eq_ok {name : String} {x : Computation} {n : Nat} :
    t.addColumn name x = .ok (t', n) ↔
      Text.isBlankText name = false ∧ n = t.columns.length ∧
      ∃ g : Graph, g.Describes (t.columns ++ [.computed name x]) ∧
        t' = t.appended (.computed name x) g := by
  rw [addColumn, bind_eq_ok]
  constructor
  · rintro ⟨c, hc, h⟩
    obtain ⟨hblank, rfl⟩ := Column.define_computed_eq_ok.1 hc
    obtain ⟨t₁, h₁, h⟩ := bind_eq_ok.1 h
    obtain ⟨g, hg, rfl⟩ := install_eq_ok.1 h₁
    rw [slotsFor_append] at h
    cases h
    exact ⟨hblank, t.length_columns.symm, g, hg, rfl⟩
  · rintro ⟨hblank, rfl, g, hg, rfl⟩
    refine ⟨_, Column.define_computed_eq_ok.2 ⟨hblank, rfl⟩,
      bind_eq_ok.2 ⟨_, install_eq_ok.2 ⟨g, hg, rfl⟩, ?_⟩⟩
    rw [slotsFor_append, t.length_columns]
    rfl

section

variable (ht : t.graph.Describes t.columns)

include ht

/-- An edit of a column of a name is one of the column at a position. -/
theorem bind_columnAt_eq_ok {α : Type} {name : String} {f : Nat → Column → Except Error α}
    {a : α} :
    (do let p ← t.position name; let c ← t.columnAt name p; f p c) = .ok a ↔
      ∃ p c, t.columns[p]? = some c ∧ c.name = name ∧ f p c = .ok a := by
  rw [bind_eq_ok]
  constructor
  · rintro ⟨p, hp, h⟩
    obtain ⟨c, hc, h⟩ := bind_eq_ok.1 h
    obtain ⟨d, hd, hname⟩ := ht.position_eq_ok.1 hp
    have hc := columnAt_eq_ok.1 hc
    rw [hc] at hd
    cases hd
    exact ⟨p, c, hc, hname, h⟩
  · rintro ⟨p, c, hc, hname, h⟩
    exact ⟨p, ht.position_eq_ok.2 ⟨c, hc, hname⟩, bind_eq_ok.2 ⟨c, columnAt_eq_ok.2 hc, h⟩⟩

/-- **Another computation** can be set where the new columns make a graph. -/
theorem setComputation_eq_ok {name : String} {x : Computation} :
    t.setComputation name x = .ok t' ↔
      ∃ p c, t.columns[p]? = some c ∧ c.name = name ∧ ∃ g : Graph,
        g.Describes (t.columns.set p (c.withComputation x)) ∧
          t' = t.replaced p (c.withComputation x) g := by
  rw [setComputation]
  refine (bind_columnAt_eq_ok ht).trans ?_
  simp only [replaceAt_eq_ok]

/-- **A computed column can be removed** if no column depends on it. -/
theorem removeColumn_eq_ok {name : String} : t.removeColumn name = .ok t' ↔
    ∃ p c, t.columns[p]? = some c ∧ c.name = name ∧ c.source? = none ∧
      t.graph.dependents p = [] ∧
      ∃ g : Graph, g.Describes (t.columns.eraseIdx p) ∧ t' = t.removed p g := by
  rw [removeColumn]
  refine (bind_columnAt_eq_ok ht).trans ?_
  refine exists_congr fun p => exists_congr fun c => and_congr_right fun _ =>
    and_congr_right fun _ => ?_
  have hcolumns : (t.slots.eraseIdx p).map (·.column) = t.columns.eraseIdx p :=
    (List.eraseIdx_map ..).symm
  cases hsource : c.source? with
  | some i =>
      constructor
      · rintro ⟨⟩
      · rintro ⟨⟨⟩, _⟩
  | none =>
      cases hdependents : t.graph.dependents p with
      | cons q qs =>
          constructor
          · rintro ⟨⟩
          · rintro ⟨_, ⟨⟩, _⟩
      | nil =>
          simp only [true_and]
          show (Graph.build ((t.slots.eraseIdx p).map (·.column)) >>= _) = _ ↔ _
          rw [bind_eq_ok, hcolumns]
          refine exists_congr fun g => ?_
          rw [Graph.build_eq_ok]
          exact and_congr_right fun _ => ⟨fun h => (Except.ok.inj h).symm, fun h => h ▸ rfl⟩

/-- **A column goes back to what is stored**, if there is anything stored for it; a column
that shows what is stored stays as it is. -/
theorem clearComputation_eq_ok [Tabular σ] {name : String} :
    t.clearComputation name = .ok t' ↔
      ∃ p c, t.columns[p]? = some c ∧ c.name = name ∧
        ((∃ i k, c.content = .stored i k) ∧ t' = t ∨
          ∃ i x kind, c.content = .transformed i x ∧
            Tabular.columnKind t.source i = .ok kind ∧
            Text.isBlankText name = false ∧ ∃ g : Graph,
              g.Describes (t.columns.set p (.stored name kind i)) ∧
              t' = t.replaced p (.stored name kind i) g) := by
  rw [clearComputation]
  refine (bind_columnAt_eq_ok ht).trans ?_
  refine exists_congr fun p => exists_congr fun c => and_congr_right fun _ =>
    and_congr_right fun hname => ?_
  subst hname
  cases hcontent : c.content with
  | stored i k =>
      constructor
      · rintro ⟨⟩
        exact .inl ⟨⟨i, k, rfl⟩, rfl⟩
      · rintro (⟨_, rfl⟩ | ⟨_, _, _, ⟨⟩, _⟩)
        rfl
  | computed x =>
      constructor
      · rintro ⟨⟩
      · rintro (⟨⟨_, _, ⟨⟩⟩, _⟩ | ⟨_, _, _, ⟨⟩, _⟩)
  | transformed i x =>
      have hsource : c.source? = some i := by rw [Column.source?, hcontent]
      constructor
      · intro h
        obtain ⟨kind, hkind, h⟩ := bind_eq_ok.1 h
        obtain ⟨d, hd, h⟩ := bind_eq_ok.1 h
        obtain ⟨hblank, rfl⟩ := (Column.withoutComputation_eq_ok hsource).1 hd
        exact .inr ⟨i, x, kind, rfl, hkind, hblank, replaceAt_eq_ok.1 h⟩
      · rintro (⟨⟨_, _, ⟨⟩⟩, _⟩ | ⟨_, _, kind, ⟨⟩, hkind, hblank, h⟩)
        exact bind_eq_ok.2 ⟨kind, hkind, bind_eq_ok.2
          ⟨_, (Column.withoutComputation_eq_ok hsource).2 ⟨hblank, rfl⟩,
            replaceAt_eq_ok.2 h⟩⟩

end

/-! ### The changes that come about -/

variable [Tabular σ]

/-- What an edit can make of a table. -/
inductive Edited (t : ComputedTable σ) : ComputedTable σ → Prop
  | unchanged : Edited t t
  /-- A computed column is added. -/
  | added (c : Column) (g : Graph) (hsource : c.source? = none)
      (hg : g.Describes (t.columns ++ [c])) :
      Edited t (t.appended c g)
  /-- A column is replaced, and what depends on it is forgotten. -/
  | replaced (p : Nat) (c c' : Column) (g : Graph) (hc : t.columns[p]? = some c)
      (hname : c'.name = c.name) (hsource : c'.source? = c.source?)
      (hkind : c'.computation? = none →
        ∃ i name, c.source? = some i ∧ (Tabular.schema t.source)[i]? = some (name, c'.kind))
      (hg : g.Describes (t.columns.set p c')) :
      Edited t (t.replaced p c' g)
  /-- A computed column is removed. -/
  | removed (p : Nat) (c : Column) (g : Graph) (hc : t.columns[p]? = some c)
    (hsource : c.source? = none)
      (hg : g.Describes (t.columns.eraseIdx p)) :
      Edited t (t.removed p g)

/-- An edit leaves the source as it is. -/
theorem Edited.source_eq (h : t.Edited t') : t'.source = t.source := by
  cases h <;> rfl

/-- The kind of a column of a table is in its schema. -/
theorem columnKind_eq_ok {s : σ} {i : Nat} {kind : Kind} :
    Tabular.columnKind s i = .ok kind ↔
      ∃ name, (Tabular.schema s)[i]? = some (name, kind) := by
  rw [Tabular.columnKind, map_eq_ok, Tabular.columnAt]
  cases hcol : (Tabular.schema s)[i]? with
  | none =>
      constructor
      · rintro ⟨_, ⟨⟩, _⟩
      · rintro ⟨_, ⟨⟩⟩
  | some entry =>
      constructor
      · rintro ⟨_, ⟨⟩, rfl⟩
        exact ⟨entry.1, rfl⟩
      · rintro ⟨name, h⟩
        cases h
        exact ⟨_, rfl, rfl⟩

end ComputedTable

variable {σ : Type} [Tabular σ] {t t' : ComputedTable σ}

/-- **Every edit that succeeds** is one of the changes. -/
theorem Edit.edited (ht : t.graph.Describes t.columns) {e : Edit} (h : e.apply t = .ok t') :
    t.Edited t' := by
  cases e with
  | add name x =>
      obtain ⟨⟨t₁, n⟩, h₁, rfl⟩ := map_eq_ok.1 h
      obtain ⟨-, -, g, hg, rfl⟩ := ComputedTable.addColumn_eq_ok.1 h₁
      exact .added _ g rfl hg
  | set name x =>
      obtain ⟨p, c, hc, -, g, hg, rfl⟩ := (ComputedTable.setComputation_eq_ok ht).1 h
      exact .replaced p c _ g hc (by simp) (by simp) (by simp) hg
  | clear name =>
      obtain ⟨p, c, hc, hname, hcases⟩ := (ComputedTable.clearComputation_eq_ok ht).1 h
      rcases hcases with ⟨-, rfl⟩ | ⟨i, x, kind, hcontent, hkind, -, g, hg, rfl⟩
      · exact .unchanged
      · have hsource : c.source? = some i := by rw [Column.source?, hcontent]
        obtain ⟨column, hcolumn⟩ := ComputedTable.columnKind_eq_ok.1 hkind
        exact .replaced p c _ g hc hname.symm hsource.symm
          (fun _ => ⟨i, column, hsource, hcolumn⟩) hg
  | remove name =>
      obtain ⟨p, c, hc, -, hsource, -, g, hg, rfl⟩ :=
        (ComputedTable.removeColumn_eq_ok ht).1 h
      exact .removed p c g hc hsource hg

namespace ComputedTable

/-- An edit that fails leaves the table as it was. -/
theorem perform_edit_of_error {e : Edit} {err : Error} (h : e.apply t = .error err) :
    ((Operation.edit e).perform.on t).2 = t := by
  rw [Operation.perform, on_get_bind, on_bind, on_ofExcept, h]

/-- An edit that succeeds leaves the table that it makes. -/
theorem perform_edit_of_ok {e : Edit} (h : e.apply t = .ok t') :
    ((Operation.edit e).perform.on t).2 = t' := by
  rw [Operation.perform, on_get_bind, on_bind, on_ofExcept, h]
  rfl

/-- An edit changes the table in one of these ways, or leaves it as it was. -/
theorem perform_edit (ht : t.graph.Describes t.columns) (e : Edit) :
    t.Edited ((Operation.edit e).perform.on t).2 := by
  cases h : e.apply t with
  | error err =>
      rw [perform_edit_of_error h]
      exact .unchanged
  | ok t' =>
      rw [perform_edit_of_ok h]
      exact e.edited ht h

end ComputedTable

end FormulaTable
