import FormulaTable.Proofs.Dependency.Change
import FormulaTable.Proofs.Table.InPlace

/-!
# Which edits are accepted

Whether an edit succeeds can be told from the table before it. A column can be added under a
new name if all its inputs are columns. Another computation can be set if its inputs are
columns, and none of them is the column or depends on it; what is stored behind the column
may be read under its name. The cycle would be one of the graph after the edit, but it has
to pass through the edited column, so that the rest of it can be found in the graph before
the edit.

* `setComputation_cycle_iff` — when another computation is refused because of a cycle.
* `acceptsExactly_run` — when edits are accepted, in any state that edits in place lead to.
-/

namespace FormulaTable.ComputedTable

open Access

variable {σ : Type} {t : ComputedTable σ}

/-! ### Columns by name -/

/-- There is a column of the name. -/
def Has (t : ComputedTable σ) (name : String) : Prop := ∃ c ∈ t.columns, c.name = name

/-- The column of the name has a stored column behind it. -/
def Backed (t : ComputedTable σ) (name : String) : Prop :=
  ∃ c ∈ t.columns, c.name = name ∧ c.source?.isSome

/-- The first column is the second one or depends on it. -/
def RestsOn (t : ComputedTable σ) (name other : String) : Prop :=
  name = other ∨ t.graph.isDependentOn name other = true

/-- To read the input closes a cycle: it rests on the column. Under its own name a column
reads what is stored behind it, if anything is. -/
def ClosesCycle (t : ComputedTable σ) (name input : String) : Prop :=
  ¬ (input = name ∧ t.Backed name) ∧ t.RestsOn input name

/-- A table has a column exactly if its name is among those of the columns. -/
theorem has_iff_mem {name : String} : t.Has name ↔ name ∈ t.columns.map (·.name) :=
  List.mem_map.symm

/-- A table has a column exactly if it stands at some position. -/
theorem has_iff_exists {name : String} :
    t.Has name ↔ ∃ (p : Nat) (c : Column), t.columns[p]? = some c ∧ c.name = name := by
  constructor
  · rintro ⟨c, hc, hname⟩
    obtain ⟨p, hp⟩ := List.mem_iff_getElem?.1 hc
    exact ⟨p, c, hp, hname⟩
  · rintro ⟨p, c, hp, hname⟩
    exact ⟨c, List.mem_of_getElem? hp, hname⟩

section

variable (ht : t.graph.Describes t.columns)

include ht

/-- Columns of one name are one column. -/
theorem eq_of_getElem?_of_name_eq {p q : Nat} {c d : Column} (hc : t.columns[p]? = some c)
    (hd : t.columns[q]? = some d) (hname : c.name = d.name) : c = d := by
  rw [ht.eq_of_name_eq hc hd hname, hd] at hc
  exact (Option.some.inj hc).symm

/-- A column is backed if there is a stored one below it. -/
theorem backed_iff {p : Nat} {c : Column} (hc : t.columns[p]? = some c) :
    t.Backed c.name ↔ c.source?.isSome := by
  constructor
  · rintro ⟨d, hd, hname, hsource⟩
    obtain ⟨q, hq⟩ := List.mem_iff_getElem?.1 hd
    rwa [eq_of_getElem?_of_name_eq ht hc hq hname.symm]
  · intro hsource
    exact ⟨c, List.mem_of_getElem? hc, rfl, hsource⟩

/-- What rests on a column are the columns from which dependencies lead to it. -/
theorem restsOn_iff {p : Nat} {c : Column} (hc : t.columns[p]? = some c) {name : String} :
    t.RestsOn name c.name ↔ ∃ (q : Nat) (d : Column), t.columns[q]? = some d ∧
      d.name = name ∧ Relation.ReflTransGen t.graph.Reads q p := by
  constructor
  · rintro (rfl | hdep)
    · exact ⟨p, c, hc, rfl, .refl⟩
    · obtain ⟨q, r, hq, hr, hpath⟩ := ht.isDependentOn_iff.1 hdep
      obtain ⟨d, hd, hname⟩ := ht.position_eq_ok.1 hq
      obtain rfl : p = r := Except.ok.inj ((ht.position_eq_ok.2 ⟨c, hc, rfl⟩).symm.trans hr)
      exact ⟨q, d, hd, hname, hpath.to_reflTransGen⟩
  · rintro ⟨q, d, hd, rfl, hpath⟩
    rcases Relation.reflTransGen_iff_eq_or_transGen.1 hpath with rfl | hpath
    · rw [hc] at hd
      cases hd
      exact .inl rfl
    · exact .inr (ht.isDependentOn_iff.2
        ⟨q, p, ht.position_eq_ok.2 ⟨d, hd, rfl⟩, ht.position_eq_ok.2 ⟨c, hc, rfl⟩, hpath⟩)

/-! ### Another computation -/

omit ht in
/-- The dependencies of the new column are columns exactly if its inputs are: the column
itself is one. -/
theorem forall_mem_dependencies_iff {p : Nat} {c : Column} (hc : t.columns[p]? = some c)
    {x : Computation} :
    (∀ name ∈ (c.withComputation x).dependencies, name ∈ t.columns.map (·.name)) ↔
      ∀ input ∈ x.inputs, t.Has input := by
  simp only [Column.mem_dependencies_withComputation, has_iff_mem]
  constructor
  · intro h input hinput
    by_cases hself : input = c.name ∧ c.source?.isSome
    · rw [hself.1]
      exact List.mem_map_of_mem (List.mem_of_getElem? hc)
    · exact h input ⟨hinput, hself⟩
  · intro h input hinput
    exact h input hinput.1

/-- A dependency of the new column leads back to it exactly if an input closes a cycle. -/
theorem exists_closesCycle_iff {p : Nat} {c : Column} (hc : t.columns[p]? = some c)
    {x : Computation} :
    (∃ (q : Nat) (d : Column), t.columns[q]? = some d ∧
          d.name ∈ (c.withComputation x).dependencies ∧
        Relation.ReflTransGen t.graph.Reads q p) ↔
      ∃ input ∈ x.inputs, t.ClosesCycle c.name input := by
  simp only [Column.mem_dependencies_withComputation, ClosesCycle, backed_iff ht hc,
    restsOn_iff ht hc]
  constructor
  · rintro ⟨q, d, hd, ⟨hinput, hself⟩, hpath⟩
    exact ⟨d.name, hinput, hself, q, d, hd, rfl, hpath⟩
  · rintro ⟨input, hinput, hself, q, d, hd, rfl, hpath⟩
    exact ⟨q, d, hd, ⟨hinput, hself⟩, hpath⟩

/-- **Another computation is accepted** if its inputs are columns and none closes a
cycle. -/
theorem setComputation_accepted_iff {name : String} {x : Computation} :
    (∃ t', t.setComputation name x = .ok t') ↔
      t.Has name ∧ (∀ input ∈ x.inputs, t.Has input) ∧ ∀ input ∈ x.inputs,
        ¬ t.ClosesCycle name input := by
  have hgraph : ∀ {p c}, t.columns[p]? = some c →
      ((∃ g : Graph, g.Describes (t.columns.set p (c.withComputation x))) ↔
        (∀ input ∈ x.inputs, t.Has input) ∧ ∀ input ∈ x.inputs,
          ¬ t.ClosesCycle c.name input) := by
    intro p c hc
    rw [Graph.exists_describes_set hc (by simp) ht, forall_mem_dependencies_iff hc,
      exists_closesCycle_iff ht hc]
    simp only [not_exists, not_and]
  constructor
  · rintro ⟨t', h⟩
    obtain ⟨p, c, hc, rfl, g, hg, -⟩ := (setComputation_eq_ok ht).1 h
    exact ⟨has_iff_exists.2 ⟨p, c, hc, rfl⟩, (hgraph hc).1 ⟨g, hg⟩⟩
  · rintro ⟨hname, hinputs⟩
    obtain ⟨p, c, hc, rfl⟩ := has_iff_exists.1 hname
    obtain ⟨g, hg⟩ := (hgraph hc).2 hinputs
    exact ⟨_, (setComputation_eq_ok ht).2 ⟨p, c, hc, rfl, g, hg, rfl⟩⟩

omit ht in
/-- Replacing a column fails as making the graph of the new columns fails. -/
theorem replaceAt_eq_error {p : Nat} {c : Column} {e : Error} :
    t.replaceAt p c = .error e ↔ Graph.build (t.columns.set p c) = .error e := by
  rw [replaceAt, install]
  cases Graph.build (t.columns.set p c) with
  | error e' =>
      constructor
      · rintro ⟨⟩
        rfl
      · rintro ⟨⟩
        rfl
  | ok g =>
      constructor
      · rintro ⟨⟩
      · rintro ⟨⟩

/-- **A computation is refused because of a cycle** if that is all that is wrong with it. -/
theorem setComputation_cycle_iff {name : String} {x : Computation} :
    (∃ path, t.setComputation name x = .error (.cycle path)) ↔
      t.Has name ∧ (∀ input ∈ x.inputs, t.Has input) ∧ ∃ input ∈ x.inputs,
        t.ClosesCycle name input := by
  have hgraph : ∀ {p c}, t.columns[p]? = some c →
      ((∃ path, t.replaceAt p (c.withComputation x) = .error (.cycle path)) ↔
        (∀ input ∈ x.inputs, t.Has input) ∧ ∃ input ∈ x.inputs,
          t.ClosesCycle c.name input) := by
    intro p c hc
    simp only [replaceAt_eq_error]
    rw [Graph.exists_build_set_eq_cycle hc (by simp) ht, forall_mem_dependencies_iff hc,
      exists_closesCycle_iff ht hc]
  constructor
  · rintro ⟨path, h⟩
    -- That the name is missing is reported otherwise.
    rcases bind_eq_error.1 h with h | ⟨p, hp, h⟩
    · rw [position, Graph.position, Graph.placeOf] at h
      split at h <;> cases h
    · obtain ⟨c, hc, rfl⟩ := ht.position_eq_ok.1 hp
      rw [columnAt_eq_ok.2 hc] at h
      exact ⟨has_iff_exists.2 ⟨p, c, hc, rfl⟩, (hgraph hc).1 ⟨path, h⟩⟩
  · rintro ⟨hname, hinputs⟩
    obtain ⟨p, c, hc, rfl⟩ := has_iff_exists.1 hname
    obtain ⟨path, h⟩ := (hgraph hc).2 hinputs
    refine ⟨path, bind_eq_error.2 (.inr ⟨p, ht.position_eq_ok.2 ⟨c, hc, rfl⟩, ?_⟩)⟩
    rw [columnAt_eq_ok.2 hc]
    exact h

/-! ### Columns that come and go -/

/-- **A column is accepted** under a new name that is not blank, if its inputs are
columns. -/
theorem addColumn_accepted_iff {name : String} {x : Computation} :
    (∃ t' n, t.addColumn name x = .ok (t', n)) ↔
      Text.isBlankText name = false ∧ ¬ t.Has name ∧ ∀ input ∈ x.inputs, t.Has input := by
  have hgraph := Graph.exists_describes_append_iff ht (c := .computed name x)
  simp only [has_iff_mem]
  constructor
  · rintro ⟨t', n, h⟩
    obtain ⟨hblank, -, g, hg, -⟩ := addColumn_eq_ok.1 h
    exact ⟨hblank, hgraph.1 ⟨g, hg⟩⟩
  · rintro ⟨hblank, hcolumns⟩
    obtain ⟨g, hg⟩ := hgraph.2 hcolumns
    exact ⟨_, _, addColumn_eq_ok.2 ⟨hblank, rfl, g, hg, rfl⟩⟩

/-- **A column may go** if nothing is stored behind it and no column depends on it. -/
theorem removeColumn_accepted_iff {name : String} : (∃ t', t.removeColumn name = .ok t') ↔
    (∃ c ∈ t.columns, c.name = name ∧ c.source? = none) ∧ ∀ d ∈ t.columns,
      name ∉ d.dependencies := by
  constructor
  · rintro ⟨t', h⟩
    obtain ⟨p, c, hc, rfl, hsource, hdependents, -⟩ := (removeColumn_eq_ok ht).1 h
    exact ⟨⟨c, List.mem_of_getElem? hc, rfl, hsource⟩,
      (ht.dependents_eq_nil_iff hc).1 hdependents⟩
  · rintro ⟨⟨c, hmem, rfl, hsource⟩, hfree⟩
    obtain ⟨p, hc⟩ := List.mem_iff_getElem?.1 hmem
    obtain ⟨g, hg⟩ := Graph.exists_describes_eraseIdx ht hc hfree
    exact ⟨_, (removeColumn_eq_ok ht).2
      ⟨p, c, hc, rfl, hsource, (ht.dependents_eq_nil_iff hc).2 hfree, g, hg, rfl⟩⟩

end

/-! ### Edits in place -/

/-- An edit succeeds if it has an outcome. -/
theorem outcome_fst_eq_ok {r : Except Error (ComputedTable σ)} :
    (t.outcome r).1 = .ok () ↔ ∃ t', r = .ok t' := by
  cases r with
  | error e =>
      constructor
      · rintro ⟨⟩
      · rintro ⟨_, ⟨⟩⟩
  | ok t' => exact ⟨fun _ => ⟨t', rfl⟩, fun _ => rfl⟩

/-- An edit reports the failure of its outcome. -/
theorem outcome_fst_eq_error {r : Except Error (ComputedTable σ)} {e : Error} :
    (t.outcome r).1 = .error e ↔ r = .error e := by
  cases r with
  | error e' =>
      constructor
      · rintro ⟨⟩
        rfl
      · rintro ⟨⟩
        rfl
  | ok t' =>
      constructor
      · rintro ⟨⟩
      · rintro ⟨⟩

/-- An addition in place succeeds, with the same count, exactly if it has an outcome. -/
theorem addInPlace_fst_eq_ok {name : String} {x : Computation} {n : Nat} :
    ((addInPlace name x).on t).1 = .ok n ↔ ∃ t', t.addColumn name x = .ok (t', n) := by
  rw [on_addInPlace]
  cases t.addColumn name x with
  | error e =>
      constructor
      · rintro ⟨⟩
      · rintro ⟨_, ⟨⟩⟩
  | ok r =>
      constructor
      · rintro ⟨⟩
        exact ⟨r.1, rfl⟩
      · rintro ⟨t', ⟨⟩⟩
        rfl

/-- The table before an edit decides whether the edit is accepted. -/
structure AcceptsExactly (t : ComputedTable σ) : Prop where
  add : ∀ name x, (∃ n, ((addInPlace name x).on t).1 = .ok n) ↔
    Text.isBlankText name = false ∧ ¬ t.Has name ∧ ∀ input ∈ x.inputs, t.Has input
  set : ∀ name x, ((setInPlace name x).on t).1 = .ok () ↔
    t.Has name ∧ (∀ input ∈ x.inputs, t.Has input) ∧ ∀ input ∈ x.inputs,
      ¬ t.ClosesCycle name input
  /-- A cycle is reported if that is all that is wrong. -/
  set_cycle : ∀ name x, (∃ path, ((setInPlace name x).on t).1 = .error (.cycle path)) ↔
    t.Has name ∧ (∀ input ∈ x.inputs, t.Has input) ∧ ∃ input ∈ x.inputs,
      t.ClosesCycle name input
  remove : ∀ name, ((removeInPlace name).on t).1 = .ok () ↔
    (∃ c ∈ t.columns, c.name = name ∧ c.source? = none) ∧ ∀ d ∈ t.columns,
      name ∉ d.dependencies

/-- Edits are accepted exactly as the graph of the columns says. -/
theorem acceptsExactly_of_describes (ht : t.graph.Describes t.columns) :
    t.AcceptsExactly where
  add name x := by
    rw [← addColumn_accepted_iff ht]
    simp only [addInPlace_fst_eq_ok]
    exact exists_comm
  set name x := by
    rw [on_setInPlace ht, outcome_fst_eq_ok, setComputation_accepted_iff ht]
  set_cycle name x := by
    simp only [on_setInPlace ht, outcome_fst_eq_error]
    exact setComputation_cycle_iff ht
  remove name := by
    rw [on_removeInPlace ht, outcome_fst_eq_ok, removeColumn_accepted_iff ht]

/-- **Edits are accepted exactly** where the columns and the graph before them allow it, in
every state that a table can be brought to. -/
theorem acceptsExactly_run [Tabular σ] {s : σ} {registry : Registry} {config : Config}
    (h : create s registry config = .ok t) (ops : List Operation) :
    (t.runInPlace ops).AcceptsExactly :=
  acceptsExactly_of_describes (describes_runInPlace h ops)

/-- In a chain of columns the first computed one cannot read the last one, and can read what
is stored. -/
theorem acceptsExactly_run_chained :
    create BaseTable.singleColumn .standard .standard = .ok (singleColumn .standard) ∧
      let t := (singleColumn .standard).runInPlace (Operation.chained .standard)
      (∃ input ∈ (Computation.applied .add "c" 1 .standard).inputs,
          t.ClosesCycle "b" input) ∧
        ∀ input ∈ (Computation.applied .add "a" 1 .standard).inputs,
          ¬ t.ClosesCycle "b" input := by
  have hcreate : create BaseTable.singleColumn .standard .standard =
      .ok (singleColumn .standard) :=
    create_singleColumn rfl
  have haccepts := acceptsExactly_run hcreate (Operation.chained .standard)
  refine ⟨hcreate, ?_, ?_⟩
  · exact ((haccepts.set_cycle "b" (.applied .add "c" 1 .standard)).1
        ⟨["b", "c", "b"], rfl⟩).2.2
  · exact ((haccepts.set "b" (.applied .add "a" 1 .standard)).1 rfl).2.2

end FormulaTable.ComputedTable
