import FormulaTable.Proofs.Table.Structure

/-!
# Edits in place

An edit that is made on the table itself, one change after another, does what the edit does
that gives a new table. What has to be shown is that nothing can fail once the first change
is made: when the results of the dependent columns are forgotten, the new columns are in
place already, and every name that is looked up has to be found among them.

* `Edit.on_inPlace` — an edit in place gives the table that the edit gives, or fails without
  a change.
* `atomic_run` — a failed edit leaves no trace, in any state that edits in place lead to.
-/

namespace FormulaTable

open Access

/-- An edit as an action on the table. -/
def Edit.inPlace {σ : Type} [Tabular σ] : Edit → Access (ComputedTable σ) Unit
  | add name x => do let _ ← ComputedTable.addInPlace name x
  | set name x => ComputedTable.setInPlace name x
  | clear name => ComputedTable.clearInPlace name
  | remove name => ComputedTable.removeInPlace name

/-- An operation, with its edit made in place. -/
def Operation.performInPlace {σ : Type} [Tabular σ] :
    Operation → Access (ComputedTable σ) Unit
  | edit e => e.inPlace
  | op => op.perform

namespace ComputedTable

variable {σ : Type} {t : ComputedTable σ}

/-- The table after some operations, with edits made in place. -/
def runInPlace [Tabular σ] (t : ComputedTable σ) (ops : List Operation) : ComputedTable σ :=
  ops.foldl (fun t op => (op.performInPlace.on t).2) t

/-- What an action comes to that gives another table or fails without a change. -/
def outcome (t : ComputedTable σ) (r : Except Error (ComputedTable σ)) :
    Except Error Unit × ComputedTable σ :=
  match r with
  | .ok t' => (.ok (), t')
  | .error e => (.error e, t)

/-- A check comes before the rest of an edit in both forms. -/
theorem on_ofExcept_bind_eq_outcome {α : Type} {r : Except Error α}
    {f : α → Access (ComputedTable σ) Unit} {f' : α → Except Error (ComputedTable σ)}
    (h : ∀ a, r = .ok a → (f a).on t = t.outcome (f' a)) :
    (ofExcept r >>= f).on t = t.outcome (r >>= f') := by
  cases hr : r with
  | error e => rfl
  | ok a => exact h a hr

/-! ### The steps of an edit -/

/-- Putting columns in place has the outcome of installing them. -/
theorem on_putColumns (columns : List Column) :
    (putColumns columns).on t = t.outcome (t.install columns) := by
  rw [putColumns, install]
  exact on_ofExcept_bind_eq_outcome fun _ _ => rfl

/-- The columns that depend on one are found by their names. -/
theorem on_forgetAffected (ht : t.graph.Describes t.columns) {p : Nat} {c : Column}
    (hc : t.columns[p]? = some c) :
    (forgetAffected c.name).on t = (.ok (), t.invalidate p) := by
  have hposition : t.position c.name = .ok p := ht.position_eq_ok.2 ⟨c, hc, rfl⟩
  have hdependents : t.graph.transitiveDependents c.name =
      .ok (t.graph.namesAt (t.graph.affected p)) :=
    bind_eq_ok.2 ⟨p, hposition, rfl⟩
  have hpositions : (t.graph.namesAt (t.graph.affected p)).mapM t.position =
      .ok (t.graph.affected p) :=
    ht.mapM_position_namesAt fun q hq => List.mem_range.1 (List.mem_filter.1 hq).1
  rw [forgetAffected, on_get_bind, on_ofExcept_bind_ok hposition, on_get_bind,
    on_ofExcept_bind_ok hdependents, on_get_bind, on_ofExcept_bind_ok hpositions]
  rfl

/-- Once a column of the same name is in place of another one, nothing can fail any more. -/
theorem on_replaceInPlace {p : Nat} {c : Column} (hc : t.columns[p]? = some c)
    (c' : Column) :
    (replaceInPlace c'.name p c').on t = t.outcome (t.replaceAt p c') := by
  rw [replaceInPlace, on_get_bind, on_bind, on_putColumns, replaceAt]
  cases hinstall : t.install (t.columns.set p c') with
  | error e => rfl
  | ok t₁ =>
      obtain ⟨g, hg, rfl⟩ := install_eq_ok.1 hinstall
      have hcolumns : (ComputedTable.mk t.source t.registry t.config
            (slotsFor (t.columns.set p c') t.slots) g
          t.evaluations t.hits).columns = t.columns.set p c' := map_column_slotsFor _ _
      refine on_forgetAffected (hcolumns.symm ▸ hg) ?_
      rw [hcolumns]
      exact List.getElem?_set_self (List.getElem?_eq_some_iff.1 hc).1

/-! ### The edits -/

/-- The position of a new column is that of the last one. -/
theorem on_addInPlace (name : String) (x : Computation) :
    (addInPlace name x).on t =
      match t.addColumn name x with
      | .ok (t', n) => (.ok n, t')
      | .error e => (.error e, t) := by
  rw [addInPlace, addColumn]
  cases hc : Column.define name x.kind none (some x) with
  | error e => rfl
  | ok c =>
      rw [on_ofExcept_bind_ok rfl, on_get_bind, on_bind, on_putColumns]
      show _ =
          match (t.install (t.columns ++ [c]) >>= fun t₁ => pure (t₁, t.slots.length)) with
        | .ok (t', n) => ((.ok n : Except Error Nat), t')
        | .error e => (.error e, t)
      cases hinstall : t.install (t.columns ++ [c]) with
      | error e => rfl
      | ok t₁ =>
          obtain ⟨g, hg, rfl⟩ := install_eq_ok.1 hinstall
          have hlen : (slotsFor (t.columns ++ [c]) t.slots).length - 1 =
              t.slots.length := by
            rw [slotsFor_append, List.length_append, List.length_singleton,
              Nat.add_sub_cancel]
          show (Except.ok ((slotsFor (t.columns ++ [c]) t.slots).length - 1), _) = _
          rw [hlen]
          rfl

section

variable (ht : t.graph.Describes t.columns)

include ht

/-- An edit of a column of a name is one of the column at a position. -/
theorem on_bind_columnAt_eq_outcome {name : String}
    {f : Nat → Column → Access (ComputedTable σ) Unit}
    {f' : Nat → Column → Except Error (ComputedTable σ)}
    (h : ∀ p c, t.columns[p]? = some c → c.name = name →
          (f p c).on t = t.outcome (f' p c)) :
    Access.on (do
        let p ← Access.ofExcept ((← get : ComputedTable σ).position name)
        let c ← Access.ofExcept ((← get : ComputedTable σ).columnAt name p)
        f p c) t =
      t.outcome (do let p ← t.position name; let c ← t.columnAt name p; f' p c) := by
  rw [on_get_bind]
  refine on_ofExcept_bind_eq_outcome fun p hp => ?_
  rw [on_get_bind]
  refine on_ofExcept_bind_eq_outcome fun c hc => ?_
  obtain ⟨d, hd, hname⟩ := ht.position_eq_ok.1 hp
  have hc := columnAt_eq_ok.1 hc
  rw [hc] at hd
  cases hd
  exact h p c hc hname

/-- A definition that is set in place has the outcome of setting it. -/
theorem on_setInPlace (name : String) (x : Computation) :
    (setInPlace name x).on t = t.outcome (t.setComputation name x) := by
  refine on_bind_columnAt_eq_outcome ht fun p c hc hname => ?_
  rw [← hname, ← Column.withComputation_name c x]
  exact on_replaceInPlace hc _

/-- A removal in place has the outcome of removing. -/
theorem on_removeInPlace (name : String) :
    (removeInPlace name).on t = t.outcome (t.removeColumn name) := by
  refine on_bind_columnAt_eq_outcome ht fun p c hc hname => ?_
  have hposition : t.position name = .ok p := ht.position_eq_ok.2 ⟨c, hc, hname⟩
  have hdependents : t.graph.dependentsOf name =
      .ok (t.graph.namesAt (t.graph.dependents p)) :=
    bind_eq_ok.2 ⟨p, hposition, rfl⟩
  have hcolumns : t.columns.eraseIdx p = (t.slots.eraseIdx p).map (·.column) :=
    List.eraseIdx_map ..
  cases hsource : c.source? with
  | some i => rfl
  | none =>
      simp only [Option.isSome_none, Bool.false_eq_true, if_false]
      rw [on_get_bind, on_ofExcept_bind_ok hdependents]
      cases hfree : (t.graph.namesAt (t.graph.dependents p)).isEmpty with
      | false => rfl
      | true =>
          simp only [Bool.not_true, Bool.false_eq_true, if_false]
          rw [on_get_bind, hcolumns]
          exact on_ofExcept_bind_eq_outcome fun _ _ => rfl

/-- A definition that is cleared in place has the outcome of clearing it. -/
theorem on_clearInPlace [Tabular σ] (name : String) :
    (clearInPlace name).on t = t.outcome (t.clearComputation name) := by
  refine on_bind_columnAt_eq_outcome ht fun p c hc hname => ?_
  cases hcontent : c.content with
  | stored i k => rfl
  | computed x => rfl
  | transformed i x =>
      have hsource : c.source? = some i := by rw [Column.source?, hcontent]
      rw [on_get_bind]
      refine on_ofExcept_bind_eq_outcome fun kind _ => ?_
      refine on_ofExcept_bind_eq_outcome fun d hd => ?_
      obtain ⟨-, rfl⟩ := (Column.withoutComputation_eq_ok hsource).1 hd
      rw [← hname]
      exact on_replaceInPlace hc (.stored c.name kind i)

end

end ComputedTable

variable {σ : Type} [Tabular σ] {t : ComputedTable σ}

/-- **An edit in place** gives the table that the edit gives, or fails without a change. -/
theorem Edit.on_inPlace (ht : t.graph.Describes t.columns) (e : Edit) :
    e.inPlace.on t = t.outcome (e.apply t) := by
  cases e with
  | add name x =>
      rw [inPlace, on_bind, ComputedTable.on_addInPlace, apply]
      cases t.addColumn name x <;> rfl
  | set name x => exact ComputedTable.on_setInPlace ht name x
  | clear name => exact ComputedTable.on_clearInPlace ht name
  | remove name => exact ComputedTable.on_removeInPlace ht name

/-- An edit in place succeeds exactly when the edit does, with the same table. -/
theorem Edit.on_inPlace_eq_ok (ht : t.graph.Describes t.columns) {e : Edit}
    {t' : ComputedTable σ} :
    e.inPlace.on t = (.ok (), t') ↔ e.apply t = .ok t' := by
  rw [e.on_inPlace ht]
  cases e.apply t with
  | error err =>
      constructor
      · rintro ⟨⟩
      · rintro ⟨⟩
  | ok t₁ =>
      constructor
      · rintro ⟨⟩
        rfl
      · rintro ⟨⟩
        rfl

namespace ComputedTable

/-! ### Runs -/

/-- An operation leaves the same table, however its edit is made. -/
theorem on_performInPlace (ht : t.graph.Describes t.columns) (op : Operation) :
    (op.performInPlace.on t).2 = (op.perform.on t).2 := by
  cases op with
  | edit e =>
      rw [Operation.performInPlace, e.on_inPlace ht]
      cases h : e.apply t with
      | error err => exact (perform_edit_of_error h).symm
      | ok t' => exact (perform_edit_of_ok h).symm
  | _ => rfl

/-- A run with edits in place is a run. -/
theorem runInPlace_eq_run (h : t.graph.Describes t.columns) (ops : List Operation) :
    t.runInPlace ops = t.run ops := by
  induction ops generalizing t with
  | nil => rfl
  | cons op ops ih =>
      have hstep := on_performInPlace h op
      exact (congrArg (runInPlace · ops) hstep).trans (ih (describes_perform h op))

/-- The graph of a table is that of its columns, also where edits are made in place. -/
theorem describes_runInPlace {s : σ} {registry : Registry} {config : Config}
    (h : create s registry config = .ok t) (ops : List Operation) :
    (t.runInPlace ops).graph.Describes (t.runInPlace ops).columns := by
  rw [runInPlace_eq_run (wellFormed_of_create h).describes]
  exact describes_run h ops

/-- A failed edit leaves no trace. -/
structure Atomic (t : ComputedTable σ) : Prop where
  /-- The columns, the graph, the kept results and the counters are what they were. -/
  unchanged : ∀ (e : Edit) (err : Error) (t' : ComputedTable σ),
    e.inPlace.on t = (.error err, t') → t' = t
  /-- Whatever is done next comes to the same as without the edit. -/
  skipped : ∀ (e : Edit) (err : Error), (e.inPlace.on t).1 = .error err →
    ∀ ops, t.runInPlace (.edit e :: ops) = t.runInPlace ops

/-- Edits in place are atomic. -/
theorem atomic_of_describes (ht : t.graph.Describes t.columns) : t.Atomic := by
  have hunchanged : ∀ (e : Edit) (err : Error) (t' : ComputedTable σ),
      e.inPlace.on t = (.error err, t') → t' = t := by
    intro e err t' he
    rw [e.on_inPlace ht] at he
    cases happly : e.apply t with
    | ok t₁ =>
        rw [happly] at he
        cases he
    | error err' =>
        rw [happly] at he
        exact (Prod.ext_iff.1 he).2.symm
  refine ⟨hunchanged, fun e err he later => ?_⟩
  exact congrArg (runInPlace · later) (hunchanged e err _ (Prod.ext he rfl))

/-- **Failed edits are atomic** in every state that a table can be brought to. -/
theorem atomic_run {s : σ} {registry : Registry} {config : Config}
    (h : create s registry config = .ok t) (ops : List Operation) :
    (t.runInPlace ops).Atomic :=
  atomic_of_describes (describes_runInPlace h ops)

/-- A column that would come to depend on itself through the one that reads it. -/
theorem atomic_run_cycle :
    create BaseTable.singleColumn .standard .standard = .ok (singleColumn .standard) ∧
      ∃ t', (Edit.set "b" (.applied .add "c" 1 .standard)).inPlace.on
          ((singleColumn .standard).runInPlace (Operation.chained .standard)) =
            (.error (.cycle ["b", "c", "b"]), t') ∧
        t' = (singleColumn .standard).runInPlace (Operation.chained .standard) := by
  have hfails : ((Edit.set "b" (.applied .add "c" 1 .standard)).inPlace.on
      ((singleColumn .standard).runInPlace (Operation.chained .standard))).1 =
        .error (.cycle ["b", "c", "b"]) := rfl
  have hcreate : create BaseTable.singleColumn .standard .standard =
      .ok (singleColumn .standard) :=
    create_singleColumn rfl
  have hatomic := atomic_run hcreate (Operation.chained .standard)
  exact ⟨hcreate, _, Prod.ext hfails rfl, hatomic.unchanged _ _ _ (Prod.ext hfails rfl)⟩

end ComputedTable

end FormulaTable
