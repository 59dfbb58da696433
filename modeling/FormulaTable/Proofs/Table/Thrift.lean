import FormulaTable.Proofs.Table.Ledger

/-!
# Nothing is evaluated in vain

What is asked for is evaluated with all that it depends on, unless it is known; what is
known is not evaluated again. This holds in every state that a table can be brought to by
edits, requests and forgetting results.

* `Thrifty` — what each way of asking evaluates; `Idle` says that nothing is.
* `thrifty_run` — what is evaluated on request, in any state, and the counter of evaluations
  after any run.
-/

namespace FormulaTable.ComputedTable

open Access

variable {σ : Type} [Tabular σ] {t : ComputedTable σ}

/-- Nothing is evaluated: the columns have the results that they had, and the counter stands
where it stood. -/
structure Idle (t t' : ComputedTable σ) : Prop where
  slots_eq : t'.slots = t.slots
  evaluations_eq : t'.evaluations = t.evaluations

/-- What is asked for is evaluated with all it depends on, as far as that is not known, each
column once; and nothing else is. -/
structure Thrifty (t : ComputedTable σ) : Prop where
  materialize : ∀ name p, name ≠ "" → t.position name = .ok p → t.cached? p = none →
    ∃ t', (ComputedTable.materialize name).on t = (.ok (), t') ∧
      EvaluatesExactly (Relation.ReflTransGen t.graph.Reads p) t t'
  readCell : ∀ row p, row < Tabular.rowCount t.source → t.isOpen p →
    ∃ cell t', (ComputedTable.readCell row p).on t = (.ok cell, t') ∧
      EvaluatesExactly (Relation.ReflTransGen t.graph.Reads p) t t'
  readColumn : ∀ p, t.isOpen p →
    ∃ s t', (ComputedTable.readColumn p).on t = (.ok s, t') ∧
      EvaluatesExactly (Relation.ReflTransGen t.graph.Reads p) t t'
  /-- Nothing is evaluated for a column that is known, or under a name that no column
  has. -/
  materialize_idle : ∀ name, name ≠ "" →
    (∀ p, t.position name = .ok p → (t.cached? p).isSome) →
    t.Idle ((ComputedTable.materialize name).on t).2
  /-- Nothing is evaluated for a cell of a column that is not open, or outside the rows. -/
  readCell_idle : ∀ row p, (row < Tabular.rowCount t.source → t.isOpen p = false) →
    t.Idle ((ComputedTable.readCell row p).on t).2
  readColumn_idle : ∀ p, t.isOpen p = false → t.Idle ((ComputedTable.readColumn p).on t).2
  /-- All columns that are open are evaluated, and none when this is repeated. -/
  materializeAll : ∃ t',
    ComputedTable.materializeAll.on t = (.ok (t.slots.countP (·.isOpen)), t') ∧
    EvaluatesExactly (fun _ => True) t t' ∧ ComputedTable.materializeAll.on t' = (.ok 0, t')
  /-- Whatever is asked for, no definition, dependency or known result changes. -/
  request : ∀ op : Operation, op.isRequest → t.Advances (op.performInPlace.on t).2

/-! ### Where nothing is evaluated -/

omit [Tabular σ] in
/-- A table that stays as it is has been idle. -/
theorem Idle.refl (t : ComputedTable σ) : t.Idle t := ⟨rfl, rfl⟩

omit [Tabular σ] in
/-- Counting a hit is idle. -/
theorem idle_countHit : t.Idle t.countHit := ⟨rfl, rfl⟩

omit [Tabular σ] in
/-- An action on the source is idle. -/
theorem idle_onSource {α : Type} (x : Access σ α) : t.Idle ((onSource x).on t).2 :=
  ⟨rfl, rfl⟩

/-- Materializing is idle if the column is known, or stored. -/
theorem idle_materialize (ht : t.graph.Describes t.columns) {name : String}
    (hname : name ≠ "") (hknown : ∀ p, t.position name = .ok p → (t.cached? p).isSome) :
    t.Idle ((materialize name).on t).2 := by
  cases hp : t.position name with
  | error err =>
      rw [on_materialize_of_error hname hp]
      exact .refl t
  | ok p =>
      obtain ⟨slot, hslot⟩ := exists_slot?_of_position ht hp
      obtain ⟨e, hcached⟩ := Option.isSome_iff_exists.1 (hknown p hp)
      cases hcomputed : slot.column.isComputed with
      | false =>
          rw [on_materialize_of_stored hname hp hslot hcomputed]
          exact .refl t
      | true =>
          rw [on_materialize_of_isComputed hname hp hslot hcomputed, on_bind_pure_snd,
            on_materializeAt_of_cached hcached]
          exact idle_countHit

/-- Reading a cell is idle if its column is not open. -/
theorem idle_readCell {row p : Nat}
    (hclosed : row < Tabular.rowCount t.source → t.isOpen p = false) :
    t.Idle ((readCell row p).on t).2 := by
  rcases Nat.lt_or_ge row (Tabular.rowCount t.source) with hrow | hrow
  · cases hslot : t.slot? p with
    | none =>
        rw [on_readCell_of_none hrow hslot]
        exact .refl t
    | some slot =>
        rcases slot.stored_or_cached_or_isOpen with
          ⟨i, hcontent⟩ | ⟨hcomputed, e, hcached⟩ | hopen
        · rw [on_readCell_of_stored hrow hslot hcontent]
          exact idle_onSource _
        · rw [on_readCell_of_cached hrow hslot hcomputed hcached]
          exact idle_countHit
        · rw [isOpen_of_slot? hslot hopen] at hclosed
          cases hclosed hrow
  · rw [on_readCell_of_row_le hrow]
    exact .refl t

/-- Reading a column is idle if it is not open. -/
theorem idle_readColumn {p : Nat} (hclosed : t.isOpen p = false) :
    t.Idle ((readColumn p).on t).2 := by
  cases hslot : t.slot? p with
  | none =>
      rw [on_readColumn_of_none hslot]
      exact .refl t
  | some slot =>
      rcases slot.stored_or_cached_or_isOpen with
        ⟨i, hcontent⟩ | ⟨hcomputed, e, hcached⟩ | hopen
      · rw [on_readColumn_of_stored hslot hcontent]
        exact idle_onSource _
      · rw [on_readColumn_of_cached hslot hcomputed hcached]
        exact .refl t
      · rw [isOpen_of_slot? hslot hopen] at hclosed
        cases hclosed

/-! ### What is evaluated -/

/-- Nothing is evaluated where nothing is open. -/
theorem EvaluatesExactly.refl {wanted : Nat → Prop}
    (h : ∀ p, wanted p → t.isOpen p = false) :
    EvaluatesExactly wanted t t := by
  refine ⟨[], List.nodup_nil, fun p => iff_of_false List.not_mem_nil ?_, .nil t, rfl⟩
  rintro ⟨hp, hopen⟩
  rw [h p hp] at hopen
  cases hopen

omit [Tabular σ] in
/-- A column that shows a stored one depends on nothing, and there is nothing to
evaluate. -/
theorem not_isOpen_of_reads (h : t.graph.Describes t.columns) {p q : Nat} {slot : Slot}
    (hslot : t.slot? p = some slot) (hstored : slot.column.isComputed = false)
    (hpath : Relation.ReflTransGen t.graph.Reads p q) : t.isOpen q = false := by
  rcases hpath.cases_head with rfl | ⟨r, hr, -⟩
  · rw [isOpen, hslot, Option.any_some, Slot.isOpen, hstored, Bool.false_and]
  · obtain ⟨d, -, hdep⟩ := (h.mem_dependencies (columns_getElem?_of_slot? hslot)).1 hr
    rw [Column.dependencies_eq_nil hstored] at hdep
    cases hdep

section

variable {P : σ → Prop} {v : View} (hP : Shows P v) (hv : v.Complete) (h : t.Faithful P v)

include hP hv h

/-- **What is evaluated on request.** -/
theorem Faithful.thrifty : t.Thrifty where
  materialize name p hname hp hcached := by
    have hg := h.wellFormed.describes
    obtain ⟨slot, hslot⟩ := exists_slot?_of_position hg hp
    cases hcomputed : slot.column.isComputed with
    | false =>
        exact ⟨t, on_materialize_of_stored hname hp hslot hcomputed,
          .refl fun q hq => not_isOpen_of_reads hg hslot hcomputed hq⟩
    | true =>
        have hopen := isOpen_of_cached? (columns_getElem?_of_slot? hslot) hcomputed hcached
        obtain ⟨e, t', hon, hexactly⟩ := exists_on_materializeAt hP hv hg ⟨h, rfl⟩ hopen
        refine ⟨t', ?_, hexactly⟩
        rw [on_materialize_of_isComputed hname hp hslot hcomputed, on_bind_ok hon]
        rfl
  readCell row p hrow hopen := by
    obtain ⟨slot, hslot, hslotopen⟩ := exists_slot?_of_isOpen hopen
    obtain ⟨hcomputed, hnone⟩ := Slot.isOpen_iff.1 hslotopen
    obtain ⟨e, t', hon, hexactly⟩ :=
      exists_on_materializeAt hP hv h.wellFormed.describes ⟨h, rfl⟩ hopen
    refine ⟨e.cell row, t', ?_, hexactly⟩
    rw [on_readCell_of_open hrow hslot hcomputed hnone, on_bind_ok hon]
    rfl
  readColumn p hopen := by
    obtain ⟨slot, hslot, hslotopen⟩ := exists_slot?_of_isOpen hopen
    obtain ⟨hcomputed, hnone⟩ := Slot.isOpen_iff.1 hslotopen
    obtain ⟨e, t', hon, hexactly⟩ :=
      exists_on_materializeAt hP hv h.wellFormed.describes ⟨h, rfl⟩ hopen
    refine ⟨e.series, t', ?_, hexactly⟩
    rw [on_readColumn_of_open hslot hcomputed hnone, on_bind_ok hon]
    rfl
  materialize_idle name hname hknown := idle_materialize h.wellFormed.describes hname hknown
  readCell_idle row p hclosed := idle_readCell hclosed
  readColumn_idle p hclosed := idle_readColumn hclosed
  materializeAll := exists_on_materializeAll hP hv h.wellFormed.describes ⟨h, rfl⟩
  request op hop := by
    rw [on_performInPlace h.wellFormed.describes op]
    exact advances_perform hP hv ⟨h, rfl⟩ hop

end

/-- **Everything is evaluated once, and nothing else is**: over stored data, in every state
that a table can be brought to, a request evaluates what it takes and is not known; and the
counter of evaluations stands at the number of results that came to be known since it was
last reset. -/
theorem thrifty_run {s : BaseTable} (hs : s.Typed) {registry : Registry} {config : Config}
    {t : ComputedTable BaseTable} (h : create s registry config = .ok t)
    (ops : List Operation) :
    (t.runInPlace ops).Thrifty ∧ (t.runInPlace ops).evaluations = t.tally 0 ops := by
  have hP := s.shows_view
  have hv := BaseTable.complete_view hs
  have hfaith := faithful_of_create hP rfl h
  refine ⟨?_, ?_⟩
  · rw [runInPlace_eq_run hfaith.wellFormed.describes]
    exact (faithful_run hP hfaith ops).thrifty hP hv
  · obtain ⟨-, g, -, rfl⟩ := create_eq_ok.1 h
    exact evaluations_runInPlace hP hv hfaith ops

/-- Of two columns in a chain the first one is known, and the second one alone is
evaluated. -/
theorem thrifty_run_chained :
    BaseTable.singleColumn.Typed ∧
      create BaseTable.singleColumn .standard .standard = .ok (singleColumn .standard) ∧
        let ops := Operation.chained .standard ++ [.materialize "b"]
        let t := (singleColumn .standard).runInPlace ops
        t.isOpen 1 = false ∧ t.isOpen 2 ∧ (singleColumn .standard).tally 0 ops = 1 ∧
          ∃ t', (materialize "c").on t = (.ok (), t') ∧
            EvaluatesExactly (Relation.ReflTransGen t.graph.Reads 2) t t' := by
  have hs : BaseTable.singleColumn.Typed := trivial
  have hcreate : create BaseTable.singleColumn .standard .standard =
      .ok (singleColumn .standard) :=
    create_singleColumn rfl
  refine ⟨hs, hcreate, ?_⟩
  intro ops t
  obtain ⟨hthrifty, htally⟩ := thrifty_run hs hcreate ops
  have hcount : t.evaluations = 1 := rfl
  have hposition : t.position "c" = .ok 2 := rfl
  have hunknown : t.cached? 2 = none := rfl
  obtain ⟨t', hon, hexactly⟩ := hthrifty.materialize "c" 2 (by decide) hposition hunknown
  exact ⟨rfl, rfl, htally.symm.trans hcount, t', hon, hexactly⟩

end FormulaTable.ComputedTable
