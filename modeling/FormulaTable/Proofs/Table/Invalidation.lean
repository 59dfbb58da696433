import FormulaTable.Proofs.Table.Acceptance
import FormulaTable.Proofs.Table.Correspondence

/-!
# What an edit forgets

A column that is given another computation, or returned to what is stored, loses its result,
and so do the columns that depend on it; all others keep theirs. A column that is added or
removed costs no other column its result. In each case the table after the edit corresponds
to the one before it in the columns that do not rest on the edited one, so that the cells of
these columns are read alike.

The dependent columns are looked for in the graph after the edit. They are those of the
graph before it, because an edit of a column changes no path that leads to it.

* `Forgets` — from one table to another exactly what rests on a column is forgotten.
* `corresponds_replaced`, `corresponds_appended`, `corresponds_removed` — the tables before
  and after an edit.
* `invalidatesExactly_run` — what edits forget, in any state that edits in place lead to.
-/

namespace FormulaTable

open Access

/-- The name of the column that an edit is about. -/
def Edit.name : Edit → String
  | add name _ => name
  | set name _ => name
  | clear name => name
  | remove name => name

namespace ComputedTable

variable {σ : Type} {t t' : ComputedTable σ}

/-- The result that is kept for the column of a name. -/
def kept (t : ComputedTable σ) (name : String) : Except Error (Option Evaluated) :=
  (t.slotNamed name).map (·.cached)

/-- The cell in a row of the column of a name. -/
def readCellNamed [Tabular σ] (name : String) (row : Nat) : Access (ComputedTable σ) Cell :=
  do
  readCell row (← Access.ofExcept ((← get).position name))

/-- The column of a name is the same in both tables: its definition, its result, and its
cells. -/
structure Untouched [Tabular σ] (name : String) (t t' : ComputedTable σ) : Prop where
  slotNamed_eq : t'.slotNamed name = t.slotNamed name
  readCellNamed_eq : ∀ row,
    ((readCellNamed name row).on t').1 = ((readCellNamed name row).on t).1

/-- Exactly the results of a column, and of the columns that depend on it, are forgotten. -/
structure Forgets [Tabular σ] (name : String) (t t' : ComputedTable σ) : Prop where
  /-- The columns that depend on it are the same in both graphs. -/
  dependents_eq : t'.graph.transitiveDependents name = t.graph.transitiveDependents name
  restsOn_iff : ∀ other, t'.RestsOn other name ↔ t.RestsOn other name
  forgotten : ∀ other, t.RestsOn other name → t'.kept other = .ok none
  untouched : ∀ other, ¬ t.RestsOn other name → Untouched other t t'

/-! ### Columns by name -/

section

variable (ht : t.graph.Describes t.columns)

include ht

/-- A name that no column has is unknown. -/
theorem position_eq_error {name : String} (h : ¬ t.Has name) :
    t.position name = .error (.unknownColumn name) := by
  cases hp : t.position name with
  | ok p =>
      obtain ⟨c, hc, hname⟩ := ht.position_eq_ok.1 hp
      exact absurd ⟨c, List.mem_of_getElem? hc, hname⟩ h
  | error e =>
      rw [position, Graph.position, Graph.placeOf] at hp
      split at hp <;> cases hp
      rfl

/-- A name that no column has has no slot. -/
theorem slotNamed_eq_error {name : String} (h : ¬ t.Has name) :
    t.slotNamed name = .error (.unknownColumn name) := by
  rw [slotNamed, position_eq_error ht h]
  rfl

omit ht in
/-- What is kept under a name is what is kept in its slot. -/
theorem kept_eq_ok {name : String} {p : Nat} {r : Option Evaluated}
    (hp : t.position name = .ok p) {slot : Slot} (hslot : t.slot? p = some slot)
    (hr : slot.cached = r) : t.kept name = .ok r :=
  map_eq_ok.2 ⟨slot, slotNamed_eq_ok.2 ⟨p, hp, hslot⟩, hr⟩

end

/-- A column that corresponds is untouched. A name that is missing before is missing
afterwards. -/
theorem Corresponds.untouched [Tabular σ] {f : Nat → Nat} {U : Nat → Prop}
    {columns : List Column} (h : t.Corresponds f U columns t') {name : String}
    (hU : ∀ p, t.position name = .ok p → U p) (hold : t'.Has name → t.Has name) :
    Untouched name t t' := by
  by_cases hname : t.Has name
  · obtain ⟨p, c, hc, rfl⟩ := has_iff_exists.1 hname
    have hp : t.position c.name = .ok p := h.describes.position_eq_ok.2 ⟨c, hc, rfl⟩
    refine ⟨h.slotNamed_eq (hU p hp) hp, fun row => ?_⟩
    rw [readCellNamed, on_get_bind, on_get_bind, on_ofExcept_bind_ok hp,
      on_ofExcept_bind_ok (h.position_eq_ok (hU p hp) hp)]
    exact (h.matches_readCell row (hU p hp)).1
  · have hname' := mt hold hname
    refine ⟨?_, fun row => ?_⟩
    · rw [slotNamed_eq_error h.describes hname, slotNamed_eq_error h.describes' hname']
    · rw [readCellNamed, on_get_bind, on_get_bind,
        on_ofExcept_bind_error (position_eq_error h.describes hname),
        on_ofExcept_bind_error (position_eq_error h.describes' hname')]

/-- Nothing is touched where nothing is done. -/
theorem untouched_refl [Tabular σ] (name : String) : Untouched name t t :=
  ⟨rfl, fun _ => rfl⟩

/-! ### A replaced column -/

/-- A column whose result is not forgotten is left as it was. -/
theorem slot?_replaced_of_not_mem {p q : Nat} {c : Column} {g : Graph} (hqp : q ≠ p)
    (hq : q ∉ g.affected p) : (t.replaced p c g).slot? q = t.slot? q := by
  have hnot : ¬ (p :: g.affected p).contains q = true := by
    rw [List.contains_iff_mem, List.mem_cons, not_or]
    exact ⟨hqp, hq⟩
  rw [slot?, replaced, forgetAt_getElem?, List.getElem?_modify_ne _ _ hqp.symm]
  simp only [if_neg hnot, slot?, Option.map_id_fun', id]

/-- A column whose result is forgotten has none. -/
theorem exists_slot?_replaced_of_mem {p q : Nat} {c : Column} {g : Graph}
    (hq : q ∈ p :: g.affected p) (hlen : q < t.slots.length) :
    ∃ slot, (t.replaced p c g).slot? q = some slot ∧ slot.cached = none := by
  obtain ⟨slot, hslot⟩ : ∃ slot,
      (t.slots.modify p fun slot => { slot with column := c })[q]? = some slot :=
    ⟨_, List.getElem?_eq_getElem (by rwa [List.length_modify])⟩
  rw [slot?, replaced, forgetAt_getElem?, hslot, Option.map_some,
    if_pos (List.contains_iff_mem.2 hq)]
  exact ⟨_, rfl, rfl⟩

section

variable {p : Nat} {c c' : Column} {g : Graph} (ht : t.graph.Describes t.columns)
  (hc : t.columns[p]? = some c) (hname : c'.name = c.name)
    (hg : g.Describes (t.columns.set p c'))

include ht hc hname hg

/-- What is forgotten are the columns from which dependencies lead to the replaced one. -/
theorem mem_cons_affected_iff {q : Nat} :
    q ∈ p :: g.affected p ↔ Relation.ReflTransGen t.graph.Reads q p := by
  rw [List.mem_cons, ht.affected_eq_of_set hc hname hg, ht.mem_affected,
    Relation.reflTransGen_iff_eq_or_transGen]
  exact or_congr_left eq_comm

/-- The columns that do not rest on a replaced one correspond. -/
theorem corresponds_replaced : t.Corresponds id
    (fun q => q < t.slots.length ∧ ¬ Relation.ReflTransGen t.graph.Reads q p) t.columns
        (t.replaced p c' g) where
  columns_eq := rfl
  source_eq := rfl
  describes := ht
  describes' := by
    rw [columns_replaced]
    exact hg
  lt_length _ hq := hq.1
  slot?_eq q hq := by
    have hnot := mt (mem_cons_affected_iff ht hc hname hg).1 hq.2
    rw [List.mem_cons, not_or] at hnot
    exact slot?_replaced_of_not_mem hnot.1 hnot.2
  lt_iff _ _ _ _ := Iff.rfl
  closed q hq r hr := by
    refine ⟨?_, fun hrp => hq.2 (.head hr hrp)⟩
    rw [← t.length_columns, ← ht.size_eq]
    exact (ht.lt_of_mem_dependencies hr).2

/-- **A replaced column** costs exactly the results that rest on it. -/
theorem forgets_replaced [Tabular σ] : Forgets c.name t (t.replaced p c' g) := by
  have hcorresponds := corresponds_replaced ht hc hname hg
  have hposition := ht.position_eq_of_set hc hname hg.toResolves
  refine ⟨ht.transitiveDependents_eq_of_set hc hname hg, fun other => ?_,
    fun other hother => ?_, fun other hother => ?_⟩
  · exact or_congr_right (Bool.eq_iff_iff.1 (ht.isDependentOn_eq_of_set hc hname hg other))
  · obtain ⟨q, d, hd, rfl, hpath⟩ := (restsOn_iff ht hc).1 hother
    have hq : (t.replaced p c' g).position d.name = .ok q :=
      (hposition d.name).trans (ht.position_eq_ok.2 ⟨d, hd, rfl⟩)
    obtain ⟨slot, hslot, hcached⟩ :=
      exists_slot?_replaced_of_mem (c := c')
        ((mem_cons_affected_iff ht hc hname hg).2 hpath)
        (t.length_columns ▸ (List.getElem?_eq_some_iff.1 hd).1)
    exact kept_eq_ok hq hslot hcached
  · refine hcorresponds.untouched (fun q hq => ?_) fun hhas => ?_
    · obtain ⟨d, hd, hd'⟩ := ht.position_eq_ok.1 hq
      refine ⟨t.length_columns ▸ (List.getElem?_eq_some_iff.1 hd).1, fun hpath => ?_⟩
      exact hother ((restsOn_iff ht hc).2 ⟨q, d, hd, hd', hpath⟩)
    · rw [has_iff_mem, columns_replaced, Graph.map_name_set hc hname] at hhas
      exact has_iff_mem.2 hhas

end

/-! ### A column that is added or removed -/

section

variable (ht : t.graph.Describes t.columns)

include ht

/-- The columns that were there correspond. -/
theorem corresponds_appended {c : Column} {g : Graph}
    (hg : g.Describes (t.columns ++ [c])) :
    t.Corresponds id (· < t.slots.length) t.columns (t.appended c g) where
  columns_eq := rfl
  source_eq := rfl
  describes := ht
  describes' := by
    rw [columns_appended]
    exact hg
  lt_length _ hq := hq
  slot?_eq _ hq := List.getElem?_append_left hq
  lt_iff _ _ _ _ := Iff.rfl
  closed q hq r hr := by
    rw [← t.length_columns, ← ht.size_eq]
    exact (ht.lt_of_mem_dependencies hr).2

/-- An addition touches no other column. -/
theorem untouched_appended [Tabular σ] {c : Column} {g : Graph}
    (hg : g.Describes (t.columns ++ [c])) {name : String} (hname : name ≠ c.name) :
    Untouched name t (t.appended c g) := by
  refine (corresponds_appended ht hg).untouched (fun q hq => ?_) fun hhas => ?_
  · obtain ⟨d, hd, -⟩ := ht.position_eq_ok.1 hq
    exact t.length_columns ▸ (List.getElem?_eq_some_iff.1 hd).1
  · obtain ⟨d, hd, rfl⟩ := hhas
    rw [columns_appended, List.mem_append, List.mem_singleton] at hd
    rcases hd with hd | rfl
    · exact ⟨d, hd, rfl⟩
    · exact absurd rfl hname

section

variable {p : Nat} {c : Column} {g : Graph} (hc : t.columns[p]? = some c)
  (hfree : t.graph.dependents p = [])
  (hg : g.Describes (t.columns.eraseIdx p))

include hc hfree hg

/-- All other columns correspond, and those behind the removed one move up. -/
theorem corresponds_removed :
    t.Corresponds (Graph.shift p) (fun q => q < t.slots.length ∧ q ≠ p) t.columns
    (t.removed p g) where
  columns_eq := rfl
  source_eq := rfl
  describes := ht
  describes' := by
    rw [columns_removed]
    exact hg
  lt_length _ hq := hq.1
  slot?_eq q hq := by
    show (t.slots.eraseIdx p)[Graph.shift p q]? = t.slots[q]?
    rw [Graph.eraseIdx_getElem?_eq, Graph.unshift_shift hq.2]
  lt_iff _ _ hq hr := Graph.shift_lt_iff hq.2 hr.2
  closed q hq r hr := by
    have hlt := ht.lt_of_mem_dependencies hr
    refine ⟨?_, ?_⟩
    · rw [← t.length_columns, ← ht.size_eq]
      exact hlt.2
    · rintro rfl
      have hmem := Graph.mem_dependents.2 ⟨hlt.1, hr⟩
      rw [hfree] at hmem
      cases hmem

omit hfree hg in
/-- A column that is removed is no longer there. -/
theorem not_has_removed : ¬ (t.removed p g).Has c.name := by
  rintro ⟨d, hd, hname⟩
  rw [columns_removed, List.mem_eraseIdx_iff_getElem?] at hd
  obtain ⟨q, hqp, hq⟩ := hd
  exact hqp (ht.eq_of_name_eq hq hc hname)

/-- A removal touches no other column. -/
theorem untouched_removed [Tabular σ] {name : String} (hname : name ≠ c.name) :
    Untouched name t (t.removed p g) := by
  refine (corresponds_removed ht hc hfree hg).untouched (fun q hq => ?_) fun hhas => ?_
  · obtain ⟨d, hd, hd'⟩ := ht.position_eq_ok.1 hq
    refine ⟨t.length_columns ▸ (List.getElem?_eq_some_iff.1 hd).1, ?_⟩
    rintro rfl
    rw [hc] at hd
    cases hd
    exact hname hd'.symm
  · obtain ⟨d, hd, rfl⟩ := hhas
    rw [columns_removed] at hd
    exact ⟨d, List.mem_of_mem_eraseIdx hd, rfl⟩

end

omit ht in
/-- What was put last is removed at the last position. -/
theorem eraseIdx_concat {α : Type} (l : List α) (a : α) :
    (l ++ [a]).eraseIdx l.length = l := by
  rw [List.eraseIdx_append_of_length_le (Nat.le_refl _), Nat.sub_self]
  exact List.append_nil l

/-- A column that was just added can be removed again, and nothing is left of it. -/
theorem removeColumn_appended {c : Column} {g : Graph} (hg : g.Describes (t.columns ++ [c]))
    (hsource : c.source? = none) : (t.appended c g).removeColumn c.name = .ok t := by
  have hg' : (t.appended c g).graph.Describes (t.appended c g).columns :=
    (corresponds_appended ht hg).describes'
  have hlast : (t.appended c g).columns[t.columns.length]? = some c := by simp
  have hexists : ∃ g' : Graph, g'.Describes (t.columns ++ [c]) := ⟨g, hg⟩
  obtain ⟨hfresh, hdeps⟩ := (Graph.exists_describes_append_iff ht).1 hexists
  have hfree : ∀ d ∈ (t.appended c g).columns, c.name ∉ d.dependencies := by
    rw [columns_appended]
    refine List.forall_mem_append.2
      ⟨fun d hd hdep => ?_, List.forall_mem_singleton.2 fun hdep => ?_⟩
    · obtain ⟨q, hq⟩ := List.mem_iff_getElem?.1 hd
      obtain ⟨r, e, he, hname, -⟩ := ht.exists_of_mem_dependencies hq hdep
      exact hfresh (List.mem_map.2 ⟨e, List.mem_of_getElem? he, hname⟩)
    · exact hfresh (hdeps _ hdep)
  refine (removeColumn_eq_ok hg').2 ⟨_, c, hlast, rfl, hsource,
    (hg'.dependents_eq_nil_iff hlast).2 hfree, t.graph, ?_, ?_⟩
  · rw [columns_appended, eraseIdx_concat]
    exact ht
  · rw [removed, appended, t.length_columns, eraseIdx_concat]

end

/-! ### Edits in place -/

variable [Tabular σ]

/-- **The columns that do not rest on the edited one are untouched**, whatever the edit
is. -/
theorem untouched_of_edit (ht : t.graph.Describes t.columns) {e : Edit}
    (h : e.apply t = .ok t') {other : String} (hother : ¬ t.RestsOn other e.name) :
    Untouched other t t' := by
  have hne : other ≠ e.name := fun heq => hother (.inl heq)
  cases e with
  | add name x =>
      obtain ⟨⟨t₁, n⟩, h₁, rfl⟩ := map_eq_ok.1 h
      obtain ⟨-, -, g, hg, rfl⟩ := addColumn_eq_ok.1 h₁
      exact untouched_appended ht hg hne
  | set name x =>
      obtain ⟨p, c, hc, rfl, g, hg, rfl⟩ := (setComputation_eq_ok ht).1 h
      exact (forgets_replaced ht hc (by simp) hg).untouched other hother
  | clear name =>
      obtain ⟨p, c, hc, rfl, ⟨-, rfl⟩ | ⟨i, x, kind, -, -, -, g, hg, rfl⟩⟩ :=
        (clearComputation_eq_ok ht).1 h
      · exact untouched_refl other
      · have hname : (Column.stored c.name kind i).name = c.name := rfl
        exact (forgets_replaced ht hc hname hg).untouched other hother
  | remove name =>
      obtain ⟨p, c, hc, rfl, -, hfree, g, hg, rfl⟩ := (removeColumn_eq_ok ht).1 h
      exact untouched_removed ht hc hfree hg hne

/-- What successful edits of a table forget. -/
structure InvalidatesExactly (t : ComputedTable σ) : Prop where
  set : ∀ name x t', (setInPlace name x).on t = (.ok (), t') → Forgets name t t'
  clear : ∀ name t', (clearInPlace name).on t = (.ok (), t') →
    (∃ c ∈ t.columns, c.name = name ∧ ∃ i x, c.content = .transformed i x) →
      Forgets name t t'
  add : ∀ name x n t', (addInPlace name x).on t = (.ok n, t') →
    t'.slots = t.slots ++ [⟨.computed name x, none⟩] ∧ ∀ other ≠ name, Untouched other t t'
  remove : ∀ name t', (removeInPlace name).on t = (.ok (), t') →
    t'.slotNamed name = .error (.unknownColumn name) ∧ ∀ other ≠ name, Untouched other t t'
  add_remove : ∀ name x n t', (addInPlace name x).on t = (.ok n, t') →
    (removeInPlace name).on t' = (.ok (), t)
  /-- Whatever edit it is, the cells of a column that does not rest on the edited one are
  the same. -/
  untouched : ∀ (e : Edit) t', e.inPlace.on t = (.ok (), t') →
    ∀ other, ¬ t.RestsOn other e.name → Untouched other t t'

omit [Tabular σ] in
/-- An addition in place is an addition. -/
theorem addInPlace_eq_ok {name : String} {x : Computation} {n : Nat} :
    (addInPlace name x).on t = (.ok n, t') ↔ t.addColumn name x = .ok (t', n) := by
  rw [on_addInPlace]
  cases t.addColumn name x with
  | error e =>
      constructor
      · rintro ⟨⟩
      · rintro ⟨⟩
  | ok r =>
      constructor
      · rintro ⟨⟩
        rfl
      · rintro ⟨⟩
        rfl

/-- Edits forget exactly the results of a column and of those that rest on it. -/
theorem invalidatesExactly_of_describes (ht : t.graph.Describes t.columns) :
    t.InvalidatesExactly where
  set name x t' h := by
    obtain ⟨p, c, hc, rfl, g, hg, rfl⟩ := (setComputation_eq_ok ht).1
      ((Edit.on_inPlace_eq_ok ht (e := .set name x)).1 h)
    exact forgets_replaced ht hc (by simp) hg
  clear name t' h htransformed := by
    obtain ⟨p, c, hc, rfl, ⟨⟨i, k, hstored⟩, -⟩ | ⟨i, x, kind, -, -, -, g, hg, rfl⟩⟩ :=
      (clearComputation_eq_ok ht).1 ((Edit.on_inPlace_eq_ok ht (e := .clear name)).1 h)
    · obtain ⟨d, hd, hname, j, y, hcontent⟩ := htransformed
      obtain ⟨q, hq⟩ := List.mem_iff_getElem?.1 hd
      rw [eq_of_getElem?_of_name_eq ht hq hc hname, hstored] at hcontent
      cases hcontent
    · have hname : (Column.stored c.name kind i).name = c.name := rfl
      exact forgets_replaced ht hc hname hg
  add name x n t' h := by
    obtain ⟨-, -, g, hg, rfl⟩ := addColumn_eq_ok.1 (addInPlace_eq_ok.1 h)
    exact ⟨rfl, fun other hother => untouched_appended ht hg hother⟩
  remove name t' h := by
    obtain ⟨p, c, hc, rfl, -, hfree, g, hg, rfl⟩ := (removeColumn_eq_ok ht).1
      ((Edit.on_inPlace_eq_ok ht (e := .remove name)).1 h)
    have hg' := (corresponds_removed ht hc hfree hg).describes'
    exact ⟨slotNamed_eq_error hg' (not_has_removed ht hc),
      fun other hother => untouched_removed ht hc hfree hg hother⟩
  add_remove name x n t' h := by
    obtain ⟨-, -, g, hg, rfl⟩ := addColumn_eq_ok.1 (addInPlace_eq_ok.1 h)
    have hremove := removeColumn_appended ht hg rfl
    exact (Edit.on_inPlace_eq_ok (corresponds_appended ht hg).describes'
        (e := .remove name)).2 hremove
  untouched e t' h other hother :=
    untouched_of_edit ht ((Edit.on_inPlace_eq_ok ht).1 h) hother

/-- **Invalidation is exact** in every state that a table can be brought to. -/
theorem invalidatesExactly_run {s : σ} {registry : Registry} {config : Config}
    (h : create s registry config = .ok t) (ops : List Operation) :
    (t.runInPlace ops).InvalidatesExactly :=
  invalidatesExactly_of_describes (describes_runInPlace h ops)

/-- In a chain of columns the later one loses its result with the first one, and a column
apart keeps it. -/
theorem invalidatesExactly_run_chained :
    create BaseTable.singleColumn .standard .standard = .ok (singleColumn .standard) ∧
      let t := (singleColumn .standard).runInPlace (Operation.chained .standard ++
        [.edit (.add "d" (.applied .add "a" 1 .standard)), .materializeAll])
      t.isMaterialized "c" = .ok true ∧ t.isMaterialized "d" = .ok true ∧
        ∃ t', (setInPlace "b" (.applied .add "a" 1 .standard)).on t = (.ok (), t') ∧
          t'.kept "c" = .ok none ∧ t'.slotNamed "d" = t.slotNamed "d" := by
  have hcreate : create BaseTable.singleColumn .standard .standard =
      .ok (singleColumn .standard) :=
    create_singleColumn rfl
  have hset : ((setInPlace "b" (.applied .add "a" 1 .standard)).on
      ((singleColumn .standard).runInPlace (Operation.chained .standard ++
        [.edit (.add "d" (.applied .add "a" 1 .standard)), .materializeAll]))).1 = .ok () :=
          rfl
  obtain ⟨t', hon⟩ := exists_on_eq_ok hset
  refine ⟨hcreate, ?_⟩
  intro t
  have hexactly : t.InvalidatesExactly := invalidatesExactly_run hcreate _
  have hforgets := hexactly.set _ _ _ hon
  have hc : t.isMaterialized "c" = .ok true := rfl
  have hd : t.isMaterialized "d" = .ok true := rfl
  have hdependent : t.graph.isDependentOn "c" "b" = true := rfl
  refine ⟨hc, hd, t', hon, hforgets.forgotten "c" (.inr hdependent), ?_⟩
  refine (hforgets.untouched "d" ?_).slotNamed_eq
  have hapart : t.graph.isDependentOn "d" "b" = false := rfl
  rintro (hname | hdep)
  · exact absurd hname (by decide)
  · rw [hapart] at hdep
    cases hdep

end ComputedTable

end FormulaTable
