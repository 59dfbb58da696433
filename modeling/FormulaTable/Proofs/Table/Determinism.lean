import FormulaTable.Proofs.Dependency.Outcome
import FormulaTable.Proofs.Table.Evaluations

/-!
# What is read is determined

A table answers a read from its columns and from what its source shows, whichever results it
keeps. Over a complete source this is plain, since nothing fails. Where columns of the
source cannot be read, a failure is reported, and of several failures the one that comes
first in the order of evaluation. A result that is kept cannot hide a failure: whatever its
column reads did not fail either.

* `Access.Gives` — an action whose result, or failure, is known.
* `materializeAt_eq` — what comes of evaluating a column with all it needs.
* `readCell_eq_of_columns_eq`, `readColumn_eq_of_columns_eq` — tables with the same columns
  over a source that shows the same answer alike.
-/

namespace FormulaTable

namespace Access

variable {σ α β : Type} {I : σ → Prop}

/-- On a table with `I` the action comes to the given result or failure, and leaves a table
with `I`. -/
def Gives (I : σ → Prop) (x : Access σ α) (r : Except Error α) : Prop :=
  ∀ t, I t → (x.on t).1 = r ∧ I (x.on t).2

/-- One action after another: the second one may count on the result of the first one. -/
theorem Gives.bind {x : Access σ α} {f : α → Access σ β} {r : Except Error α}
    {r' : α → Except Error β} (hx : Gives I x r) (hf : ∀ a, Gives I (f a) (r' a)) :
    Gives I (x >>= f) (r >>= r') := by
  intro t ht
  obtain ⟨hresult, hkeep⟩ := hx t ht
  rw [on_bind]
  cases hon : x.on t with
  | mk s t' =>
      rw [hon] at hresult hkeep
      subst hresult
      cases s with
      | error e => exact ⟨rfl, hkeep⟩
      | ok a => exact hf a t' hkeep

/-- A given result depends on nothing. -/
theorem gives_pure (a : α) : Gives I (pure a : Access σ α) (.ok a) := fun _ ht => ⟨rfl, ht⟩

/-- An action for every member of a list. -/
theorem Gives.mapM {f : α → Access σ β} {g : α → Except Error β} {as : List α}
    (h : ∀ a ∈ as, Gives I (f a) (g a)) : Gives I (as.mapM f) (as.mapM g) := by
  induction as with
  | nil => exact gives_pure []
  | cons a as ih =>
      rw [List.mapM_cons, List.mapM_cons]
      refine (h a List.mem_cons_self).bind fun b => ?_
      exact (ih fun a' ha' => h a' (List.mem_cons_of_mem a ha')).bind fun bs =>
        gives_pure (b :: bs)

/-- What is made of the result is made of what the action gives. -/
theorem on_bind_pure_fst (x : Access σ α) (f : α → β) (t : σ) :
    ((x >>= fun a => pure (f a)).on t).1 = (x.on t).1.map f := by
  rw [on_bind]
  cases x.on t with
  | mk r t' => cases r <;> rfl

end Access

/-! ### Results and their failures -/

namespace View

variable {v : View} {columns : List Column} {g : Graph}

/-- The first failure among the results of the computed columns at some positions. -/
def checkResult (v : View) (columns : List Column) (p : Nat) : Except Error Unit :=
  match columns[p]? with
  | none => .ok ()
  | some c => if c.isComputed then (v.result columns c).map fun _ => () else .ok ()

/-- The result of a column that is evaluated after others, unless one of them fails. -/
def resultAfter (v : View) (columns : List Column) (ps : List Nat) (c : Column) :
    Except Error Evaluated := do
  ps.forM (v.checkResult columns)
  v.result columns c

/-- A check of results finds nothing exactly if the result of the column is there. -/
theorem checkResult_eq_ok {p : Nat} : v.checkResult columns p = .ok () ↔
    ∀ c, columns[p]? = some c → c.isComputed → ∃ e, v.result columns c = .ok e := by
  rw [checkResult]
  cases columns[p]? with
  | none => exact ⟨fun _ _ h => (nomatch h), fun _ => rfl⟩
  | some c =>
      simp only [Option.some.injEq, forall_eq']
      cases c.isComputed with
      | false => exact ⟨fun _ h => (nomatch h), fun _ => rfl⟩
      | true =>
          rw [if_pos rfl, map_eq_ok]
          exact ⟨fun ⟨e, he, _⟩ _ => ⟨e, he⟩, fun h => (h rfl).imp fun e he => ⟨he, rfl⟩⟩

variable (hg : g.Describes columns)

include hg

/-- What a column with a result reads has a result. -/
theorem exists_result_of_reads {p q : Nat} {c d : Column} (hc : columns[p]? = some c)
    {e : Evaluated} (he : v.result columns c = .ok e) (hpq : g.Reads p q)
    (hd : columns[q]? = some d) (hcomputed : d.isComputed) :
    ∃ e', v.result columns d = .ok e' := by
  obtain ⟨x, inputs, hx, hinputs, -⟩ := (result_eq_ok hg (List.mem_of_getElem? hc)).1 he
  obtain ⟨hname, hown⟩ := (hg.reads_iff hc hd).1 hpq
  rw [Column.inputs, hx] at hname
  obtain ⟨s, hs⟩ := exists_of_mapM_eq_ok hinputs hname
  have hown : c.own? d.name = none := by
    rw [Column.own?]
    split
    case isTrue heq => exact Option.not_isSome_iff_eq_none.1 fun hsome => hown ⟨hsome, heq⟩
    case isFalse => rfl
  have hfind := (find?_name_eq_some hg.nodup).2 ⟨List.mem_of_getElem? hd, rfl⟩
  rw [input, inputFrom_computed hown hfind hcomputed, map_eq_ok] at hs
  exact hs.imp fun _ h => h.1

/-- Whatever a column with a result reaches has a result. -/
theorem checkResult_of_reaches {p q : Nat} {c : Column} (hc : columns[p]? = some c)
    {e : Evaluated} (he : v.result columns c = .ok e)
    (hpq : Relation.ReflTransGen g.Reads p q) :
    v.checkResult columns q = .ok () := by
  induction hpq with
  | refl =>
      refine checkResult_eq_ok.2 fun d hd _ => ⟨e, ?_⟩
      rw [hc] at hd
      cases hd
      exact he
  | @tail r q _ hrq ih =>
      refine checkResult_eq_ok.2 fun d hd hcomputed => ?_
      have hlt : r < columns.length := hg.size_eq ▸ (hg.lt_of_mem_dependencies hrq).1
      have hr : columns[r]? = some columns[r] := List.getElem?_eq_getElem hlt
      -- A column that reads another one is computed.
      have hreads : columns[r].isComputed := by
        by_contra hstored
        have hdep := Column.mem_dependencies_iff.2 ((hg.reads_iff hr hd).1 hrq)
        rw [Column.dependencies_eq_nil (Bool.eq_false_iff.2 hstored)] at hdep
        cases hdep
      obtain ⟨e', he'⟩ := checkResult_eq_ok.1 ih _ hr hreads
      exact exists_result_of_reads hg hr he' hrq hd hcomputed

/-- A result is not affected by failures, if it is there. -/
theorem resultAfter_of_ok {p : Nat} {c : Column} (hc : columns[p]? = some c) {e : Evaluated}
    (he : v.result columns c = .ok e) : v.resultAfter columns (g.orderFor p) c = .ok e := by
  have hp : p < g.size := hg.size_eq ▸ (List.getElem?_eq_some_iff.1 hc).1
  have hchecks : (g.orderFor p).forM (v.checkResult columns) = .ok () :=
    forM_eq_ok.2 fun q hq => checkResult_of_reaches hg hc he ((hg.mem_orderFor hp).1 hq)
  rw [resultAfter, hchecks]
  exact he

end View

namespace ComputedTable

open Access

variable {σ : Type} [Tabular σ] {P : σ → Prop} {v : View} {t t' : ComputedTable σ}
  {columns : List Column} {g : Graph}

section

variable (hP : Shows P v)

include hP

section

variable (hg : g.Describes columns)

include hg

/-! ### Evaluation -/

/-- An input is what the definitions give, if the columns that are depended on are known. -/
theorem gives_readInput {ps : List Nat} {p : Nat} {c : Column} (hc : columns[p]? = some c)
    {x : Computation} (hx : c.computation? = some x) (hdeps : g.dependencies p ⊆ ps)
    {input : String} (hinput : input ∈ x.inputs) :
    Gives (ReadyWith P v columns ps) (readInput (σ := σ) c input)
      (v.input columns c input) := by
  rintro t ⟨ht, hfilled⟩
  have hready : t.ReadyWith P v columns ps := ⟨ht, hfilled⟩
  have hgraph := ht.graph_eq hg
  obtain ⟨hfaith, rfl⟩ := ht
  have hdescribes := hfaith.wellFormed.describes
  obtain ⟨o, ho⟩ := exists_origin_eq_ok hdescribes hc hx
    (fun q hq => hfilled q (hdeps (hgraph ▸ hq))) hinput
  rw [input_of_origin hdescribes hfaith.coherent ho, readInput, on_get_bind,
    on_ofExcept_bind_ok ho]
  cases o with
  | source i =>
      exact ⟨hP.readColumn_eq _ hfaith.source i,
        (undisturbed_readyWith hP t.columns ps).readColumn t hready i⟩
  | kept s => exact ⟨rfl, hready⟩

/-- An evaluation comes to what the definition gives, if the columns that are depended on
are known. -/
theorem gives_evaluateColumn {ps : List Nat} {p : Nat} {c : Column}
    (hc : columns[p]? = some c) (hcomputed : c.isComputed) (hdeps : g.dependencies p ⊆ ps) :
    Gives (ReadyWith P v columns ps) (evaluateColumn (σ := σ) c) (v.result columns c) := by
  obtain ⟨x, hx⟩ := Option.isSome_iff_exists.1 hcomputed
  rw [evaluateColumn, View.result_eq hg (List.mem_of_getElem? hc), View.resultFrom, hx]
  refine (Gives.mapM fun input hinput => gives_readInput hP hg hc hx hdeps hinput).bind
    fun inputs t ht => ?_
  have hrows := hP.rowCount_eq _ ht.1.1.source
  refine ⟨?_, (undisturbed_readyWith hP columns ps).countEvaluation t ht⟩
  rw [← hrows]
  rfl

omit hP hg in
/-- A result that is kept is that of the definition. -/
theorem ReadyFor.result_of_cached? (ht : t.ReadyFor P v columns) {p : Nat} {c : Column}
    (hc : columns[p]? = some c) {e : Evaluated} (hcached : t.cached? p = some e) :
    v.result columns c = .ok e := by
  obtain ⟨hfaith, rfl⟩ := ht
  obtain ⟨slot, hslot, he⟩ := exists_slot?_of_cached? hcached
  have hcol := columns_getElem?_of_slot? hslot
  rw [hc] at hcol
  cases hcol
  exact hfaith.coherent slot (List.mem_of_getElem? hslot) e he

omit hP hg in
/-- What is not open is known, if it is computed at all. -/
theorem checkResult_of_not_isOpen (ht : t.ReadyFor P v columns) {p : Nat}
    (hopen : t.isOpen p = false) :
    v.checkResult columns p = .ok () := by
  refine View.checkResult_eq_ok.2 fun c hc hcomputed => ?_
  cases hcached : t.cached? p with
  | none =>
      rw [isOpen_of_cached? (ht.2.symm ▸ hc) hcomputed hcached] at hopen
      cases hopen
  | some e => exact ⟨e, ht.result_of_cached? hc hcached⟩

omit [Tabular σ] hP hg in
/-- A position with nothing to evaluate counts as filled. -/
theorem Filled.append_of_not_isOpen {ps : List Nat} (h : t.Filled ps) {p : Nat}
    (hopen : t.isOpen p = false) :
    t.Filled (ps ++ [p]) := by
  intro q hq slot hslot hcomputed
  rcases List.mem_append.1 hq with hq | hq
  · exact h q hq slot hslot hcomputed
  · rw [List.mem_singleton.1 hq] at hslot
    by_contra hnone
    rw [isOpen_of_slot? hslot
      (Slot.isOpen_iff.2 ⟨hcomputed, Option.not_isSome_iff_eq_none.1 hnone⟩)] at hopen
    cases hopen

/-- What an action that evaluates columns does: it fails as the check says, and otherwise
leaves a table on which the given columns are known. -/
structure Fills {α : Type} (P : σ → Prop) (v : View) (columns : List Column) (ps : List Nat)
    (check : Except Error Unit) (r : Except Error α × ComputedTable σ) : Prop where
  result : r.1.map (fun _ => ()) = check
  ready : ∀ a, r.1 = .ok a → r.2.ReadyWith P v columns ps

/-- A column in its turn. -/
theorem fills_fill {ps : List Nat} {p : Nat} (hdeps : g.dependencies p ⊆ ps)
    (ht : t.ReadyWith P v columns ps) :
    Fills P v columns (ps ++ [p]) (v.checkResult columns p) ((fill p).on t) := by
  cases hopen : t.isOpen p with
  | false =>
      rw [on_fill_of_not_isOpen hopen]
      exact ⟨(checkResult_of_not_isOpen ht.1 hopen).symm,
        fun _ _ => ⟨ht.1, ht.2.append_of_not_isOpen hopen⟩⟩
  | true =>
      obtain ⟨slot, hslot, hslotopen⟩ := exists_slot?_of_isOpen hopen
      obtain ⟨hcomputed, -⟩ := Slot.isOpen_iff.1 hslotopen
      have hc : columns[p]? = some slot.column := ht.1.2 ▸ columns_getElem?_of_slot? hslot
      have hcheck : v.checkResult columns p = (v.result columns slot.column).map
          fun _ => () := by
        rw [View.checkResult, hc]
        exact if_pos hcomputed
      obtain ⟨hresult, hready⟩ := gives_evaluateColumn hP hg hc hcomputed hdeps t ht
      rw [hcheck, ← hresult]
      cases hon : (evaluateColumn slot.column).on t with
      | mk r t₁ =>
          rw [hon] at hresult hready
          cases r with
          | ok e =>
              rw [on_fill_of_isOpen hslot hslotopen hon]
              refine ⟨rfl, fun _ _ => ⟨?_, hready.2.keep p e⟩⟩
              exact (kept_faithful hP columns).keep t₁ hready.1 p _ e hc hcomputed
                hresult.symm
          | error e =>
              have hfill : (fill p).on t = (.error e, t₁) := by
                rw [fill, on_get_bind, hslot]
                show (if slot.isOpen then _ else _ : Access (ComputedTable σ) Bool).on t = _
                rw [if_pos hslotopen, on_bind, hon]
              rw [hfill]
              refine ⟨rfl, fun _ h => ?_⟩
              cases h

/-- **Columns in order**: the first failure among them is that of the whole. -/
theorem fills_mapM {wanted : Nat → Bool}
    (hclosed : ∀ p, wanted p → ∀ q ∈ g.dependencies p, wanted q) {placed ps : List Nat}
    (hready : g.ReadyAfter wanted placed ps) (ht : t.ReadyWith P v columns placed) :
    Fills P v columns (placed ++ ps) (ps.forM (v.checkResult columns))
      ((ps.mapM fill).on t) := by
  induction ps generalizing t placed with
  | nil => exact ⟨rfl, fun _ _ => (List.append_nil placed).symm ▸ ht⟩
  | cons p ps ih =>
      obtain ⟨⟨-, hwanted, -, hplaced⟩, hrest⟩ := hready
      have hfill := fills_fill hP hg (fun q hq => hplaced q hq (hclosed p hwanted q hq)) ht
      rw [List.mapM_cons, List.forM_eq_forM, List.forM_cons, ← hfill.result, on_bind]
      cases hon : (fill p).on t with
      | mk r t₁ =>
          rw [hon] at hfill
          cases r with
          | error e =>
              refine ⟨rfl, fun _ h => ?_⟩
              cases h
          | ok b =>
              have hmap := ih hrest (hfill.ready b rfl)
              rw [List.append_assoc, List.singleton_append] at hmap
              constructor
              · rw [on_bind_pure_fst, ← List.forM_eq_forM]
                show Except.map _ (Except.map _ _) = ps.forM (v.checkResult columns)
                rw [← hmap.result]
                cases ((ps.mapM fill).on t₁).1 <;> rfl
              · intro bs hbs
                rw [on_bind_pure_fst, map_eq_ok] at hbs
                obtain ⟨bs', hbs', -⟩ := hbs
                rw [on_bind_pure_snd]
                exact hmap.ready bs' hbs'

/-- **What comes of evaluating a column** with all it needs, whichever results are kept. -/
theorem materializeAt_eq (ht : t.ReadyFor P v columns) {p : Nat} {c : Column}
    (hc : columns[p]? = some c) (hcomputed : c.isComputed) :
    ((materializeAt p).on t).1 = v.resultAfter columns (g.orderFor p) c := by
  have hp : p < g.size := hg.size_eq ▸ (List.getElem?_eq_some_iff.1 hc).1
  cases hcached : t.cached? p with
  | some e =>
      rw [on_materializeAt_of_cached hcached,
        View.resultAfter_of_ok hg hc (ht.result_of_cached? hc hcached)]
  | none =>
      have hfills := fills_mapM hP hg
        (fun _ hq _ hr => hg.contains_closure_of_mem_dependencies hp hq hr)
          Graph.readyAfter_orderOf
        (⟨ht, fun q hq => nomatch hq⟩ : t.ReadyWith P v columns [])
      rw [materializeAt, on_get_bind, hcached]
      show ((get >>= _ : Access (ComputedTable σ) Evaluated).on t).1 = _
      rw [on_get_bind, ht.graph_eq hg, View.resultAfter, Graph.orderFor,
        ← hfills.result, fillAll]
      cases hon : ((g.orderOf fun q => (g.closure g.dependencies [p]).contains q).mapM
            fill).on t with
      | mk r t₁ =>
          cases r with
          | error e =>
              rw [on_bind, on_bind, hon]
              rfl
          | ok bs =>
              -- The column itself is among those that are known now.
              obtain ⟨hready, hfilled⟩ := hfills.ready bs (by rw [hon])
              rw [hon] at hready hfilled
              obtain ⟨e, hcached₁⟩ :=
                hfilled.exists_cached? ((hg.mem_orderFor hp).2 .refl)
                  (hready.2.symm ▸ hc) hcomputed
              rw [on_bind_ok (on_bind_ok hon _), on_get_bind, hcached₁]
              exact (hready.result_of_cached? hc hcached₁).symm

end

end

/-! ### Reads -/

/-- A cell of a computed column is one of its result. -/
theorem readCell_of_isComputed {row p : Nat} (hrow : row < Tabular.rowCount t.source)
    {slot : Slot} (hslot : t.slot? p = some slot) (hcomputed : slot.column.isComputed) :
    ((readCell row p).on t).1 = ((materializeAt p).on t).1.map (·.cell row) := by
  cases hcached : slot.cached with
  | some e =>
      rw [on_readCell_of_cached hrow hslot hcomputed hcached,
        on_materializeAt_of_cached ((cached?_of_slot? hslot).trans hcached)]
      rfl
  | none => rw [on_readCell_of_open hrow hslot hcomputed hcached, on_bind_pure_fst]

/-- Reading a computed column reads what is kept once it is materialized. -/
theorem readColumn_of_isComputed {p : Nat} {slot : Slot} (hslot : t.slot? p = some slot)
    (hcomputed : slot.column.isComputed) :
    ((readColumn p).on t).1 = ((materializeAt p).on t).1.map (·.series) := by
  cases hcached : slot.cached with
  | some e =>
      rw [on_readColumn_of_cached hslot hcomputed hcached,
        on_materializeAt_of_cached ((cached?_of_slot? hslot).trans hcached)]
      rfl
  | none => rw [on_readColumn_of_open hslot hcomputed hcached, on_bind_pure_fst]

omit [Tabular σ] in
/-- Tables of the same columns have slots for them at the same positions. -/
theorem exists_slot?_of_columns_eq (hcolumns : t'.columns = t.columns) {p : Nat}
    {slot : Slot} (hslot : t.slot? p = some slot) :
    ∃ slot', t'.slot? p = some slot' ∧ slot'.column = slot.column := by
  have hc := columns_getElem?_of_slot? hslot
  rw [← hcolumns, columns_getElem?] at hc
  exact Option.map_eq_some_iff.1 hc

omit [Tabular σ] in
/-- Tables of the same columns have no slots at the same positions. -/
theorem slot?_eq_none_of_columns_eq (hcolumns : t'.columns = t.columns) {p : Nat}
    (hslot : t.slot? p = none) :
    t'.slot? p = none := by
  have hc := columns_getElem? t p
  rwa [hslot, ← hcolumns, columns_getElem?, Option.map_none, Option.map_eq_none_iff] at hc

section

variable (hP : Shows P v) (ht : t.Faithful P v) (ht' : t'.Faithful P v)
  (hcolumns : t'.columns = t.columns)

include hP ht ht' hcolumns

/-- A computed column comes to the same in both tables. -/
theorem materializeAt_eq_of_columns_eq {p : Nat} {slot : Slot}
    (hslot : t.slot? p = some slot) (hcomputed : slot.column.isComputed) :
    ((materializeAt p).on t').1 = ((materializeAt p).on t).1 := by
  have hg := ht.wellFormed.describes
  have hc := columns_getElem?_of_slot? hslot
  rw [materializeAt_eq hP hg ⟨ht', hcolumns⟩ hc hcomputed,
    materializeAt_eq hP hg ⟨ht, rfl⟩ hc hcomputed]

/-- **Cells are determined** by the columns and by what the source shows. -/
theorem readCell_eq_of_columns_eq (row column : Nat) :
    ((readCell row column).on t').1 = ((readCell row column).on t).1 := by
  have hrows : Tabular.rowCount t'.source = Tabular.rowCount t.source :=
    (hP.rowCount_eq _ ht'.source).trans (hP.rowCount_eq _ ht.source).symm
  rcases Nat.lt_or_ge row (Tabular.rowCount t.source) with hrow | hrow
  · have hrow' : row < Tabular.rowCount t'.source := hrows ▸ hrow
    cases hslot : t.slot? column with
    | none =>
        have hslot' := slot?_eq_none_of_columns_eq hcolumns hslot
        rw [on_readCell_of_none hrow hslot, on_readCell_of_none hrow' hslot',
          ← length_columns, ← length_columns, hcolumns]
    | some slot =>
        obtain ⟨slot', hslot', hcolumn⟩ := exists_slot?_of_columns_eq hcolumns hslot
        rcases slot.column.stored_or_isComputed with ⟨i, hcontent⟩ | hcomputed
        · rw [on_readCell_of_stored hrow hslot hcontent,
            on_readCell_of_stored hrow' hslot'
              ((congrArg Column.content hcolumn).trans hcontent)]
          exact (hP.readCell_eq _ ht'.source row i).trans
            (hP.readCell_eq _ ht.source row i).symm
        · rw [readCell_of_isComputed hrow hslot hcomputed,
            readCell_of_isComputed hrow' hslot' (hcolumn.symm ▸ hcomputed),
            materializeAt_eq_of_columns_eq hP ht ht' hcolumns hslot hcomputed]
  · rw [on_readCell_of_row_le hrow, on_readCell_of_row_le (hrows ▸ hrow), hrows]

/-- **Columns are determined** in the same way. -/
theorem readColumn_eq_of_columns_eq (column : Nat) :
    ((readColumn column).on t').1 = ((readColumn column).on t).1 := by
  cases hslot : t.slot? column with
  | none =>
      have hslot' := slot?_eq_none_of_columns_eq hcolumns hslot
      rw [on_readColumn_of_none hslot, on_readColumn_of_none hslot', ← length_columns,
        ← length_columns, hcolumns]
  | some slot =>
      obtain ⟨slot', hslot', hcolumn⟩ := exists_slot?_of_columns_eq hcolumns hslot
      rcases slot.column.stored_or_isComputed with ⟨i, hcontent⟩ | hcomputed
      · rw [on_readColumn_of_stored hslot hcontent,
          on_readColumn_of_stored hslot' ((congrArg Column.content hcolumn).trans hcontent)]
        exact (hP.readColumn_eq _ ht'.source i).trans (hP.readColumn_eq _ ht.source i).symm
      · rw [readColumn_of_isComputed hslot hcomputed,
          readColumn_of_isComputed hslot' (hcolumn.symm ▸ hcomputed),
          materializeAt_eq_of_columns_eq hP ht ht' hcolumns hslot hcomputed]

end

end ComputedTable

end FormulaTable
