import FormulaTable.Proofs.Table.Evaluations
import FormulaTable.Proofs.Table.InPlace

/-!
# The ledger of evaluations

The counter of evaluations tells how many results came to be known. A request for cells,
columns or results changes no definition, no dependency and no result that is kept; all it
can do is to make further results known, and each of them is counted. Edits make none known,
nor does forgetting results, and neither counts anything.

* `Advances` — results come to be known, and each is counted; what was known, and the
  columns, stay.
* `advances_perform` — what requests do to a table, whether they succeed or fail.
* `evaluations_perform`, `evaluations_runInPlace` — the counter after each operation, and
  after a run.
-/

namespace FormulaTable

/-- Does the operation only ask for something? -/
def Operation.isRequest : Operation → Bool
  | edit _ => false
  | unmaterialize _ => false
  | release => false
  | resetStatistics => false
  | _ => true

/-- What a counter stands at after an operation that makes some results known. -/
def Operation.count (n known : Nat) : Operation → Nat
  | resetStatistics => 0
  | _ => n + known

/-- A list with all of another one, both without repetitions, is longer by what it has
beside. -/
theorem length_eq_add_countP {α : Type} [BEq α] [LawfulBEq α] {l l' : List α} (h : l.Nodup)
    (h' : l'.Nodup) (hsub : l ⊆ l') :
    l'.length = l.length + l'.countP fun a => !l.contains a := by
  have hperm : (l'.filter l.contains).Perm l := by
    rw [List.perm_ext_iff_of_nodup (h'.filter _) h]
    intro a
    rw [List.mem_filter, List.contains_iff_mem]
    exact and_iff_right_of_imp fun ha => hsub ha
  rw [← hperm.length_eq, ← List.countP_eq_length_filter,
    List.length_eq_countP_add_countP l.contains]
  refine congrArg (l'.countP l.contains + ·) (List.countP_congr fun a _ => ?_)
  simp

/-- Changing a member so that it counts makes one more. -/
theorem countP_modify_of_not {α : Type} {f : α → α} {q : α → Bool} {l : List α} {p : Nat}
    {a : α} (h : l[p]? = some a) (ha : q a = false) (hfa : q (f a) = true) :
    (l.modify p f).countP q = l.countP q + 1 := by
  induction l generalizing p with
  | nil => cases h
  | cons b l ih =>
      cases p with
      | zero =>
          cases h
          simp [hfa, ha]
      | succ p =>
          rw [List.modify_succ_cons, List.countP_cons, List.countP_cons, ih h]
          omega

namespace ComputedTable

open Access

variable {σ : Type} {t t' t'' : ComputedTable σ}

/-! ### Results that come to be known -/

/-- The names of the columns whose results are known. -/
def knownNames (t : ComputedTable σ) : List String :=
  (t.slots.filter (·.cached.isSome)).map (·.column.name)

/-- How many columns have a result in the second table, but had none in the first one. -/
def newlyKnown (t t' : ComputedTable σ) : Nat :=
  t'.knownNames.countP fun name => !t.knownNames.contains name

/-- Further results may come to be known, each of which is counted; no column, no dependency
and no result that was known changes. -/
structure Advances (t t' : ComputedTable σ) : Prop where
  columns_eq : t'.columns = t.columns
  graph_eq : t'.graph = t.graph
  kept : ∀ p slot, t.slot? p = some slot → slot.cached.isSome → t'.slot? p = some slot
  ledger : t'.evaluations + t.materializedCount = t.evaluations + t'.materializedCount

/-- A table with the same slots and the same count has advanced. -/
theorem advances_of_slots_eq (hslots : t'.slots = t.slots) (hgraph : t'.graph = t.graph)
    (hcount : t'.evaluations = t.evaluations) : t.Advances t' where
  columns_eq := congrArg (List.map Slot.column) hslots
  graph_eq := hgraph
  kept p slot hslot _ := by
    rw [slot?, hslots]
    exact hslot
  ledger := by rw [hcount, materializedCount, materializedCount, hslots]

/-- A table that stays as it is has advanced. -/
theorem Advances.refl (t : ComputedTable σ) : t.Advances t :=
  advances_of_slots_eq rfl rfl rfl

/-- Advances one after another are one advance. -/
theorem Advances.trans (h : t.Advances t') (h' : t'.Advances t'') : t.Advances t'' where
  columns_eq := h'.columns_eq.trans h.columns_eq
  graph_eq := h'.graph_eq.trans h.graph_eq
  kept p slot hslot hsome := h'.kept p slot (h.kept p slot hslot hsome) hsome
  ledger := by
    have hledger := h.ledger
    have hledger' := h'.ledger
    omega

/-- An evaluation makes one result known. -/
theorem advances_keep {p : Nat} {slot : Slot} (hslot : t.slot? p = some slot)
    (hnone : slot.cached = none) (s : σ) (e : Evaluated) :
    t.Advances (ComputedTable.keep { t.countEvaluation with source := s } p e) where
  columns_eq := columns_keep _ p e
  graph_eq := rfl
  kept q other hother hsome := by
    have hpq : p ≠ q := by
      rintro rfl
      rw [hslot] at hother
      cases hother
      rw [hnone] at hsome
      cases hsome
    rw [keep_slot?, show ({ t.countEvaluation with source := s } : ComputedTable σ).slot?
      q = some other from hother, Option.map_some, if_neg hpq]
  ledger := by
    have hcount :
        (ComputedTable.keep { t.countEvaluation with source := s } p e).materializedCount =
        t.materializedCount + 1 := countP_modify_of_not hslot (by rw [hnone]; rfl) rfl
    rw [hcount]
    show t.evaluations + 1 + _ = _
    omega

/-- Evaluating columns makes a table advance. -/
theorem Evaluates.advances [Tabular σ] {ps : List Nat} (h : t.Evaluates ps t') :
    t.Advances t' := by
  induction h with
  | nil => exact .refl _
  | cons hslot hopen hdeps hon hrest ih =>
      obtain ⟨s, rfl⟩ := exists_eq_of_on_evaluateColumn hon
      exact (advances_keep hslot (Slot.isOpen_iff.1 hopen).2 s _).trans ih

/-- Evaluating the open columns among some makes a table advance. -/
theorem EvaluatesExactly.advances [Tabular σ] {wanted : Nat → Prop}
    (h : EvaluatesExactly wanted t t') :
    t.Advances t' := by
  obtain ⟨_, _, _, hevaluates, _⟩ := h
  exact hevaluates.advances

/-- There are as many known names as columns with a kept result. -/
theorem length_knownNames (t : ComputedTable σ) :
    t.knownNames.length = t.materializedCount := by
  rw [knownNames, List.length_map, materializedCount, List.countP_eq_length_filter]

/-- Known names are distinct if the names of the columns are. -/
theorem nodup_knownNames (h : (t.columns.map (·.name)).Nodup) : t.knownNames.Nodup := by
  refine h.sublist ?_
  rw [knownNames, columns, List.map_map]
  exact List.filter_sublist.map _

/-- **The counter tells how many results came to be known.** -/
theorem Advances.evaluations_eq (h : t.Advances t')
    (hnames : (t.columns.map (·.name)).Nodup) :
    t'.evaluations = t.evaluations + t.newlyKnown t' := by
  have hsub : t.knownNames ⊆ t'.knownNames := by
    intro name hname
    obtain ⟨slot, hslot, rfl⟩ := List.mem_map.1 hname
    obtain ⟨hmem, hsome⟩ := List.mem_filter.1 hslot
    obtain ⟨p, hp⟩ := List.mem_iff_getElem?.1 hmem
    refine List.mem_map_of_mem (List.mem_filter.2 ⟨?_, hsome⟩)
    exact List.mem_of_getElem? (h.kept p slot hp hsome)
  have hlength := length_eq_add_countP (nodup_knownNames hnames)
    (nodup_knownNames (h.columns_eq.symm ▸ hnames)) hsub
  rw [length_knownNames, length_knownNames] at hlength
  have hledger := h.ledger
  rw [newlyKnown]
  omega

/-- Nothing comes to be known where each result was there before. -/
theorem newlyKnown_eq_zero (h : ∀ slot ∈ t'.slots, slot.cached.isSome → slot ∈ t.slots) :
    t.newlyKnown t' = 0 := by
  refine List.countP_eq_zero.2 fun name hname => ?_
  obtain ⟨slot, hslot, rfl⟩ := List.mem_map.1 hname
  obtain ⟨hmem, hsome⟩ := List.mem_filter.1 hslot
  have hknown : slot.column.name ∈ t.knownNames :=
    List.mem_map_of_mem (List.mem_filter.2 ⟨h slot hmem hsome, hsome⟩)
  rw [List.contains_iff_mem.2 hknown]
  exact Bool.false_ne_true

/-! ### Requests -/

variable [Tabular σ]

section

variable {P : σ → Prop} {v : View} {columns : List Column} (hP : Shows P v)
  (hv : v.Complete)
  (ht : t.ReadyFor P v columns)

omit [Tabular σ] in
/-- A name that has a position is that of a column. -/
theorem exists_slot?_of_position (h : t.graph.Describes t.columns) {name : String} {p : Nat}
    (hp : t.position name = .ok p) : ∃ slot, t.slot? p = some slot := by
  obtain ⟨c, hc, -⟩ := h.position_eq_ok.1 hp
  rw [columns_getElem?] at hc
  exact (Option.map_eq_some_iff.1 hc).imp fun _ => And.left

omit [Tabular σ] in
/-- An action on the source makes a table advance. -/
theorem advances_onSource {α : Type} (x : Access σ α) : t.Advances ((onSource x).on t).2 :=
  advances_of_slots_eq rfl rfl rfl

omit [Tabular σ] in
/-- Counting a hit makes a table advance. -/
theorem advances_countHit : t.Advances t.countHit := advances_of_slots_eq rfl rfl rfl

include hP hv ht

/-- Materializing a computed column makes a table advance. -/
theorem advances_materializeAt {p : Nat} {c : Column} (hc : columns[p]? = some c)
    (hcomputed : c.isComputed) :
    t.Advances ((materializeAt p).on t).2 := by
  cases hcached : t.cached? p with
  | some e =>
      rw [on_materializeAt_of_cached hcached]
      exact advances_countHit
  | none =>
      have hopen := isOpen_of_cached? (ht.2.symm ▸ hc) hcomputed hcached
      obtain ⟨e, t', hon, hexactly⟩ :=
        exists_on_materializeAt hP hv (ht.2 ▸ ht.1.wellFormed.describes) ht hopen
      rw [hon]
      exact hexactly.advances

/-- Materializing everything makes a table advance. -/
theorem advances_materializeAll : t.Advances (materializeAll.on t).2 := by
  obtain ⟨t', hon, hexactly, -⟩ :=
    exists_on_materializeAll hP hv (ht.2 ▸ ht.1.wellFormed.describes) ht
  rw [hon]
  exact hexactly.advances

/-- Materializing by name makes a table advance. -/
theorem advances_materialize (name : String) : t.Advances ((materialize name).on t).2 := by
  by_cases hname : name = ""
  · rw [hname, materialize_empty, on_bind_pure_snd]
    exact advances_materializeAll hP hv ht
  · cases hp : t.position name with
    | error e =>
        rw [on_materialize_of_error hname hp]
        exact .refl t
    | ok p =>
        obtain ⟨slot, hslot⟩ := exists_slot?_of_position ht.1.wellFormed.describes hp
        cases hcomputed : slot.column.isComputed with
        | false =>
            rw [on_materialize_of_stored hname hp hslot hcomputed]
            exact .refl t
        | true =>
            rw [on_materialize_of_isComputed hname hp hslot hcomputed, on_bind_pure_snd]
            exact advances_materializeAt hP hv ht
              (ht.2 ▸ columns_getElem?_of_slot? hslot) hcomputed

/-- Reading a cell makes a table advance. -/
theorem advances_readCell (row column : Nat) :
    t.Advances ((readCell row column).on t).2 := by
  rcases Nat.lt_or_ge row (Tabular.rowCount t.source) with hrow | hrow
  · cases hslot : t.slot? column with
    | none =>
        rw [on_readCell_of_none hrow hslot]
        exact .refl t
    | some slot =>
        rcases slot.stored_or_cached_or_isOpen with
          ⟨i, hcontent⟩ | ⟨hcomputed, e, hcached⟩ | hopen
        · rw [on_readCell_of_stored hrow hslot hcontent]
          exact advances_onSource _
        · rw [on_readCell_of_cached hrow hslot hcomputed hcached]
          exact advances_countHit
        · obtain ⟨hcomputed, hcached⟩ := Slot.isOpen_iff.1 hopen
          rw [on_readCell_of_open hrow hslot hcomputed hcached, on_bind_pure_snd]
          exact advances_materializeAt hP hv ht
            (ht.2 ▸ columns_getElem?_of_slot? hslot) hcomputed
  · rw [on_readCell_of_row_le hrow]
    exact .refl t

/-- Reading a column makes a table advance. -/
theorem advances_readColumn (column : Nat) : t.Advances ((readColumn column).on t).2 := by
  cases hslot : t.slot? column with
  | none =>
      rw [on_readColumn_of_none hslot]
      exact .refl t
  | some slot =>
      rcases slot.stored_or_cached_or_isOpen with
        ⟨i, hcontent⟩ | ⟨hcomputed, e, hcached⟩ | hopen
      · rw [on_readColumn_of_stored hslot hcontent]
        exact advances_onSource _
      · rw [on_readColumn_of_cached hslot hcomputed hcached]
        exact .refl t
      · obtain ⟨hcomputed, hcached⟩ := Slot.isOpen_iff.1 hopen
        rw [on_readColumn_of_open hslot hcomputed hcached, on_bind_pure_snd]
        exact advances_materializeAt hP hv ht
          (ht.2 ▸ columns_getElem?_of_slot? hslot) hcomputed

/-- A row is read cell by cell. -/
theorem advances_readRow (row : Nat) :
    t.Advances ((Tabular.readRow row : Access (ComputedTable σ) (List Cell)).on t).2 := by
  have hcell : ∀ column,
      Keeps (fun u => u.ReadyFor P v columns ∧ t.Advances u) (readCell row column)
      fun _ => True := by
    intro column u hu
    refine ⟨⟨((kept_faithful hP columns).keeps_readCell row column u hu.1).1, ?_⟩,
      fun _ _ => trivial⟩
    exact hu.2.trans (advances_readCell hP hv hu.1 row column)
  have hrow : Keeps (fun u => u.ReadyFor P v columns ∧ t.Advances u)
      (Tabular.readRow row : Access (ComputedTable σ) (List Cell)) fun _ => True := by
    refine keeps_get.bind fun t _ => ?_
    refine (keeps_ofExcept (Q := fun _ => True) fun _ _ => trivial).bind fun _ _ => ?_
    refine keeps_get.bind fun t₁ _ => ?_
    exact (Keeps.mapM fun column _ => hcell column).imp fun _ _ => trivial
  exact (hrow t ⟨ht, .refl t⟩).1.2

/-- **A request only makes results known**, whether it succeeds or fails. -/
theorem advances_perform {op : Operation} (hop : op.isRequest) :
    t.Advances (op.perform.on t).2 := by
  cases op with
  | materialize name => exact advances_materialize hP hv ht name
  | materializeAll =>
      rw [Operation.perform, on_bind_pure_snd]
      exact advances_materializeAll hP hv ht
  | readCell row column =>
      rw [Operation.perform, on_bind_pure_snd]
      exact advances_readCell hP hv ht row column
  | readCellError row column =>
      rw [Operation.perform, on_bind_pure_snd, readCellError, on_bind_pure_snd]
      exact advances_readCell hP hv ht row column
  | readRow row =>
      rw [Operation.perform, on_bind_pure_snd]
      exact advances_readRow hP hv ht row
  | readColumn column =>
      rw [Operation.perform, on_bind_pure_snd]
      exact advances_readColumn hP hv ht column
  | _ => cases hop

end

/-! ### The counter -/

/-- An edit makes no result known. -/
theorem Edited.mem_of_isSome (h : t.Edited t') {slot : Slot} (hslot : slot ∈ t'.slots)
    (hsome : slot.cached.isSome) : slot ∈ t.slots := by
  obtain ⟨e, he⟩ := Option.isSome_iff_exists.1 hsome
  cases h with
  | unchanged => exact hslot
  | added c g hsource hg =>
      rcases List.mem_append.1 hslot with hslot | hslot
      · exact hslot
      · rw [List.mem_singleton.1 hslot] at he
        cases he
  | replaced p c c' g hc hname hsource hkind hg =>
      obtain ⟨q, -, -, hget⟩ := exists_of_mem_replaced hslot he
      exact List.mem_of_getElem? hget
  | removed p c g hc hsource hg => exact List.mem_of_mem_eraseIdx hslot

/-- An edit counts no evaluations. -/
theorem Edited.evaluations_eq (h : t.Edited t') : t'.evaluations = t.evaluations := by
  cases h <;> rfl

omit [Tabular σ] in
/-- What is forgotten was there. -/
theorem mem_of_mem_forget {p : Nat} {slot : Slot} (hslot : slot ∈ (t.forget p).slots)
    (hsome : slot.cached.isSome) : slot ∈ t.slots := by
  rcases mem_modify hslot with hslot | ⟨old, -, rfl⟩
  · exact hslot
  · cases hsome

omit [Tabular σ] in
/-- To forget a result is to forget one at a position, if the column is there. -/
theorem unmaterialize_snd (name : String) :
    ((unmaterialize name).on t).2 = t ∨ ∃ p,
      ((unmaterialize name).on t).2 = t.forget p := by
  rw [unmaterialize, on_get_bind]
  cases t.position name with
  | error e => exact .inl rfl
  | ok p => exact .inr ⟨p, rfl⟩

variable {P : σ → Prop} {v : View}

/-- **The counter after each operation**: what came to be known is added, unless the
counters are reset. -/
theorem evaluations_perform (hP : Shows P v) (hv : v.Complete) (h : t.Faithful P v)
    (op : Operation) :
    (op.perform.on t).2.evaluations = op.count t.evaluations
      (t.newlyKnown (op.perform.on t).2) := by
  have hunchanged : t.evaluations = t.evaluations + t.newlyKnown t := by
    rw [newlyKnown_eq_zero fun _ hslot _ => hslot, Nat.add_zero]
  by_cases hop : op.isRequest
  · have hledger :=
      (advances_perform hP hv ⟨h, rfl⟩ hop).evaluations_eq h.wellFormed.describes.nodup
    cases op <;> first | exact hledger | cases hop
  · cases op with
    | edit e =>
        have hedit := perform_edit h.wellFormed.describes e
        show ((Operation.edit e).perform.on t).2.evaluations =
          t.evaluations + t.newlyKnown _
        rw [hedit.evaluations_eq, newlyKnown_eq_zero fun _ => hedit.mem_of_isSome,
          Nat.add_zero]
    | unmaterialize name =>
        show ((Operation.unmaterialize name).perform.on t).2.evaluations =
          t.evaluations + t.newlyKnown _
        rw [Operation.perform, on_bind_pure_snd]
        rcases unmaterialize_snd (t := t) name with hon | ⟨p, hon⟩
        · rw [hon]
          exact hunchanged
        · rw [hon, newlyKnown_eq_zero fun _ => mem_of_mem_forget]
          rfl
    | release =>
        have hnone : ∀ slot ∈ t.release.slots, slot.cached.isSome → slot ∈ t.slots := by
          intro slot hslot hsome
          obtain ⟨old, -, rfl⟩ := List.mem_map.1 hslot
          cases hsome
        show t.evaluations = t.evaluations + t.newlyKnown t.release
        rw [newlyKnown_eq_zero hnone, Nat.add_zero]
    | resetStatistics => rfl
    | _ => exact absurd rfl hop

/-- What the counter of evaluations stands at after a run, if it stood at `n`: the number of
results that came to be known since the counters were last reset. -/
def tally (t : ComputedTable σ) (n : Nat) : List Operation → Nat
  | [] => n
  | op :: ops =>
    let t' := (op.performInPlace.on t).2
    t'.tally (op.count n (t.newlyKnown t')) ops

/-- The evaluations of a run are those of its tally. -/
theorem evaluations_runInPlace (hP : Shows P v) (hv : v.Complete) (h : t.Faithful P v)
    (ops : List Operation) :
    (t.runInPlace ops).evaluations = t.tally t.evaluations ops := by
  induction ops generalizing t with
  | nil => rfl
  | cons op ops ih =>
      have hstep := evaluations_perform hP hv h op
      rw [tally, on_performInPlace h.wellFormed.describes, ← hstep, ← ih (h.perform hP op)]
      exact congrArg (fun u => (runInPlace u ops).evaluations)
        (on_performInPlace h.wellFormed.describes op)

end ComputedTable

end FormulaTable
