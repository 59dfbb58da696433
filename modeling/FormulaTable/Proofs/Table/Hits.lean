import FormulaTable.Proofs.Table.Ledger

/-!
# The counter of hits

The counter of hits goes up when a cell of a computed column is read whose result is kept.
It goes up as well when a kept result is asked for by the name of its column: that request
and the first read of a cell go through the same action, and it is this action that counts.
Nothing else moves the counter, apart from a reset.

* `hits_readCell`, `hits_readRow` — reads count the cells whose columns are known when their
  turn comes.
* `hits_perform` — the counter after each operation.
* `accountsHits_create` — the counter after a run; it tells of reads alone exactly if no
  kept result was asked for.
-/

namespace FormulaTable

/-- The cells that an operation reads, by row and column, from left to right. -/
def Operation.cells {σ : Type} (t : ComputedTable σ) : Operation → List (Nat × Nat)
  | readCell row column => [(row, column)]
  | readCellError row column => [(row, column)]
  | readRow row => (List.range t.columns.length).map (row, ·)
  | _ => []

/-- Two numbers may be added up together. -/
theorem Operation.count_add (op : Operation) (m n k l : Nat) :
    op.count (m + n) (k + l) = op.count m k + op.count n l := by
  cases op with
  | resetStatistics => rfl
  | _ => exact Nat.add_add_add_comm m n k l

namespace ComputedTable

open Access

variable {σ : Type} {t t' : ComputedTable σ}

/-- The column at a position is computed, and a result is kept for it. -/
def isKnown (t : ComputedTable σ) (p : Nat) : Bool :=
  (t.slot? p).any fun slot => slot.column.isComputed && slot.cached.isSome

/-- Does the operation ask for a result that is kept, by the name of its column? -/
def asksForKnown (t : ComputedTable σ) : Operation → Bool
  | .materialize name =>
    !name.isEmpty && match t.position name with
      | .ok p => t.isKnown p
      | .error _ => false
  | _ => false

/-- A position is known if its column is computed and a result is kept for it. -/
theorem isKnown_of_slot? {p : Nat} {slot : Slot} (hslot : t.slot? p = some slot) :
    t.isKnown p = (slot.column.isComputed && slot.cached.isSome) := by
  rw [isKnown, hslot]
  rfl

/-- A position with a kept result is known. -/
theorem isKnown_of_cached {p : Nat} {slot : Slot} {e : Evaluated}
    (hslot : t.slot? p = some slot) (hcomputed : slot.column.isComputed)
    (hcached : slot.cached = some e) : t.isKnown p = true := by
  rw [isKnown_of_slot? hslot, hcomputed, hcached]
  rfl

/-- A position without a kept result is not known. -/
theorem isKnown_of_open {p : Nat} {slot : Slot} (hslot : t.slot? p = some slot)
    (hcached : slot.cached = none) :
    t.isKnown p = false := by
  rw [isKnown_of_slot? hslot, hcached]
  exact Bool.and_false _

/-- A stored column has nothing to be known. -/
theorem isKnown_of_stored {p : Nat} {slot : Slot} (hslot : t.slot? p = some slot)
    (hstored : slot.column.isComputed = false) : t.isKnown p = false := by
  rw [isKnown_of_slot? hslot, hstored]
  rfl

/-- No position beyond the last one is known. -/
theorem isKnown_of_none {p : Nat} (hslot : t.slot? p = none) : t.isKnown p = false := by
  rw [isKnown, hslot]
  rfl

/-- An edit counts no hits. -/
theorem Edited.hits_eq [Tabular σ] (h : t.Edited t') : t'.hits = t.hits := by
  cases h <;> rfl

variable [Tabular σ]

/-- A cell is a hit if it is there, and in a computed column whose result is kept. -/
def isHit (t : ComputedTable σ) (cell : Nat × Nat) : Bool :=
  decide (cell.1 < Tabular.rowCount t.source) && t.isKnown cell.2

/-- The number of hits among some cells, each of which is read from the table that the one
before it leaves, up to the first that cannot be read. -/
def hitsAmong (t : ComputedTable σ) : List (Nat × Nat) → Nat
  | [] => 0
  | cell :: cells =>
    (t.isHit cell).toNat + match (readCell cell.1 cell.2).on t with
      | (.ok _, t') => t'.hitsAmong cells
      | (.error _, _) => 0

/-! ### Evaluation counts no hits -/

section

variable {n : Nat}

/-- Reading an input counts no hits. -/
theorem keeps_hits_readInput (reader : Column) (input : String) :
    Keeps (fun t : ComputedTable σ => t.hits = n) (readInput reader input)
      fun _ => True := by
  intro t ht
  obtain ⟨⟨s, hs⟩, -⟩ := keeps_readInput_source t reader input t ⟨t.source, rfl⟩
  exact ⟨hs ▸ ht, fun _ _ => trivial⟩

/-- Evaluating a column counts no hits. -/
theorem keeps_hits_evaluateColumn (c : Column) :
    Keeps (fun t : ComputedTable σ => t.hits = n) (evaluateColumn c) fun _ => True := by
  rw [evaluateColumn]
  cases c.computation? with
  | none => exact keeps_throw _
  | some x =>
      refine (Keeps.mapM fun input _ => keeps_hits_readInput c input).bind
        fun inputs _ => ?_
      refine (keeps_modify (f := countEvaluation) fun _ ht => ht).bind fun _ _ => ?_
      exact keeps_get.bind fun t _ => keeps_ofExcept fun _ _ => trivial

/-- Filling a position counts no hits. -/
theorem keeps_hits_fill (p : Nat) :
    Keeps (fun t : ComputedTable σ => t.hits = n) (fill p) fun _ => True := by
  refine keeps_get.bind fun t _ => ?_
  cases t.slot? p with
  | none => exact keeps_pure trivial
  | some slot =>
      show Keeps _ (if slot.column.isComputed && slot.cached.isNone then _ else _) _
      split
      case isFalse => exact keeps_pure trivial
      case isTrue =>
        refine (keeps_hits_evaluateColumn slot.column).bind fun e _ => ?_
        exact (keeps_modify fun _ ht => ht).bind fun _ _ => keeps_pure trivial

/-- Filling several positions counts no hits. -/
theorem keeps_hits_fillAll (ps : List Nat) :
    Keeps (fun t : ComputedTable σ => t.hits = n) (fillAll ps) fun _ => True :=
  (Keeps.mapM fun p _ => keeps_hits_fill p).bind fun _ _ => keeps_pure trivial

end

/-- Materializing everything counts no hits. -/
theorem hits_materializeAll : (materializeAll.on t).2.hits = t.hits :=
  ((keeps_get (I := fun u : ComputedTable σ => u.hits = t.hits)).bind
    fun u _ => keeps_hits_fillAll u.graph.order) t rfl |>.1

/-- A column whose result is not kept is evaluated without a hit. -/
theorem hits_materializeAt_of_open {p : Nat} (hcached : t.cached? p = none) :
    ((materializeAt p).on t).2.hits = t.hits := by
  rw [materializeAt, on_get_bind, hcached]
  refine (show Keeps (fun u : ComputedTable σ => u.hits = t.hits) _ fun _ => True from
    keeps_get.bind fun u _ => ?_) t rfl |>.1
  refine (keeps_hits_fillAll _).bind fun _ _ => keeps_get.bind fun u _ => ?_
  cases u.cached? p with
  | some e => exact keeps_pure trivial
  | none => exact keeps_get.bind fun _ _ => keeps_throw _

/-! ### Reads -/

/-- **Reading a cell** counts if the cell is a hit, and only then. -/
theorem hits_readCell (row column : Nat) :
    ((readCell row column).on t).2.hits = t.hits + (t.isHit (row, column)).toNat := by
  rw [isHit]
  rcases Nat.lt_or_ge row (Tabular.rowCount t.source) with hrow | hrow
  · rw [decide_eq_true hrow, Bool.true_and]
    cases hslot : t.slot? column with
    | none =>
        rw [on_readCell_of_none hrow hslot, isKnown_of_none hslot]
        rfl
    | some slot =>
        rcases slot.stored_or_cached_or_isOpen with
          ⟨i, hcontent⟩ | ⟨hcomputed, e, hcached⟩ | hopen
        · have hstored : slot.column.isComputed = false := by
            rw [Column.isComputed, Column.computation?, hcontent]
            rfl
          rw [on_readCell_of_stored hrow hslot hcontent, isKnown_of_stored hslot hstored]
          rfl
        · rw [on_readCell_of_cached hrow hslot hcomputed hcached,
            isKnown_of_cached hslot hcomputed hcached]
          rfl
        · obtain ⟨hcomputed, hcached⟩ := Slot.isOpen_iff.1 hopen
          rw [on_readCell_of_open hrow hslot hcomputed hcached, on_bind_pure_snd,
            hits_materializeAt_of_open ((cached?_of_slot? hslot).trans hcached),
            isKnown_of_open hslot hcached]
          rfl
  · rw [on_readCell_of_row_le hrow, decide_eq_false (Nat.not_lt.2 hrow)]
    rfl

/-- Cells that are read one after the other count their hits. -/
theorem hits_mapM_readCell (cells : List (Nat × Nat)) :
    ((cells.mapM fun cell => readCell (σ := σ) cell.1 cell.2).on t).2.hits =
      t.hits + t.hitsAmong cells := by
  induction cells generalizing t with
  | nil => rfl
  | cons cell cells ih =>
      have hcell := hits_readCell (t := t) cell.1 cell.2
      rw [List.mapM_cons, on_bind, hitsAmong, ← Nat.add_assoc]
      cases hon : (readCell cell.1 cell.2).on t with
      | mk r t₁ =>
          rw [hon] at hcell
          cases r with
          | error e => exact hcell
          | ok c => exact (on_bind_pure_snd ..).symm ▸ hcell ▸ ih

/-- A single cell is a hit or not. -/
theorem hitsAmong_singleton (cell : Nat × Nat) :
    t.hitsAmong [cell] = (t.isHit cell).toNat := by
  rw [hitsAmong]
  cases (readCell cell.1 cell.2).on t with
  | mk r t' => cases r <;> rfl

/-- There are no hits in a row that is not there. -/
theorem hitsAmong_of_row_le {row : Nat} (hrow : Tabular.rowCount t.source ≤ row)
    (columns : List Nat) :
    t.hitsAmong (columns.map (row, ·)) = 0 := by
  cases columns with
  | nil => rfl
  | cons column columns =>
      rw [List.map_cons, hitsAmong, isHit, on_readCell_of_row_le hrow,
        decide_eq_false (Nat.not_lt.2 hrow)]
      rfl

/-- **Reading a row** counts the cells that are hits when their turn comes. -/
theorem hits_readRow (row : Nat) :
    ((Tabular.readRow row : Access (ComputedTable σ) (List Cell)).on t).2.hits =
      t.hits + t.hitsAmong ((List.range t.columns.length).map (row, ·)) := by
  rw [Tabular.readRow, on_bind_ok (on_ask _ t)]
  rcases Nat.lt_or_ge row (Tabular.rowCount t.source) with hrow | hrow
  · have hcheck : checkRow row (Tabular.rowCount t) = .ok () := checkRow_eq_ok.2 hrow
    have hcount : Tabular.columnCount t = t.columns.length := List.length_map _
    rw [on_ofExcept_bind_ok hcheck, on_bind_ok (on_ask _ t), hcount, ← hits_mapM_readCell,
      List.mapM_map]
    rfl
  · have hcheck : checkRow row (Tabular.rowCount t) = _ := checkRow_eq_error hrow
    rw [on_ofExcept_bind_error hcheck, hitsAmong_of_row_le hrow]
    rfl

/-- Reading a column counts no hits. -/
theorem hits_readColumn (column : Nat) : ((readColumn column).on t).2.hits = t.hits := by
  cases hslot : t.slot? column with
  | none => rw [on_readColumn_of_none hslot]
  | some slot =>
      rcases slot.stored_or_cached_or_isOpen with
        ⟨i, hcontent⟩ | ⟨hcomputed, e, hcached⟩ | hopen
      · rw [on_readColumn_of_stored hslot hcontent]
        rfl
      · rw [on_readColumn_of_cached hslot hcomputed hcached]
      · obtain ⟨hcomputed, hcached⟩ := Slot.isOpen_iff.1 hopen
        rw [on_readColumn_of_open hslot hcomputed hcached, on_bind_pure_snd]
        exact hits_materializeAt_of_open ((cached?_of_slot? hslot).trans hcached)

/-! ### Requests by name -/

/-- **Asking for a result by name** counts if it is kept. -/
theorem hits_materialize (ht : t.graph.Describes t.columns) (name : String) :
    ((materialize name).on t).2.hits =
      t.hits + (t.asksForKnown (.materialize name)).toNat := by
  rw [asksForKnown]
  by_cases hname : name = ""
  · rw [hname, materialize_empty, on_bind_pure_snd, hits_materializeAll]
    rfl
  · rw [Bool.eq_false_iff.2 (mt String.isEmpty_iff.1 hname), Bool.not_false, Bool.true_and]
    cases hp : t.position name with
    | error e =>
        rw [on_materialize_of_error hname hp]
        rfl
    | ok p =>
        obtain ⟨slot, hslot⟩ := exists_slot?_of_position ht hp
        show _ = t.hits + (t.isKnown p).toNat
        cases hcomputed : slot.column.isComputed with
        | false =>
            rw [on_materialize_of_stored hname hp hslot hcomputed,
              isKnown_of_stored hslot hcomputed]
            rfl
        | true =>
            rw [on_materialize_of_isComputed hname hp hslot hcomputed, on_bind_pure_snd]
            cases hcached : slot.cached with
            | some e =>
                rw [on_materializeAt_of_cached ((cached?_of_slot? hslot).trans hcached),
                  isKnown_of_cached hslot hcomputed hcached]
                rfl
            | none =>
                rw [hits_materializeAt_of_open ((cached?_of_slot? hslot).trans hcached),
                  isKnown_of_open hslot hcached]
                rfl

/-! ### The counter -/

/-- **The counter after each operation**: the hits among the cells that are read are added,
and a request for a result that is kept, unless the counters are reset. -/
theorem hits_perform (ht : t.graph.Describes t.columns) (op : Operation) :
    (op.perform.on t).2.hits =
      op.count t.hits (t.hitsAmong (op.cells t) + (t.asksForKnown op).toNat) := by
  cases op with
  | edit e => exact (perform_edit ht e).hits_eq
  | materialize name =>
      show _ = t.hits + (0 + _)
      rw [Nat.zero_add]
      exact hits_materialize ht name
  | materializeAll =>
      rw [Operation.perform, on_bind_pure_snd]
      exact hits_materializeAll
  | unmaterialize name =>
      rw [Operation.perform, on_bind_pure_snd]
      rcases unmaterialize_snd (σ := σ) (t := t) name with hon | ⟨p, hon⟩
      · rw [hon]
        rfl
      · rw [hon]
        rfl
  | release => rfl
  | resetStatistics => rfl
  | readCell row column =>
      rw [Operation.perform, on_bind_pure_snd, hits_readCell, ← hitsAmong_singleton]
      rfl
  | readCellError row column =>
      rw [Operation.perform, on_bind_pure_snd, readCellError, on_bind_pure_snd,
        hits_readCell, ← hitsAmong_singleton]
      rfl
  | readRow row =>
      rw [Operation.perform, on_bind_pure_snd]
      exact hits_readRow row
  | readColumn column =>
      rw [Operation.perform, on_bind_pure_snd]
      exact hits_readColumn column

/-- What a number that each operation has on its table comes to over a run, if it stood at
`n`: it starts again when the counters are reset. -/
def total (number : ComputedTable σ → Operation → Nat) (t : ComputedTable σ) (n : Nat) :
    List Operation → Nat
  | [] => n
  | op :: ops => total number (op.performInPlace.on t).2 (op.count n (number t op)) ops

/-- A total of sums is the sum of the totals. -/
theorem total_add (f g : ComputedTable σ → Operation → Nat) (m n : Nat)
    (ops : List Operation) :
    total (fun t op => f t op + g t op) t (m + n) ops = total f t m ops +
      total g t n ops := by
  induction ops generalizing t m n with
  | nil => rfl
  | cons op ops ih => rw [total, Operation.count_add, ih, total, total]

/-- The hits of a run are those of its reads, and one for each request of a known column. -/
theorem hits_runInPlace (ht : t.graph.Describes t.columns) (ops : List Operation) :
    (t.runInPlace ops).hits =
      total (fun t op => t.hitsAmong (op.cells t) + (t.asksForKnown op).toNat) t
        t.hits ops := by
  induction ops generalizing t with
  | nil => rfl
  | cons op ops ih =>
      have hstep := on_performInPlace ht op
      rw [total, hstep, ← hits_perform ht op, ← ih (describes_perform ht op)]
      exact congrArg (fun u => (runInPlace u ops).hits) hstep

/-- The number of hits among the cells that a run reads, since the counters were last
reset. -/
def readHits (t : ComputedTable σ) (ops : List Operation) : Nat :=
  total (fun t op => t.hitsAmong (op.cells t)) t 0 ops

/-- The number of requests for results that were kept, by name, since the counters were last
reset. -/
def repeatedRequests (t : ComputedTable σ) (ops : List Operation) : Nat :=
  total (fun t op => (t.asksForKnown op).toNat) t 0 ops

/-- What the counter of hits tells about the runs of a table. -/
structure AccountsHits (t : ComputedTable σ) : Prop where
  hits_eq : ∀ ops, (t.runInPlace ops).hits = t.readHits ops + t.repeatedRequests ops
  /-- It tells of reads alone if no kept result is asked for by name, and only then. -/
  hits_eq_iff : ∀ ops, (t.runInPlace ops).hits = t.readHits ops ↔ t.repeatedRequests ops = 0
  /-- What reads no cell, asks for no kept result and is no reset leaves it alone. -/
  silent : ∀ (ops : List Operation) (op : Operation), op.cells (t.runInPlace ops) = [] →
    (t.runInPlace ops).asksForKnown op = false → op ≠ .resetStatistics →
      (t.runInPlace (ops ++ [op])).hits = (t.runInPlace ops).hits

/-- **The counter of hits** after any run of a new table. -/
theorem accountsHits_create {s : σ} {registry : Registry} {config : Config}
    (h : create s registry config = .ok t) : t.AccountsHits := by
  have hhits : t.hits = 0 := by
    obtain ⟨-, g, -, rfl⟩ := create_eq_ok.1 h
    rfl
  have heq : ∀ ops, (t.runInPlace ops).hits = t.readHits ops + t.repeatedRequests ops := by
    intro ops
    rw [hits_runInPlace (wellFormed_of_create h).describes, hhits]
    exact total_add _ _ 0 0 ops
  refine ⟨heq, fun ops => ?_, fun ops op hcells hasks hreset => ?_⟩
  · rw [heq ops]
    exact Nat.add_eq_left
  · have hdescribes := describes_runInPlace h ops
    rw [runInPlace, List.foldl_append]
    show (op.performInPlace.on (t.runInPlace ops)).2.hits = _
    rw [on_performInPlace hdescribes, hits_perform hdescribes, hcells, hasks]
    cases op with
    | resetStatistics => exact absurd rfl hreset
    | _ => rfl

/-- The counter of hits goes up although no cell is read: the second request finds the
result that the first one made known. -/
theorem hits_without_reads :
    create BaseTable.singleColumn .standard .standard = .ok (singleColumn .standard) ∧
      ¬ ∀ ops, ((singleColumn .standard).runInPlace ops).hits =
        (singleColumn .standard).readHits ops := by
  refine ⟨create_singleColumn rfl, fun h => ?_⟩
  have hrun :=
    h [.edit (.add "b" (.applied .add "a" 1 .standard)), .materialize "b", .materialize "b"]
  exact absurd (show (1 : Nat) = 0 from hrun) Nat.one_ne_zero

/-- The runs of the table over one stored column. -/
theorem accountsHits_singleColumn :
    create BaseTable.singleColumn .standard .standard = .ok (singleColumn .standard) ∧
      (singleColumn .standard).AccountsHits := by
  have hcreate : create BaseTable.singleColumn .standard .standard =
      .ok (singleColumn .standard) :=
    create_singleColumn rfl
  exact ⟨hcreate, accountsHits_create hcreate⟩

/-- Two cells of a column that is first read, then asked for by its name. -/
example : ((singleColumn .standard).runInPlace
    [.edit (.add "b" (.applied .add "a" 1 .standard)), .readRow 0, .readCell 0 1,
      .materialize "b"]).hits = 2 :=
  rfl

end ComputedTable

end FormulaTable
