import FormulaTable.Computation.Evaluation
import FormulaTable.Proofs.Result
import FormulaTable.Table.Cell

/-!
# What a run of a computation gives

A run succeeds exactly when there is one column for each input, of the given length and of a
type that formulas read; no row can make it fail, because a converted value and a stand-in
are both of the kind of the result. The rows do not depend on each other.

* `ofValues_eq_ok` — when values make a column, and what the column holds.
* `evaluateRows_eq_ok` — when a run succeeds.
* `value?_evaluateRows`, `error?_evaluateRows` — what is stored in a row and noted for it.
-/

namespace FormulaTable

/-! ### Kinds of values -/

/-- The value is null or of the kind. -/
def Value.HasKind (v : Value) (k : Kind) : Prop := v = .null ∨ v.kind? = some k

/-- A column of a kind takes null and the values of the kind. -/
theorem Kind.isSome_store? {k : Kind} {v : Value} : (k.store? v).isSome ↔ v.HasKind k := by
  rw [Value.HasKind]
  cases k <;> cases v <;> simp [Kind.store?, Value.kind?]

/-- A conversion gives a value of its target kind. -/
theorem Value.hasKind_of_convert {v w : Value} {k : Kind} (h : v.convert k = .ok w) :
    w.HasKind k := by
  rw [Value.convert] at h
  split at h
  case isTrue hsame =>
    cases h
    refine hsame.imp_left fun hnull => ?_
    cases v with
    | null => rfl
    | _ => cases hnull
  case isFalse =>
    split at h
    case h_2 => cases h
    case h_1 w' hw =>
      cases h
      refine .inr ?_
      cases k <;> cases v <;>
        simp only [Value.convert?, Value.toInt64?, Value.toFloat64?, Value.toBool?,
          Value.toDate?, Value.toTimestamp?, Option.map_eq_some_iff, Option.some.injEq,
          reduceCtorEq] at hw <;>
        obtain ⟨_, _, rfl⟩ := hw <;> rfl

/-- A conversion makes null of nothing but null. -/
theorem Value.eq_null_of_convert {v : Value} {k : Kind} (h : v.convert k = .ok .null) :
    v = .null := by
  rw [Value.convert] at h
  split at h
  case isTrue => exact Except.ok.inj h
  case isFalse =>
    split at h
    case h_2 => cases h
    case h_1 w hw =>
      cases h
      cases k <;> cases v <;>
        simp [Value.convert?, Value.toInt64?, Value.toFloat64?, Value.toBool?,
          Value.toDate?, Value.toTimestamp?] at hw

/-- A value of the target kind is converted to itself. -/
theorem Value.convert_of_hasKind {v : Value} {k : Kind} (h : v.HasKind k) :
    v.convert k = .ok v := by
  rw [convert, if_pos]
  refine h.imp_left fun hnull => ?_
  rw [hnull]
  rfl

/-- The stand-in for a failure is of the kind of its column. -/
theorem Config.hasKind_marker (c : Config) (message : String) (k : Kind) :
    (c.marker message k).HasKind k := by
  cases k with
  | bool => exact .inl rfl
  | _ => exact .inr rfl

/-! ### Columns of values -/

/-- Appending succeeds exactly for the values that can be stored. -/
theorem SeriesBuilder.foldlM_append_eq_ok {k : Kind}
    {cells : Array (Option k.elementType.Carrier)} {values : List Value}
    {b : SeriesBuilder} :
    values.foldlM append ⟨k, cells⟩ = .ok b ↔
      ∃ more, List.Forall₂ (fun v cell => k.store? v = some cell) values more ∧
        b = ⟨k, cells ++ more.toArray⟩ := by
  induction values generalizing cells with
  | nil =>
      simp only [List.foldlM_nil, List.forall₂_nil_left_iff]
      constructor
      · rintro ⟨⟩
        exact ⟨[], rfl, by simp⟩
      · rintro ⟨_, rfl, rfl⟩
        simp [pure, Except.pure]
  | cons v values ih =>
      rw [List.foldlM_cons, bind_eq_ok]
      simp only [List.forall₂_cons_left_iff]
      constructor
      · rintro ⟨b₁, hb₁, h⟩
        rw [append] at hb₁
        split at hb₁
        case h_2 => cases hb₁
        case h_1 cell hcell =>
          cases hb₁
          obtain ⟨more, hmore, rfl⟩ := ih.1 h
          exact ⟨cell :: more, ⟨cell, more, hcell, hmore, rfl⟩, by simp⟩
      · rintro ⟨_, ⟨cell, more, hcell, hmore, rfl⟩, rfl⟩
        refine ⟨⟨k, cells.push cell⟩, ?_, ih.2 ⟨more, hmore, by simp⟩⟩
        simp only [append, hcell]
        rfl

namespace Series

/-- **Values make a column** exactly when each of them can be stored. -/
theorem ofValues_eq_ok {k : Kind} {values : List Value} {s : Series} :
    ofValues k values = .ok s ↔
      ∃ cells, List.Forall₂ (fun v cell => k.store? v = some cell) values cells ∧
        s = ofCells k cells.toArray := by
  rw [ofValues, map_eq_ok, SeriesBuilder.empty]
  constructor
  · rintro ⟨b, hb, rfl⟩
    obtain ⟨cells, hcells, rfl⟩ := SeriesBuilder.foldlM_append_eq_ok.1 hb
    exact ⟨cells, hcells, by rw [Array.empty_append]; rfl⟩
  · rintro ⟨cells, hcells, rfl⟩
    refine ⟨⟨k, cells.toArray⟩,
      SeriesBuilder.foldlM_append_eq_ok.2 ⟨cells, hcells, ?_⟩, rfl⟩
    rw [Array.empty_append]

/-- Values of a kind make a column of it. -/
theorem exists_ofValues_eq_ok {k : Kind} (values : List Value)
    (h : ∀ v ∈ values, v.HasKind k) :
    ∃ s, ofValues k values = .ok s := by
  have hcells : ∃ cells,
      List.Forall₂ (fun v cell => k.store? v = some cell) values cells := by
    induction values with
    | nil => exact ⟨[], .nil⟩
    | cons v values ih =>
        obtain ⟨cells, hcells⟩ := ih fun w hw => h w (List.mem_cons_of_mem v hw)
        obtain ⟨cell, hcell⟩ :=
          Option.isSome_iff_exists.1 (Kind.isSome_store?.2 (h v List.mem_cons_self))
        exact ⟨cell :: cells, .cons hcell hcells⟩
  obtain ⟨cells, hcells⟩ := hcells
  exact ⟨_, ofValues_eq_ok.2 ⟨cells, hcells, rfl⟩⟩

section OfValues

variable {k : Kind} {values : List Value} {s : Series} (h : ofValues k values = .ok s)

include h

/-- A series of values has the type of their kind. -/
theorem type_ofValues : s.type = k.elementType := by
  obtain ⟨cells, -, rfl⟩ := ofValues_eq_ok.1 h
  rfl

/-- A series of values has as many elements as there are values. -/
theorem size_ofValues : s.size = values.length := by
  obtain ⟨cells, hcells, rfl⟩ := ofValues_eq_ok.1 h
  simp [size, ofCells, hcells.length_eq]

/-- A column of values reads back the values. -/
theorem value?_ofValues {row : Nat} {v : Value} (hv : values[row]? = some v) :
    s.value? row = some v := by
  obtain ⟨cells, hcells, rfl⟩ := ofValues_eq_ok.1 h
  obtain ⟨hrow, rfl⟩ := List.getElem?_eq_some_iff.1 hv
  have hrow' : row < cells.length := hcells.length_eq ▸ hrow
  have hcell := (List.forall₂_iff_get.1 hcells).2 row hrow hrow'
  refine value?_ofCells ?_ ?_
  · rw [List.getElem?_toArray, List.getElem?_eq_getElem hrow']
    exact hcell.symm
  · exact Option.isSome_iff_exists.2 ⟨_, hcell⟩

end OfValues

end Series

namespace Computation

variable {c : Computation} {columns : List Series} {rows : Nat}

/-! ### Rows -/

/-- What the cell of a row shows. -/
def cellOf (c : Computation) : Except RowError Value → Cell
  | .ok v => Cell.ofValue v
  | .error e => Cell.failed (c.config.marker e.message c.kind) e.message

/-- The message of a result that is a failure. -/
def failure? : Except RowError Value → Option String
  | .ok _ => none
  | .error e => some e.message

/-- The result of a row is of the kind of the computation. -/
theorem hasKind_of_evalRow {row : Nat} {v : Value} (h : c.evalRow columns row = .ok v) :
    v.HasKind c.kind := by
  obtain ⟨values, -, h⟩ := bind_eq_ok.1 h
  obtain ⟨w, -, h⟩ := bind_eq_ok.1 h
  exact Value.hasKind_of_convert h

/-- What is stored for a row is of the kind of the computation. -/
theorem hasKind_stored (row : Nat) : (c.stored (c.evalRow columns row)).HasKind c.kind := by
  cases h : c.evalRow columns row with
  | ok v => exact hasKind_of_evalRow h
  | error e => exact c.config.hasKind_marker e.message c.kind

/-- The messages of results that start at a row. -/
theorem lookup_messages (results : List (Except RowError Value)) (row start : Nat) :
    ((results.zipIdx start).filterMap fun (result, row) =>
      match result with
      | .ok _ => none
      | .error e => some (row, e.message)).lookup (start + row) =
      results[row]?.bind failure? := by
  induction results generalizing row start with
  | nil => rfl
  | cons result results ih =>
      rw [List.zipIdx_cons]
      cases row with
      | zero =>
          cases result with
          | error e => simp [failure?]
          | ok v =>
              -- No later message is about this row.
              simp only [List.filterMap_cons, Nat.add_zero, List.getElem?_cons_zero,
                Option.bind_some, failure?]
              rw [List.lookup_eq_none_iff]
              rintro ⟨row, message⟩ hmem
              obtain ⟨⟨r, i⟩, hi, hr⟩ := List.mem_filterMap.1 hmem
              have hstart := (List.mem_zipIdx hi).1
              cases r with
              | ok _ => cases hr
              | error e =>
                  cases hr
                  simp only [bne_iff_ne, ne_eq]
                  omega
      | succ row =>
          have hshift : start + (row + 1) = start + 1 + row := by omega
          cases result with
          | error e =>
              have hne : start + 1 + row ≠ start := by omega
              simp only [List.filterMap_cons, List.lookup_cons, hshift,
                beq_eq_false_iff_ne.2 hne, List.getElem?_cons_succ]
              exact ih row (start + 1)
          | ok v =>
              simp only [List.filterMap_cons, hshift, List.getElem?_cons_succ]
              exact ih row (start + 1)

/-! ### Runs -/

/-- The columns that a computation accepts: one for each input, each of the given length and
readable. -/
def Accepts (c : Computation) (columns : List Series) (rows : Nat) : Prop :=
  List.Forall₂ (fun _ s => s.size = rows ∧ s.type.isReadable) c.inputs columns

/-- An input is accepted if it has one element a row and a type that can be read. -/
theorem checkInput_eq_ok {name : String} {s : Series} :
    checkInput rows name s = .ok () ↔ s.size = rows ∧ s.type.isReadable := by
  rw [checkInput]
  split
  case isTrue hsize => simp [hsize]
  case isFalse hsize =>
    split
    case isTrue hread => simp_all
    case isFalse hread => simp_all

/-- The check of the inputs is what makes columns acceptable. -/
theorem checkInputs_eq_ok :
    c.checkInputs columns rows = .ok () ↔ c.Accepts columns rows := by
  rw [checkInputs, Accepts]
  split
  case isTrue hlen =>
    constructor
    · rintro ⟨⟩
    · exact fun h => absurd h.length_eq.symm hlen
  case isFalse hlen =>
    rw [forM_eq_ok, List.forall₂_iff_zip]
    simp only [Prod.forall, checkInput_eq_ok]
    exact ⟨fun h => ⟨(not_not.1 hlen).symm, h⟩, fun h => h.2⟩

/-- **A run succeeds** exactly on the columns that the computation accepts. -/
theorem evaluateRows_eq_ok {e : Evaluated} :
    c.evaluateRows columns rows = .ok e ↔
      c.Accepts columns rows ∧
        ∃ s, Series.ofValues c.kind
            ((List.range rows).map fun row => c.stored (c.evalRow columns row)) =
            .ok s ∧ e = ⟨s, messages ((List.range rows).map (c.evalRow columns))⟩ := by
  rw [evaluateRows, bind_eq_ok]
  constructor
  · rintro ⟨⟨⟩, hcheck, h⟩
    obtain ⟨s, hs, h⟩ := bind_eq_ok.1 h
    rw [List.map_map] at hs
    exact ⟨checkInputs_eq_ok.1 hcheck, s, hs, (Except.ok.inj h).symm⟩
  · rintro ⟨hacc, s, hs, rfl⟩
    refine ⟨(), checkInputs_eq_ok.2 hacc, bind_eq_ok.2 ⟨s, ?_, rfl⟩⟩
    rw [List.map_map]
    exact hs

/-- On accepted columns nothing can go wrong: no row makes a run fail. -/
theorem exists_evaluateRows_eq_ok (h : c.Accepts columns rows) :
    ∃ e, c.evaluateRows columns rows = .ok e := by
  obtain ⟨s, hs⟩ := Series.exists_ofValues_eq_ok
    ((List.range rows).map fun row => c.stored (c.evalRow columns row))
    (List.forall_mem_map.2 fun row _ => hasKind_stored row)
  exact ⟨_, evaluateRows_eq_ok.2 ⟨h, s, hs, rfl⟩⟩

section Success

variable {e : Evaluated} (h : c.evaluateRows columns rows = .ok e)

include h

/-- A result has as many elements as there are rows. -/
theorem size_evaluateRows : e.series.size = rows := by
  obtain ⟨-, s, hs, rfl⟩ := evaluateRows_eq_ok.1 h
  rw [Series.size_ofValues hs, List.length_map, List.length_range]

/-- A result has the type of the kind of its computation. -/
theorem type_evaluateRows : e.series.type = c.kind.elementType := by
  obtain ⟨-, s, hs, rfl⟩ := evaluateRows_eq_ok.1 h
  exact Series.type_ofValues hs

/-- A row holds its result, or the stand-in for its failure. -/
theorem value?_evaluateRows {row : Nat} (hrow : row < rows) :
    e.series.value? row = some (c.stored (c.evalRow columns row)) := by
  obtain ⟨-, s, hs, rfl⟩ := evaluateRows_eq_ok.1 h
  refine Series.value?_ofValues hs ?_
  rw [List.getElem?_map, List.getElem?_range hrow, Option.map_some]

/-- A row has a message exactly when it failed. -/
theorem error?_evaluateRows {row : Nat} (hrow : row < rows) :
    e.error? row = failure? (c.evalRow columns row) := by
  obtain ⟨-, s, -, rfl⟩ := evaluateRows_eq_ok.1 h
  have hlookup := lookup_messages ((List.range rows).map (c.evalRow columns)) row 0
  rw [Nat.zero_add] at hlookup
  refine hlookup.trans ?_
  rw [List.getElem?_map, List.getElem?_range hrow]
  rfl

end Success

end Computation

end FormulaTable
