import FormulaTable.Computation.InPlace
import FormulaTable.Proofs.Computation.Inputs

/-!
# Failures are contained in their rows

Once the arrays of a computation are accepted, nothing that a row does can stop the run or
reach another row. This holds although a run in place reads every row into the values of the
row before: a row is evaluated only when all of these are overwritten, and a row that cannot
be read to its end is not evaluated at all. A row holds its own result, or the marker for
its own failure.

* `readRowInto_eq`, `evaluateInPlace_eq` — what is left of earlier rows makes no difference.
* `contained` — when a run succeeds, and what each row holds after it.
-/

namespace FormulaTable.Computation

variable {c : Computation} {columns : List Series} {row rows : Nat}

/-! ### One row in place -/

/-- With a value for each array, a row is read as it is by itself: either all values are
overwritten, or the same cell stops the reading. -/
theorem readRowInto_eq {arrays : List (String × Series)} {values : List Value}
    (h : values.length = arrays.length) :
    (readRowInto row arrays values).2.length = arrays.length ∧
      (arrays.mapM fun (name, s) => readInput row name s) =
        (readRowInto row arrays values).1.map fun _ =>
          (readRowInto row arrays values).2 := by
  induction arrays generalizing values with
  | nil =>
      obtain rfl := List.length_eq_zero_iff.1 h
      exact ⟨rfl, rfl⟩
  | cons a arrays ih =>
      obtain ⟨name, s⟩ := a
      cases values with
      | nil => cases h
      | cons value values =>
          obtain ⟨hlength, hread⟩ := ih (Nat.succ.inj h)
          rw [readRowInto, List.mapM_cons, hread]
          dsimp only
          cases readInput row name s with
          | error e => exact ⟨h, rfl⟩
          | ok v =>
              refine ⟨congrArg Nat.succ hlength, ?_⟩
              dsimp only
              cases (readRowInto row arrays values).1 <;> rfl

/-- The message of a result that is a failure, with its row. -/
def messageOf? (result : Except RowError Value) (row : Nat) : Option (Nat × String) :=
  (failure? result).map fun message => (row, message)

/-- Whatever is left in the list, the next row is evaluated as it is by itself. -/
theorem evaluateNext_eq {p : Progress}
    (h : p.values.length = (c.inputs.zip columns).length) :
    c.evaluateNext columns p row =
      (p.builder.append (c.stored (c.evalRow columns row))).map fun b =>
        ⟨b, p.errors ++ (messageOf? (c.evalRow columns row) row).toList,
          (readRowInto row (c.inputs.zip columns) p.values).2⟩ := by
  have hrow : c.evalRow columns row = (do
      (readRowInto row (c.inputs.zip columns) p.values).1
      (← c.program.eval (readRowInto row (c.inputs.zip columns) p.values).2).convert
        c.kind) := by
    rw [evalRow, readRow, (readRowInto_eq h).2]
    cases (readRowInto row (c.inputs.zip columns) p.values).1 <;> rfl
  rw [evaluateNext]
  simp only [← hrow]
  cases c.evalRow columns row with
  | ok v =>
      simp only [stored, messageOf?, failure?, Option.map_none, Option.toList_none,
        List.append_nil]
      cases p.builder.append v <;> rfl
  | error e =>
      simp only [stored, messageOf?, failure?, Option.map_some, Option.toList_some]
      cases p.builder.append (c.config.marker e.message c.kind) <;> rfl

/-! ### All rows in place -/

/-- A run over some rows appends what is stored for each of them, and notes those that
failed. -/
theorem foldlM_evaluateNext_eq (numbers : List Nat) {p : Progress}
    (h : p.values.length = (c.inputs.zip columns).length) :
    ((numbers.foldlM (c.evaluateNext columns) p).map fun p => (p.builder, p.errors)) =
      ((numbers.map fun row => c.stored (c.evalRow columns row)).foldlM SeriesBuilder.append
          p.builder).map
        fun b => (b, p.errors ++ numbers.filterMap fun row =>
              messageOf? (c.evalRow columns row) row) := by
  induction numbers generalizing p with
  | nil =>
      exact congrArg (fun errors => Except.ok (p.builder, errors))
        (List.append_nil p.errors).symm
  | cons row numbers ih =>
      rw [List.foldlM_cons, List.map_cons, List.foldlM_cons, evaluateNext_eq h]
      cases p.builder.append (c.stored (c.evalRow columns row)) with
      | error e => rfl
      | ok b =>
          refine (ih ((readRowInto_eq h).1)).trans ?_
          rw [List.filterMap_cons]
          cases messageOf? (c.evalRow columns row) row with
          | none => simp only [Option.toList_none, List.append_nil]; rfl
          | some m =>
              simp only [Option.toList_some, List.append_assoc, List.singleton_append]; rfl

/-- The messages of a run are those of its rows. -/
theorem messages_eq (results : Nat → Except RowError Value) (rows : Nat) :
    messages ((List.range rows).map results) =
      (List.range rows).filterMap fun row => messageOf? (results row) row := by
  have hnumbered : ((List.range rows).map results).zipIdx =
      (List.range rows).map fun row => (results row, row) := by
    refine List.ext_getElem? fun row => ?_
    rw [List.getElem?_zipIdx, List.getElem?_map, List.getElem?_map, Nat.zero_add]
    cases hrow : (List.range rows)[row]? with
    | none => rfl
    | some i =>
        obtain ⟨-, rfl⟩ := List.getElem?_eq_some_iff.1 hrow
        rw [List.getElem_range]
        rfl
  rw [messages, hnumbered, List.filterMap_map]
  refine List.filterMap_congr fun row _ => ?_
  rw [Function.comp_apply, messageOf?]
  cases results row <;> rfl

/-- **One list of values for all rows** makes no difference: a run in place gives what the
rows give by themselves. -/
theorem evaluateInPlace_eq (c : Computation) (columns : List Series) (rows : Nat) :
    c.evaluateInPlace columns rows = c.evaluateRows columns rows := by
  rw [evaluateInPlace, evaluateRows]
  cases hcheck : c.checkInputs columns rows with
  | error e => rfl
  | ok _ =>
      have hlength := (checkInputs_eq_ok.1 hcheck).length_eq
      have hvalues : (columns.map fun _ => Value.null).length =
          (c.inputs.zip columns).length := by
        rw [List.length_map, List.length_zip, hlength, Nat.min_self]
      have hparts (x : Except Error Progress) :
          (x >>= fun p => pure ⟨p.builder.finish, p.errors⟩ : Except Error Evaluated) =
            (x.map fun p => (p.builder, p.errors)) >>=
              fun built => pure ⟨built.1.finish, built.2⟩ := by
        cases x <;> rfl
      show (List.foldlM _ _ _ >>= _) = (Series.ofValues c.kind _ >>= _)
      rw [hparts, foldlM_evaluateNext_eq (List.range rows) hvalues, messages_eq,
        Series.ofValues, List.map_map, Function.comp_def]
      cases ((List.range rows).map _).foldlM SeriesBuilder.append _ <;> rfl

/-! ### What a row holds -/

/-- A row is evaluated from the cells of its inputs alone. -/
theorem evalRow_eq_of_cells {columns' : List Series} {row' : Nat}
    (h : List.Forall₂ (fun s s' => s.value? row = s'.value? row') columns columns') :
    c.evalRow columns row = c.evalRow columns' row' := by
  have hread : c.readRow columns row = c.readRow columns' row' :=
    mapM_zip_congr (h.imp fun s s' hs _ => by simp only [readInput, hs]) c.inputs
  rw [evalRow, evalRow, hread]

/-- What the run of a computation gives, row by row. -/
structure RowByRow (c : Computation) (columns : List Series) (rows : Nat) (e : Evaluated) :
    Prop where
  size_eq : e.series.size = rows
  type_eq : e.series.type = c.kind.elementType
  /-- A row that can be read, computed and converted holds the value, and has no message. -/
  value : ∀ row < rows, ∀ values v w, c.readRow columns row = .ok values →
    c.program.eval values = .ok v →
    v.convert c.kind = .ok w → e.series.value? row = some w ∧ e.error? row = none
  /-- Any other row has the message of what failed first, and holds the marker for it. -/
  marker : ∀ row < rows, ∀ err,
    (c.readRow columns row = .error err ∨ ∃ values, c.readRow columns row = .ok values ∧
      (c.program.eval values = .error err ∨
        ∃ v, c.program.eval values = .ok v ∧ v.convert c.kind = .error err)) →
    e.series.value? row = some (c.config.marker err.message c.kind) ∧
      e.error? row = some err.message
  /-- The marker among texts repeats the message, and there is none among truth values. -/
  marker_string : c.kind = .string → ∀ row < rows, ∀ message, e.error? row = some message →
    e.series.value? row = some (.text (c.config.errorLabel ++ message))
  marker_bool : c.kind = .bool → ∀ row < rows, ∀ message, e.error? row = some message →
    e.series.value? row = some .null
  /-- Null without a message is the null that the program gave. -/
  null : ∀ row < rows, e.series.value? row = some .null → e.error? row = none →
    c.valueOn columns row = .ok .null
  /-- No other rows have messages. -/
  errors_lt : ∀ p ∈ e.errors, p.1 < rows
  /-- A row depends on the cells of its inputs alone: in any run it holds the same where
  they are the same. -/
  eq_of_cells : ∀ columns' rows' e' row row', c.evaluateRows columns' rows' = .ok e' →
    row < rows →
    row' < rows' →
    List.Forall₂ (fun s s' => s.value? row = s'.value? row') columns columns' →
    e'.series.value? row' = e.series.value? row ∧ e'.error? row' = e.error? row

/-- Failures are contained in their rows. -/
structure Contained (c : Computation) (columns : List Series) (rows : Nat) : Prop where
  /-- A run succeeds on one array for each input, of the given length and of a readable
  type. -/
  succeeds_iff : (∃ e, c.evaluateRows columns rows = .ok e) ↔
    columns.length = c.inputs.length ∧
    ∀ s ∈ columns, s.size = rows ∧ (s.type = .null ∨ s.type.kind?.isSome)
  /-- It makes no difference that all rows are read into one list of values. -/
  inPlace_eq : c.evaluateInPlace columns rows = c.evaluateRows columns rows
  rowByRow : ∀ e, c.evaluateRows columns rows = .ok e → c.RowByRow columns rows e

/-- What is asked of the second list alone holds one by one if the lists are of one
length. -/
theorem forall₂_right_iff {α β : Type} {P : β → Prop} {as : List α} {bs : List β} :
    List.Forall₂ (fun _ b => P b) as bs ↔ bs.length = as.length ∧ ∀ b ∈ bs, P b := by
  induction bs generalizing as with
  | nil => simp [eq_comm]
  | cons b bs ih => cases as <;> simp [ih, and_left_comm]

/-- Columns are accepted if there is one for every input, and each of them has the right
length and a type that can be read. -/
theorem accepts_iff : c.Accepts columns rows ↔ columns.length = c.inputs.length ∧
    ∀ s ∈ columns, s.size = rows ∧ (s.type = .null ∨ s.type.kind?.isSome) := by
  have hreadable (t : ElementType) : t.isReadable ↔ t = .null ∨ t.kind?.isSome := by
    rw [ElementType.isReadable, Bool.or_eq_true, decide_eq_true_eq]
  simp only [Accepts, hreadable, forall₂_right_iff]

section Rows

variable {e : Evaluated} (h : c.evaluateRows columns rows = .ok e) (hrow : row < rows)

include h hrow

/-- A row that is evaluated holds its value, with no message. -/
theorem row_of_ok {w : Value} (hw : c.evalRow columns row = .ok w) : 
    e.series.value? row = some w ∧ e.error? row = none := by
  rw [value?_evaluateRows h hrow, error?_evaluateRows h hrow, hw]
  exact ⟨rfl, rfl⟩

/-- A row that fails holds the marker, with the message. -/
theorem row_of_error {err : RowError} (herr : c.evalRow columns row = .error err) : 
    e.series.value? row = some (c.config.marker err.message c.kind) ∧
      e.error? row = some err.message := by
  rw [value?_evaluateRows h hrow, error?_evaluateRows h hrow, herr]
  exact ⟨rfl, rfl⟩

/-- A row with a message is one that failed. -/
theorem value?_of_error? {message : String} (hmessage : e.error? row = some message) :
    e.series.value? row = some (c.config.marker message c.kind) := by
  cases hres : c.evalRow columns row with
  | ok w =>
      rw [(row_of_ok h hrow hres).2] at hmessage
      cases hmessage
  | error err =>
      obtain ⟨hvalue, herror⟩ := row_of_error h hrow hres
      rw [herror] at hmessage
      cases hmessage
      exact hvalue

end Rows

/-- What is computed for some rows is computed row by row. -/
theorem rowByRow {e : Evaluated} (h : c.evaluateRows columns rows = .ok e) :
    c.RowByRow columns rows e where
  size_eq := size_evaluateRows h
  type_eq := type_evaluateRows h
  value row hrow values v w hvalues hv hw := by
    refine row_of_ok h hrow ?_
    exact bind_eq_ok.2 ⟨values, hvalues, bind_eq_ok.2 ⟨v, hv, hw⟩⟩
  marker row hrow err herr := by
    refine row_of_error h hrow ?_
    rw [evalRow, bind_eq_error]
    obtain herr | ⟨values, hvalues, herr⟩ := herr
    · exact .inl herr
    · exact .inr ⟨values, hvalues, bind_eq_error.2 herr⟩
  marker_string hkind row hrow message hmessage := by
    rw [value?_of_error? h hrow hmessage, hkind]
    rfl
  marker_bool hkind row hrow message hmessage := by
    rw [value?_of_error? h hrow hmessage, hkind]
    rfl
  null row hrow hnull hnone := by
    cases hres : c.evalRow columns row with
    | error err =>
        rw [(row_of_error h hrow hres).2] at hnone
        cases hnone
    | ok w =>
        rw [(row_of_ok h hrow hres).1] at hnull
        cases hnull
        rw [evalRow_eq_convert] at hres
        obtain ⟨v, hv, hw⟩ := bind_eq_ok.1 hres
        rw [hv, Value.eq_null_of_convert hw]
  errors_lt p hp := by
    obtain ⟨-, s, -, rfl⟩ := evaluateRows_eq_ok.1 h
    rw [messages_eq] at hp
    obtain ⟨row, hrow, hp⟩ := List.mem_filterMap.1 hp
    obtain ⟨message, -, rfl⟩ := Option.map_eq_some_iff.1 hp
    exact List.mem_range.1 hrow
  eq_of_cells columns' rows' e' row row' h' hrow hrow' hcells := by
    rw [value?_evaluateRows h hrow, error?_evaluateRows h hrow,
      value?_evaluateRows h' hrow', error?_evaluateRows h' hrow',
      evalRow_eq_of_cells hcells]
    exact ⟨rfl, rfl⟩

/-- **Failures are contained**: the computation succeeds for accepted columns, row by row,
in a buffer as well as in a list. -/
theorem contained (c : Computation) (columns : List Series) (rows : Nat) :
    c.Contained columns rows where
  succeeds_iff := by
    rw [← accepts_iff]
    constructor
    · rintro ⟨e, he⟩
      exact (evaluateRows_eq_ok.1 he).1
    · exact exists_evaluateRows_eq_ok
  inPlace_eq := evaluateInPlace_eq c columns rows
  rowByRow _ := rowByRow

end FormulaTable.Computation
