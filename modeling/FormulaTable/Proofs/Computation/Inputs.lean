import FormulaTable.Proofs.Computation.Compile
import FormulaTable.Proofs.Computation.Evaluation
import FormulaTable.Proofs.Program.Meaning

/-!
# What a computation reads

A computation reads the arrays that are listed under the names of its inputs. A run is
refused for the first array that is not acceptable, and a row fails for the first cell that
cannot be read; otherwise a row is the meaning of the formula, with each name bound to its
cell, converted to the kind of the result. So the order of the inputs matters to nothing but
the choice among several failures.

* `Computation.valueOn_eq_meaning`, `Computation.evalRow_eq_unreadable` — the result of a
  row.
* `Computation.evaluateRows_eq_error` — when a run is refused, and why.
* `Draft.runs_of_compile` — a compiled formula runs as the formula it was read from.
-/

namespace FormulaTable

namespace Computation

/-- The arrays of a computation, each with the name of its input. -/
def arrays (x : Computation) (columns : List Series) : List (String × Series) :=
  x.inputs.zip columns

/-- The value of a column in a row of arrays; a column without an array is null. -/
def cellAt (arrays : List (String × Series)) (row : Nat) (name : String) : Value :=
  ((arrays.lookup name).bind (·.value? row)).getD .null

/-- The failures to read the cells of a row, in the order of the inputs. -/
def unreadables (x : Computation) (columns : List Series) (row : Nat) : List RowError :=
  failures (fun (name, s) => readInput row name s) (x.arrays columns)

/-- The reasons not to accept an array, in the order of the inputs. -/
def refusals (x : Computation) (columns : List Series) (rows : Nat) : List Error :=
  failures (fun (name, s) => checkInput rows name s) (x.arrays columns)

variable {x : Computation} {columns : List Series} {row rows : Nat}

/-- Reading an input gives the value in its row. -/
theorem readInput_eq_ok {name : String} {s : Series} {v : Value} :
    readInput row name s = .ok v ↔ s.value? row = some v := by
  rw [readInput]
  cases s.value? row with
  | none => exact ⟨fun h => (nomatch h), fun h => (nomatch h)⟩
  | some w =>
      exact ⟨fun h => congrArg some (Except.ok.inj h),
        fun h => congrArg Except.ok (Option.some.inj h)⟩

/-- The value of a column in a row that has been read is the value of its cell. -/
theorem valueIn_of_readRow {values : List Value} (h : x.readRow columns row = .ok values)
    (name : String) :
    Formula.valueIn x.inputs values name = cellAt (x.arrays columns) row name := by
  rw [readRow, mapM_eq_ok] at h
  rw [Formula.valueIn, cellAt, arrays]
  congr 1
  generalize x.inputs = inputs at h ⊢
  induction inputs generalizing columns values with
  | nil => rfl
  | cons input inputs ih =>
      cases columns with
      | nil =>
          cases h
          rfl
      | cons s columns =>
          rw [List.zip_cons_cons] at h
          cases h with
          | cons hv h =>
              rw [List.zip_cons_cons, List.zip_cons_cons, List.lookup_cons,
                List.lookup_cons]
              cases name == input with
              | true => exact (readInput_eq_ok.1 hv).symm
              | false => exact ih h

/-! ### Rows and runs -/

/-- The computation runs a formula: its program resolves the names of the formula to its
inputs. -/
structure Runs (x : Computation) (env : Environment) (f : Formula) : Prop where
  /-- No input is listed twice. -/
  nodup : x.inputs.Nodup
  program_eq : x.program = .ofFormula env x.inputs f

/-- A row fails for the first cell that cannot be read. -/
theorem evalRow_eq_unreadable {e : RowError}
    (h : (x.unreadables columns row).head? = some e) :
    x.evalRow columns row = .error e :=
  bind_eq_error.2 (.inl (mapM_eq_error.2 h))

/-- The value of a row, before it is converted to the kind of the result. -/
def valueOn (x : Computation) (columns : List Series) (row : Nat) : Except RowError Value :=
  do
  x.program.eval (← x.readRow columns row)

/-- A row is evaluated by converting the value of the program to the kind of the
computation. -/
theorem evalRow_eq_convert :
    x.evalRow columns row = x.valueOn columns row >>= fun v => v.convert x.kind := by
  rw [evalRow, valueOn]
  cases x.readRow columns row <;> rfl

/-- **A row is the meaning of the formula**, with each name bound to its cell. -/
theorem valueOn_eq_meaning {env : Environment} {f : Formula} (hruns : x.Runs env f)
    (hf : f.Permitted env) (h : x.unreadables columns row = []) :
    x.valueOn columns row = f.meaning env (cellAt (x.arrays columns) row) := by
  obtain ⟨values, hvalues⟩ := exists_mapM_eq_ok (failures_eq_nil.1 h)
  have hcell : Formula.valueIn x.inputs values = cellAt (x.arrays columns) row :=
    funext (valueIn_of_readRow hvalues)
  rw [valueOn, show x.readRow columns row = .ok values from hvalues,
    hruns.program_eq, ← hcell]
  exact Program.eval_ofFormula hf

/-- Where every input can be read, a row is evaluated by converting the meaning of the
formula. -/
theorem evalRow_eq_meaning {env : Environment} {f : Formula} (hruns : x.Runs env f)
    (hf : f.Permitted env) (h : x.unreadables columns row = []) :
    x.evalRow columns row = f.meaning env (cellAt (x.arrays columns) row) >>=
      fun v => v.convert x.kind := by
  rw [evalRow_eq_convert, valueOn_eq_meaning hruns hf h]

/-- With one array for each input, nothing but a refusal of an array stops a run. -/
theorem checkInputs_eq_error (hlength : columns.length = x.inputs.length) {e : Error} :
    x.checkInputs columns rows = .error e ↔ (x.refusals columns rows).head? = some e := by
  rw [checkInputs, if_neg (not_not.2 hlength), forM_eq_error]
  rfl

/-- **A run is refused** for the first array that is not acceptable. -/
theorem evaluateRows_eq_error (hlength : columns.length = x.inputs.length) {e : Error} :
    x.evaluateRows columns rows = .error e ↔ (x.refusals columns rows).head? = some e := by
  rw [← checkInputs_eq_error hlength]
  constructor
  · intro h
    cases hcheck : x.checkInputs columns rows with
    | ok u =>
        obtain ⟨evaluated, hevaluated⟩ :=
          exists_evaluateRows_eq_ok (checkInputs_eq_ok.1 hcheck)
        rw [hevaluated] at h
        cases h
    | error e' =>
        rw [evaluateRows, hcheck] at h
        exact congrArg Except.error (Except.error.inj h)
  · exact fun h => bind_eq_error.2 (.inl h)

/-- What is stored for a failure depends on the kind and the settings alone. -/
theorem stored_congr {x' : Computation} (hkind : x'.kind = x.kind)
    (hconfig : x'.config = x.config) :
    x'.stored = x.stored := by
  funext result
  cases result with
  | ok v => rfl
  | error e => rw [stored, stored, hkind, hconfig]

/-- Two computations of one kind whose rows have the same results give the same column. -/
theorem evaluateRows_congr {x' : Computation} {columns' : List Series}
    (hkind : x'.kind = x.kind) (hconfig : x'.config = x.config)
    (hcheck : x'.checkInputs columns' rows = x.checkInputs columns rows)
    (hrow : ∀ row < rows, x'.evalRow columns' row = x.evalRow columns row) :
    x'.evaluateRows columns' rows = x.evaluateRows columns rows := by
  have hresults : (List.range rows).map (x'.evalRow columns') = (List.range rows).map
      (x.evalRow columns) :=
    List.map_congr_left fun row hmem => hrow row (List.mem_range.1 hmem)
  rw [evaluateRows, evaluateRows, hcheck, hresults, stored_congr hkind hconfig, hkind]

end Computation

namespace Draft

/-- **A compiled formula runs** as the formula that its text is read as. -/
theorem runs_of_compile {d : Draft} {x : Computation} (h : d.compile = .ok x) :
    ∃ f, Formula.parse x.config.depthLimit x.source = .ok f ∧
      f.Permitted (environment x.registry x.config) ∧
      x.Runs (environment x.registry x.config) f := by
  obtain ⟨-, kind, f, inputs, -, -, hparse, hcheck, hinputs, rfl⟩ := compile_eq_ok.1 h
  refine ⟨f, hparse, (Formula.check_eq_ok.1 hcheck).2, ?_, rfl⟩
  cases hgiven : d.inputs with
  | none =>
      rw [hgiven] at hinputs
      cases hinputs
      exact f.nodup_columns
  | some given =>
      rw [hgiven, chooseInputs] at hinputs
      split at hinputs
      · cases hinputs
      · next hrepeat =>
        cases hinputs
        exact firstRepeat?_eq_none.1 hrepeat

end Draft

end FormulaTable
