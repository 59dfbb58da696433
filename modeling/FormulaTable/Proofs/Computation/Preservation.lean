import FormulaTable.Proofs.Computation.Inputs

/-!
# Resolving the names of a formula preserves its meaning

A formula that passes the check has the same results as a program and as a formula, on every
row and for every list of inputs. Its program reads the row at positions of inputs only, and
no column is missing if the inputs are the columns of the formula. The order in which the
inputs are listed, and inputs that the formula does not mention, change no result: they only
decide which of several failures is reported, for the first one in the order of the inputs
is.

* `Formula.preserved` — the program of a formula against the formula.
* `Draft.results_depend_on_inputs` — what does depend on the list of inputs.
-/

namespace FormulaTable

/-- The order of at most one member is no choice. -/
theorem eq_of_perm_of_length_le_one {α : Type} {l l' : List α} (h : l'.Perm l)
    (hlength : l.length ≤ 1) :
    l' = l := by
  match l, hlength with
  | [], _ => exact List.perm_nil.1 h
  | [a], _ => exact List.perm_singleton.1 h

namespace Computation

/-- `x'` reads the arrays of `x` in some order, and perhaps others that the formula does not
mention and that can be read. -/
structure Rearranges (f : Formula) (rows : Nat) (x : Computation) (columns : List Series)
    (x' : Computation) (columns' : List Series) : Prop where
  kind_eq : x'.kind = x.kind
  config_eq : x'.config = x.config
  length_eq : columns.length = x.inputs.length
  length_eq' : columns'.length = x'.inputs.length
  arrays : ∃ added, (x'.arrays columns').Perm (x.arrays columns ++ added) ∧ ∀ p ∈ added,
    p.1 ∉ f.mentions ∧ p.2.size = rows ∧ p.2.type.isReadable ∧ ∀ row < rows,
      (p.2.value? row).isSome

/-- Two computations do the same on their arrays, unless several failures compete. -/
structure SameRun (rows : Nat) (x : Computation) (columns : List Series) (x' : Computation)
    (columns' : List Series) : Prop where
  /-- The same cells cannot be read. -/
  unreadables : ∀ row < rows, (x'.unreadables columns' row).Perm (x.unreadables columns row)
  /-- The same arrays are refused, for the same reasons. -/
  refusals : (x'.refusals columns' rows).Perm (x.refusals columns rows)
  /-- A row without competing failures has the same result. -/
  evalRow_eq : ∀ row < rows, (x.unreadables columns row).length ≤ 1 →
    x'.evalRow columns' row = x.evalRow columns row
  /-- Rows with competing failures do not harm the others. -/
  stored_eq : ∀ e, x.evaluateRows columns rows = .ok e →
    ∃ e', x'.evaluateRows columns' rows = .ok e' ∧
    ∀ row < rows, (x.unreadables columns row).length ≤ 1 →
      e'.series.value? row = e.series.value? row ∧ e'.error? row = e.error? row
  /-- Without any competing failures the whole run is the same. -/
  evaluateRows_eq : (x.refusals columns rows).length ≤ 1 →
    (∀ row < rows, (x.unreadables columns row).length ≤ 1) →
    x'.evaluateRows columns' rows = x.evaluateRows columns rows
  /-- The same holds if the first array gives the number of rows. -/
  evaluate_eq : columns ≠ [] → (∀ s ∈ columns, s.size = rows) →
    (x.refusals columns rows).length ≤ 1 →
    (∀ row < rows, (x.unreadables columns row).length ≤ 1) →
      x'.evaluate columns' = x.evaluate columns

section Rearranges

variable {env : Environment} {f : Formula} {rows row : Nat} {x x' : Computation}
  {columns columns' : List Series}

/-- The arrays of a computation stand under the names of its inputs. -/
theorem map_fst_arrays (h : columns.length = x.inputs.length) :
    (x.arrays columns).map Prod.fst = x.inputs :=
  List.map_fst_zip (Nat.le_of_eq h.symm)

/-- The arrays of a computation are the columns that it is given. -/
theorem map_snd_arrays (h : columns.length = x.inputs.length) :
    (x.arrays columns).map Prod.snd = columns :=
  List.map_snd_zip (Nat.le_of_eq h)

/-- Rearranged computations find the same unreadable cells. -/
theorem Rearranges.unreadables (h : Rearranges f rows x columns x' columns')
    (hrow : row < rows) :
    (x'.unreadables columns' row).Perm (x.unreadables columns row) := by
  obtain ⟨added, hperm, hadded⟩ := h.arrays
  refine failures_perm hperm fun p hp => ?_
  obtain ⟨v, hv⟩ := Option.isSome_iff_exists.1 ((hadded p hp).2.2.2 row hrow)
  exact ⟨v, readInput_eq_ok.2 hv⟩

/-- Rearranged computations refuse the same arrays. -/
theorem Rearranges.refusals (h : Rearranges f rows x columns x' columns') :
    (x'.refusals columns' rows).Perm (x.refusals columns rows) := by
  obtain ⟨added, hperm, hadded⟩ := h.arrays
  refine failures_perm hperm fun p hp => ⟨(), ?_⟩
  obtain ⟨-, hsize, hreadable, -⟩ := hadded p hp
  exact checkInput_eq_ok.2 ⟨hsize, hreadable⟩

/-- A column that the formula mentions has the same cells in both. -/
theorem Rearranges.cellAt_eq (h : Rearranges f rows x columns x' columns')
    (hnodup : x'.inputs.Nodup) {name : String} (hname : name ∈ f.mentions) :
    cellAt (x'.arrays columns') row name = cellAt (x.arrays columns) row name := by
  obtain ⟨added, hperm, hadded⟩ := h.arrays
  have hnotMem : name ∉ added.map Prod.fst := by
    intro hmem
    obtain ⟨p, hp, rfl⟩ := List.mem_map.1 hmem
    exact (hadded p hp).1 hname
  rw [cellAt, cellAt, lookup_perm hperm (by rwa [map_fst_arrays h.length_eq']),
    lookup_append_of_notMem hnotMem]

/-- Without competing failures, a row has the same result in both. -/
theorem Rearranges.evalRow_eq (h : Rearranges f rows x columns x' columns')
    (hf : f.Permitted env) (hx : x.Runs env f) (hx' : x'.Runs env f) (hrow : row < rows)
    (hfew : (x.unreadables columns row).length ≤ 1) :
    x'.evalRow columns' row = x.evalRow columns row := by
  have heq := eq_of_perm_of_length_le_one (h.unreadables hrow) hfew
  cases hfirst : x.unreadables columns row with
  | cons e rest =>
      have hhead : (x.unreadables columns row).head? = some e := by
        rw [hfirst, List.head?_cons]
      rw [evalRow_eq_unreadable hhead, evalRow_eq_unreadable (heq ▸ hhead)]
  | nil =>
      rw [evalRow_eq_meaning hx hf hfirst,
        evalRow_eq_meaning hx' hf (heq.trans hfirst), h.kind_eq,
        Formula.meaning_congr fun name hname => h.cellAt_eq hx'.nodup hname]

/-- Without competing refusals, the arrays are accepted or refused alike. -/
theorem Rearranges.checkInputs_eq (h : Rearranges f rows x columns x' columns')
    (hfew : (x.refusals columns rows).length ≤ 1) :
    x'.checkInputs columns' rows = x.checkInputs columns rows := by
  have heq := eq_of_perm_of_length_le_one h.refusals hfew
  cases hcheck : x.checkInputs columns rows with
  | error e =>
      exact (checkInputs_eq_error h.length_eq').2
        (heq ▸ (checkInputs_eq_error h.length_eq).1 hcheck)
  | ok u =>
      cases hcheck' : x'.checkInputs columns' rows with
      | ok u' => rfl
      | error e =>
          rw [checkInputs_eq_error h.length_eq', heq, ← checkInputs_eq_error h.length_eq,
            hcheck] at hcheck'
          cases hcheck'

/-- Rearranged computations have the same results, where at most one failure is there to be
reported. -/
theorem Rearranges.evaluateRows_eq (h : Rearranges f rows x columns x' columns')
    (hf : f.Permitted env) (hx : x.Runs env f) (hx' : x'.Runs env f)
    (hrefusals : (x.refusals columns rows).length ≤ 1)
    (hfew : ∀ row < rows, (x.unreadables columns row).length ≤ 1) :
    x'.evaluateRows columns' rows = x.evaluateRows columns rows :=
  evaluateRows_congr h.kind_eq h.config_eq (h.checkInputs_eq hrefusals) fun row hrow =>
    h.evalRow_eq hf hx hx' hrow (hfew row hrow)

/-- The arrays of both have the same number of rows. -/
theorem Rearranges.size_eq (h : Rearranges f rows x columns x' columns')
    (hsize : ∀ s ∈ columns, s.size = rows) {s : Series} (hs : s ∈ columns') :
    s.size = rows := by
  obtain ⟨added, hperm, hadded⟩ := h.arrays
  rw [← map_snd_arrays h.length_eq'] at hs
  obtain ⟨p, hp, rfl⟩ := List.mem_map.1 hs
  rcases List.mem_append.1 (hperm.mem_iff.1 hp) with hp | hp
  · exact hsize p.2 (List.of_mem_zip hp).2
  · exact (hadded p hp).2.1

/-- Rearranging does not take all columns away. -/
theorem Rearranges.ne_nil (h : Rearranges f rows x columns x' columns')
    (hne : columns ≠ []) :
    columns' ≠ [] := by
  obtain ⟨added, hperm, -⟩ := h.arrays
  have hlength := hperm.length_eq
  rw [List.length_append, ← List.length_map Prod.snd, map_snd_arrays h.length_eq',
    ← List.length_map Prod.snd, map_snd_arrays h.length_eq] at hlength
  have := List.length_pos_iff.2 hne
  exact List.length_pos_iff.1 (by omega)

/-- The number of rows is the length of the columns, if there are any. -/
theorem evaluate_eq_evaluateRows (hne : columns ≠ [])
    (hsize : ∀ s ∈ columns, s.size = rows) :
    x.evaluate columns = x.evaluateRows columns rows := by
  cases columns with
  | nil => exact absurd rfl hne
  | cons s rest =>
      rw [evaluate, List.head?_cons, Option.map_some, Option.getD_some,
        hsize s List.mem_cons_self]

/-- **The order of the inputs changes nothing** but the choice among competing failures, and
neither do inputs that the formula does not mention. -/
theorem Rearranges.sameRun (h : Rearranges f rows x columns x' columns')
    (hf : f.Permitted env) (hx : x.Runs env f) (hx' : x'.Runs env f) :
    SameRun rows x columns x' columns' where
  unreadables := fun _ hrow => h.unreadables hrow
  refusals := h.refusals
  evalRow_eq := fun _ hrow hfew => h.evalRow_eq hf hx hx' hrow hfew
  stored_eq := by
    intro e he
    have hnone : x.refusals columns rows = [] := by
      rw [← List.head?_eq_none_iff, Option.eq_none_iff_forall_ne_some]
      intro refusal hrefusal
      rw [(evaluateRows_eq_error h.length_eq).2 hrefusal] at he
      cases he
    have hcheck := h.checkInputs_eq (by rw [hnone]; exact Nat.zero_le 1)
    rw [checkInputs_eq_ok.2 (evaluateRows_eq_ok.1 he).1] at hcheck
    obtain ⟨e', he'⟩ := exists_evaluateRows_eq_ok (checkInputs_eq_ok.1 hcheck)
    refine ⟨e', he', fun row hrow hfew => ?_⟩
    have hresult := h.evalRow_eq hf hx hx' hrow hfew
    rw [value?_evaluateRows he' hrow, value?_evaluateRows he hrow,
      error?_evaluateRows he' hrow, error?_evaluateRows he hrow, hresult,
      stored_congr h.kind_eq h.config_eq]
    exact ⟨rfl, rfl⟩
  evaluateRows_eq := h.evaluateRows_eq hf hx hx'
  evaluate_eq := by
    intro hne hsize hrefusals hfew
    rw [evaluate_eq_evaluateRows hne hsize,
      evaluate_eq_evaluateRows (h.ne_nil hne) fun s hs => h.size_eq hsize hs]
    exact h.evaluateRows_eq hf hx hx' hrefusals hfew

end Rearranges

end Computation

namespace Formula

/-- The programs of a formula do what the formula means. -/
structure Preserved (env : Environment) (f : Formula) : Prop where
  /-- A program computes the meaning of its formula, where a column that is no input is
  null. -/
  eval_eq : ∀ inputs row,
    (Program.ofFormula env inputs f).eval row = f.meaning env (valueIn inputs row)
  /-- A program reads its row at positions of inputs. -/
  input_lt : ∀ inputs position, .input position ∈ (Program.ofFormula env inputs f).leaves →
    position < inputs.length
  /-- The inputs that are inferred are the columns of the formula, in the order of their
  first mention. -/
  inferred : Draft.chooseInputs none f = .ok f.columns ∧ f.columns.Nodup ∧
    (∀ name, name ∈ f.columns ↔ name ∈ f.mentions) ∧
    f.columns.Pairwise fun a b => f.mentions.idxOf a < f.mentions.idxOf b
  /-- With inferred inputs no column is missing. -/
  present : ∀ name, .absent name ∉ (Program.ofFormula env f.columns f).leaves
  /-- A row whose cells can all be read is the meaning of the formula, as a value of the
  kind of the result. -/
  row_eq : ∀ (x : Computation) columns row, x.Runs env f → x.unreadables columns row = [] →
    x.evalRow columns row =
      f.meaning env (Computation.cellAt (x.arrays columns) row) >>=
        fun v => v.convert x.kind
  /-- Otherwise the row fails for the first such cell in the order of the inputs. -/
  row_failed : ∀ (x : Computation) columns row e,
    (x.unreadables columns row).head? = some e → x.evalRow columns row = .error e
  /-- A run is refused for the first array that is not acceptable, and for nothing else. -/
  run_refused : ∀ (x : Computation) columns rows e, columns.length = x.inputs.length →
    (x.evaluateRows columns rows = .error e ↔ (x.refusals columns rows).head? = some e)
  /-- The order of the inputs and unmentioned inputs do not matter to the results. -/
  rearranged : ∀ rows (x : Computation) columns (x' : Computation) columns', x.Runs env f →
    x'.Runs env f →
    x.Rearranges f rows columns x' columns' → x.SameRun rows columns x' columns'

/-- **Resolving names preserves meaning**, for every formula that passes the check. -/
theorem preserved {env : Environment} {limit : Nat} {f : Formula}
    (h : f.check env limit = .ok ()) :
    f.Preserved env :=
  have hf : f.Permitted env := (check_eq_ok.1 h).2
  { eval_eq := fun _ _ => Program.eval_ofFormula hf
    input_lt := fun _ _ => Program.lt_of_mem_leaves hf
    inferred := ⟨rfl, f.nodup_columns, fun _ => Tree.mem_columns, f.pairwise_columns⟩
    present := fun _ hleaf =>
      have ⟨hmention, hnot⟩ := (Program.absent_mem_leaves hf).1 hleaf
      hnot (Tree.mem_columns.2 hmention)
    row_eq := fun _ _ _ hx => Computation.evalRow_eq_meaning hx hf
    row_failed := fun _ _ _ _ => Computation.evalRow_eq_unreadable
    run_refused := fun _ _ _ _ hlength => Computation.evaluateRows_eq_error hlength
    rearranged := fun _ _ _ _ _ hx hx' hr => hr.sameRun hf hx hx' }

/-- A formula with a ternary, a choice of the first value and a function among its calls. -/
def guardedSum : Formula :=
  .call "if" [.call "is_null" [.column "a"],
    .call "coalesce" [.column "b", .literal (.int 1)],
    .binary .add (.column "a") (.column "b")]

/-- A guarded sum is preserved on all rows, also where its guard keeps it from being
evaluated. -/
theorem preserved_guardedSum :
    guardedSum.check (.permitting none) 8 = .ok () ∧
      guardedSum.Preserved (.permitting none) := by
  obtain ⟨⟨⟩, hcheck, -⟩ :=
    exists_of_any_toOption (x := guardedSum.check (.permitting none) 8) (p := fun _ => true)
      (by decide +kernel)
  exact ⟨hcheck, preserved hcheck⟩

end Formula

namespace Draft

/-- A draft of a formula that adds two columns. -/
def adding (inputs : List String) : Draft :=
  ⟨"a + b", some inputs, some .int64, none, .standard⟩

/-- A draft of a formula that reads no column. -/
def one (inputs : List String) : Draft := ⟨"1", some inputs, some .int64, none, .standard⟩

/-- A column with one cell, whose number does not fit 64 bits with a sign. -/
def tooGreat : Series := ⟨.uint64, #[some (0xffffffffffffffff : UInt64)]⟩

/-- **What the inputs decide**: of two cells that cannot be read, the one whose input is
listed first is reported. And the first array gives the number of rows, so that there is
none without inputs. -/
theorem results_depend_on_inputs :
    (∃ x x', (adding ["a", "b"]).compile = .ok x ∧ (adding ["b", "a"]).compile = .ok x' ∧
      Computation.failure? (x.evalRow [tooGreat, tooGreat] 0) =
      some "unreadable value in column 'a'" ∧
      Computation.failure? (x'.evalRow [tooGreat, tooGreat] 0) =
      some "unreadable value in column 'b'") ∧
    ∃ x x', (one []).compile = .ok x ∧ (one ["n"]).compile = .ok x' ∧
      ((x.evaluate []).toOption.map (·.series.size)) = some 0 ∧
      ((x'.evaluate [.singleton .int64 none]).toOption.map (·.series.size)) = some 1 := by
  refine ⟨?order, ?rows⟩
  case order =>
    obtain ⟨x, hx, hfirst⟩ := exists_of_any_toOption (x := (adding ["a", "b"]).compile)
      (p := fun x => Computation.failure? (x.evalRow [tooGreat, tooGreat] 0) =
        some "unreadable value in column 'a'") (by decide +kernel)
    obtain ⟨x', hx', hfirst'⟩ := exists_of_any_toOption (x := (adding ["b", "a"]).compile)
      (p := fun x => Computation.failure? (x.evalRow [tooGreat, tooGreat] 0) =
        some "unreadable value in column 'b'") (by decide +kernel)
    exact ⟨x, x', hx, hx', of_decide_eq_true hfirst, of_decide_eq_true hfirst'⟩
  case rows =>
    obtain ⟨x, hx, hrows⟩ := exists_of_any_toOption (x := (one []).compile)
      (p := fun x => (x.evaluate []).toOption.map (·.series.size) = some 0)
        (by decide +kernel)
    obtain ⟨x', hx', hrows'⟩ := exists_of_any_toOption (x := (one ["n"]).compile)
      (p := fun x => (x.evaluate [.singleton .int64 none]).toOption.map
          (·.series.size) = some 1)
      (by decide +kernel)
    exact ⟨x, x', hx, hx', of_decide_eq_true hrows, of_decide_eq_true hrows'⟩

end Draft

end FormulaTable
