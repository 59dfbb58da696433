import FormulaTable.Proofs.Program.Lowering

/-!
# What a formula means

The meaning of a formula is found on the formula itself, with a value for every name of a
column. A program finds its values at positions of a row instead; on the row it gives the
same value, or the same failure, as the meaning of its formula with each name bound to the
value of the input of that name. A name that is no input is bound to null.

* `Formula.meaning_congr` — the columns that a meaning depends on.
* `Program.eval_ofFormula` — a program computes the meaning of its formula.
* `Program.lt_of_mem_leaves`, `Program.absent_mem_leaves` — the positions and the missing
  columns of a program.
-/

namespace FormulaTable

namespace Formula

/-- The first value that is not null; what comes after it is not looked at. -/
def firstPresentOf : List (Except RowError Value) → Except RowError Value
  | [] => .ok .null
  | arg :: rest => do
    let v ← arg
    if v.isNull then firstPresentOf rest else return v

/-- The value of an infix operator, by the values of its operands. The right one is not
looked at where the left one decides. -/
def joinedValue (op : BinaryOp) (left right : Except RowError Value) :
    Except RowError Value := do
  let l ← left
  match ← Program.decided? op l with
  | some v => return v
  | none => op.apply l (← right)

/-- The value of a ternary, by the values of its parts. -/
def chosenValue (condition yes no : Except RowError Value) : Except RowError Value := do
  if ← Program.branch (← condition) then yes else no

/-- The meaning of a call, by the meanings of its arguments. -/
def callMeaning (name : String) :
    Option Callee → List (Except RowError Value) → Except RowError Value
  | some .conditional, [condition, yes, no] => chosenValue condition yes no
  | some .firstPresent, args => firstPresentOf args
  | some (.function f), args => do
    let values ← args.mapM id
    Program.named (Text.foldName name) (f.apply values)
  | _, _ => .error (.function name "unknown function")

mutual

/-- The meaning of a formula, where `column` gives the value of each column. -/
def meaning (env : Environment) (column : String → Value) : Formula → Except RowError Value
  | .literal l => .ok l.value
  | .column name => .ok (column name)
  | .unary op operand => do op.apply (← meaning env column operand)
  | .binary op left right => joinedValue op (meaning env column left)
    (meaning env column right)
  | .conditional condition yes no =>
    chosenValue (meaning env column condition) (meaning env column yes)
      (meaning env column no)
  | .call name args => callMeaning name ((env.find? name).map (·.callee))
    (meanings env column args)

/-- The meanings of several formulas. -/
def meanings (env : Environment) (column : String → Value) :
    List Formula → List (Except RowError Value)
  | [] => []
  | f :: rest => meaning env column f :: meanings env column rest

end

/-- Formulas have their meanings one by one. -/
theorem meanings_eq {env : Environment} {column : String → Value} (ts : List Formula) :
    meanings env column ts = ts.map (meaning env column) := by
  induction ts with
  | nil => rfl
  | cons t ts ih => rw [meanings, ih, List.map_cons]

/-- The meaning depends on the columns that the formula mentions only. -/
theorem meaning_congr {env : Environment} {column column' : String → Value} {f : Formula}
    (h : ∀ name ∈ f.mentions, column name = column' name) :
    f.meaning env column = f.meaning env column' := by
  induction f using Tree.induction with
  | literal l => rfl
  | column name => rw [meaning, meaning, h name List.mem_cons_self]
  | unary op t ih => rw [meaning, meaning, ih h]
  | binary op l r hl hr =>
      obtain ⟨left, right⟩ := List.forall_mem_append.1 h
      rw [meaning, meaning, hl left, hr right]
  | conditional c y n hc hy hn =>
      obtain ⟨others, no⟩ := List.forall_mem_append.1 h
      obtain ⟨condition, yes⟩ := List.forall_mem_append.1 others
      rw [meaning, meaning, hc condition, hy yes, hn no]
  | call name args ih =>
      rw [Tree.mentions, Tree.mentionsOfAll_eq] at h
      rw [meaning, meaning, meanings_eq, meanings_eq]
      congr 1
      exact List.map_congr_left fun t ht =>
        ih t ht fun other hother => h other (List.mem_flatMap.2 ⟨t, ht, hother⟩)

/-- The value of a column in a row of inputs; a column that is no input is null. -/
def valueIn (inputs : List String) (row : List Value) (name : String) : Value :=
  ((inputs.zip row).lookup name).getD .null

/-- What stands in the row at the place of an input is the value of the input. -/
theorem valueIn_of_idxOf? {inputs : List String} {row : List Value} {name : String}
    {position : Nat} (h : inputs.idxOf? name = some position) :
    valueIn inputs row name = row[position]?.getD .null := by
  rw [valueIn]
  congr 1
  induction inputs generalizing row position with
  | nil => cases h
  | cons other inputs ih =>
      rw [List.idxOf?_cons] at h
      split at h
      · next heq =>
        cases h
        cases row with
        | nil => rfl
        | cons v row => rw [List.zip_cons_cons, List.lookup_cons, eq_of_beq heq]; simp
      · next hne =>
        obtain ⟨position, hposition, rfl⟩ := Option.map_eq_some_iff.1 h
        cases row with
        | nil => rfl
        | cons v row =>
            have hne' : (name == other) = false := by
              simpa using fun heq => hne (by simp [heq])
            rw [List.zip_cons_cons, List.lookup_cons, hne', List.getElem?_cons_succ]
            exact ih hposition

/-- What is no input is null. -/
theorem valueIn_of_notMem {inputs : List String} {row : List Value} {name : String}
    (h : name ∉ inputs) :
    valueIn inputs row name = .null := by
  have hnot : name ∉ (inputs.zip row).map Prod.fst := by
    intro hmem
    obtain ⟨⟨other, v⟩, hzip, rfl⟩ := List.mem_map.1 hmem
    exact h (List.of_mem_zip hzip).1
  rw [valueIn, lookup_eq_none_of_notMem hnot]
  rfl

end Formula

namespace Program

variable {env : Environment} {inputs : List String} {row : List Value}

/-- Programs are evaluated one after another, up to the first failure. -/
theorem evalAll_eq (ps : List Program) : evalAll row ps = (ps.map (eval row)).mapM id := by
  induction ps with
  | nil => rfl
  | cons p ps ih => rw [evalAll, ih, List.map_cons, List.mapM_cons, id]

/-- The first value that is not null is looked for among the values of the programs. -/
theorem evalFirst_eq (ps : List Program) :
    evalFirst row ps = Formula.firstPresentOf (ps.map (eval row)) := by
  induction ps with
  | nil => rfl
  | cons p ps ih =>
      rw [evalFirst, List.map_cons, Formula.firstPresentOf]
      simp only [ih]

/-- The value of an infix operator is joined from those of its operands. -/
theorem eval_binary (op : BinaryOp) (p q : Program) :
    (binary op p q).eval row = Formula.joinedValue op (p.eval row) (q.eval row) := by
  rw [eval]
  rfl

/-- The value of a ternary is chosen among those of its branches. -/
theorem eval_conditional (c y n : Program) :
    (conditional c y n).eval row = Formula.chosenValue (c.eval row) (y.eval row)
      (n.eval row) := by
  rw [eval]
  rfl

/-- A call is evaluated as its name says. -/
theorem eval_ofCall {name : String} {args : List Program}
    (h : env.Permits (name, args.length)) :
    (ofCall name ((env.find? name).map (·.callee)) args).eval row =
      Formula.callMeaning name ((env.find? name).map (·.callee)) (args.map (eval row)) := by
  rcases ofCall_cases h with
    ⟨c, y, n, rfl, hcallee, heq⟩ | ⟨hcallee, heq⟩ | ⟨f, callable, hfind, hcallee, -, heq⟩
  · rw [heq, hcallee, eval_conditional]
    rfl
  · rw [heq, hcallee, eval, evalFirst_eq]
    rfl
  · rw [heq, hfind, Option.map_some, hcallee, eval, evalAll_eq]
    rfl

/-- **A program computes the meaning** of its formula. -/
theorem eval_ofFormula {f : Formula} (h : f.Permitted env) :
    (ofFormula env inputs f).eval row = f.meaning env (Formula.valueIn inputs row) := by
  induction f using Tree.induction with
  | literal l => rfl
  | column name =>
      rw [ofFormula, Formula.meaning]
      split
      · next position hposition => rw [eval, Formula.valueIn_of_idxOf? hposition]
      · next hnone => rw [eval, Formula.valueIn_of_notMem (List.idxOf?_eq_none_iff.1 hnone)]
  | unary op t ih =>
      rw [ofFormula, eval, Formula.meaning, ih (Formula.permitted_unary.1 h)]
  | binary op l r hl hr =>
      obtain ⟨pl, pr⟩ := Formula.permitted_binary.1 h
      rw [ofFormula, eval_binary, Formula.meaning, hl pl, hr pr]
  | conditional c y n hc hy hn =>
      obtain ⟨⟨pc, py⟩, pn⟩ := Formula.permitted_conditional.1 h
      rw [ofFormula, eval_conditional, Formula.meaning, hc pc, hy py, hn pn]
  | call name args ih =>
      obtain ⟨pcall, pargs⟩ := Formula.permitted_call.1 h
      rw [ofFormula, ofFormulas_eq, eval_ofCall (by rwa [List.length_map]), Formula.meaning,
        Formula.meanings_eq, List.map_map]
      congr 1
      exact List.map_congr_left fun t ht => ih t ht (pargs t ht)

/-! ### Positions and missing columns -/

/-- A program reads its row at positions of inputs only. -/
theorem lt_of_mem_leaves {f : Formula} (h : f.Permitted env) {position : Nat}
    (hleaf : .input position ∈ (ofFormula env inputs f).leaves) :
    position < inputs.length := by
  rw [leaves_ofFormula h, List.mem_map] at hleaf
  obtain ⟨l, -, hl⟩ := hleaf
  cases l with
  | column name =>
      rw [ofFormula] at hl
      split at hl
      · next hposition =>
        cases hl
        exact (List.findIdx?_eq_some_iff_getElem.1 hposition).1
      · cases hl
  | call name args =>
      rw [ofFormula, ofCall.eq_def] at hl
      split at hl <;> cases hl
  | literal l => cases hl
  | unary op t => cases hl
  | binary op l r => cases hl
  | conditional c y n => cases hl

/-- A program lacks the columns that its formula mentions and that are no inputs. -/
theorem absent_mem_leaves {f : Formula} (h : f.Permitted env) {name : String} :
    .absent name ∈ (ofFormula env inputs f).leaves ↔ name ∈ f.mentions ∧ name ∉ inputs := by
  rw [leaves_ofFormula h, List.mem_map, Tree.mem_mentions]
  constructor
  · rintro ⟨l, hmem, hl⟩
    cases l with
    | column other =>
        rw [ofFormula] at hl
        split at hl
        · cases hl
        · next hnone =>
          cases hl
          exact ⟨hmem, List.idxOf?_eq_none_iff.1 hnone⟩
    | call other args =>
        rw [ofFormula, ofCall.eq_def] at hl
        split at hl <;> cases hl
    | literal l => cases hl
    | unary op t => cases hl
    | binary op l r => cases hl
    | conditional c y n => cases hl
  · rintro ⟨hmem, hnot⟩
    exact ⟨.column name, hmem, by rw [ofFormula, List.idxOf?_eq_none_iff.2 hnot]⟩

end Program

end FormulaTable
