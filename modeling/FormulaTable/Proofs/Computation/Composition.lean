import FormulaTable.Proofs.Computation.Inputs
import FormulaTable.Proofs.Formula.Joining

/-!
# What joined computations compute

Computations of truth values are joined by putting their texts between brackets and reading
the result again, with the inputs of both. On a row the joined computation gives what the
three-valued connective makes of the results of its operands, as long as an operand does the
same inside the text as it does by itself. There are two differences. An operand that
mentions a column without listing it finds null there by itself, and in the joined text it
finds the value of the row if the other operand lists the column. And by itself an operand
converts its value to a truth value, while in the joined text the connective gets the value
as it is, and refuses it if it is neither a truth value nor null.

* `Computation.unseen_of_inferred` — an operand with inferred inputs sees the same in the
  text.
* `Computation.composed` — the result of a joined computation, by the results of its
  operands.
* `Draft.joined_differs` — both differences in one pair of computations.
-/

namespace FormulaTable

/-! ### Verdicts -/

/-- The result of a truth computation on a row. -/
inductive Verdict where
  | yes
  | no
  /-- The result is null. -/
  | unknown
  /-- The row has failed. -/
  | failed
deriving DecidableEq

namespace Verdict

/-- The verdict of a result; only truth values and null are verdicts. -/
def of : Except RowError Value → Verdict
  | .ok (.bool true) => yes
  | .ok (.bool false) => no
  | .ok .null => unknown
  | _ => failed

/-- Three-valued conjunction. A "no" on the left decides without the right side; otherwise
the failure of a side is one of the whole. -/
def and : Verdict → Verdict → Verdict
  | no, _ => no
  | failed, _ => failed
  | _, failed => failed
  | _, no => no
  | yes, yes => yes
  | _, _ => unknown

/-- Three-valued disjunction. A "yes" on the left decides without the right side; otherwise
the failure of a side is one of the whole. -/
def or : Verdict → Verdict → Verdict
  | yes, _ => yes
  | failed, _ => failed
  | _, failed => failed
  | _, yes => yes
  | no, no => no
  | _, _ => unknown

/-- Three-valued negation. -/
def not : Verdict → Verdict
  | yes => no
  | no => yes
  | unknown => unknown
  | failed => failed

end Verdict

/-! ### Connectives -/

section Connectives

variable {x y : Except RowError Value}

/-- A value that is left to the conversion to a truth value as it is, or is refused by
it. -/
def Unconverted (x : Except RowError Value) : Prop :=
  ∀ v w, x = .ok v → v.convert .bool = .ok w → w = v

/-- What the conversion leaves alone has the verdict of its result. -/
theorem Verdict.of_convert (h : Unconverted x) :
    of (x >>= fun v => v.convert .bool) = of x := by
  cases x with
  | error e => rfl
  | ok v =>
      change of (v.convert .bool) = of (.ok v)
      cases hv : v.convert .bool with
      | ok w => rw [h v w rfl hv]
      | error e =>
          -- A value that cannot be converted is neither null nor a truth value.
          cases v with
          | null => cases hv
          | bool b => cases hv
          | _ => rfl

/-- What the conversion changes has no verdict before it. -/
theorem Verdict.of_eq_failed (h : ¬ Unconverted x) : of x = failed := by
  cases x with
  | error e => rfl
  | ok v =>
      cases v with
      | null =>
          refine absurd (fun v w hv hw => ?_) h
          cases hv
          exact (Except.ok.inj hw).symm
      | bool b =>
          refine absurd (fun v w hv hw => ?_) h
          cases hv
          exact (Except.ok.inj hw).symm
      | _ => rfl

/-- **The connectives are three-valued**: their verdicts are what the verdicts of the
operands make. -/
theorem Verdict.of_joinedValue :
    of (Formula.joinedValue .and x y >>= fun v => v.convert .bool) = (of x).and (of y) ∧
      of (Formula.joinedValue .or x y >>= fun v => v.convert .bool) = (of x).or (of y) := by
  constructor
  all_goals
    cases x with
    | error e => rfl
    | ok l =>
        cases y with
        | error e =>
            cases l with
            | bool b => cases b <;> rfl
            | _ => rfl
        | ok r =>
            cases l with
            | null =>
                cases r with
                | bool b => cases b <;> rfl
                | _ => rfl
            | bool b =>
                cases r with
                | bool b' => cases b <;> cases b' <;> rfl
                | _ => cases b <;> rfl
            | _ => rfl

/-- What a connective does with the verdicts of its operands: the decisive one on the left
makes the right side superfluous, and otherwise a failure is a failure of the whole. -/
structure Connective (op : BinaryOp) (connect : Verdict → Verdict → Verdict)
    (decisive : Verdict) : Prop where
  isComparison : op.isComparison = false
  of_value : ∀ x y, Verdict.of (Formula.joinedValue op x y >>= fun v => v.convert .bool) =
    connect (.of x) (.of y)
  decides : ∀ v w, connect decisive v = connect decisive w
  failed_left : ∀ v, connect .failed v = .failed
  failed_right : ∀ v, v ≠ decisive → connect v .failed = .failed

/-- Conjunction is a connective that "no" decides. -/
theorem connective_and : Connective .and Verdict.and .no where
  isComparison := rfl
  of_value := fun _ _ => Verdict.of_joinedValue.1
  decides := fun _ _ => rfl
  failed_left := fun _ => rfl
  failed_right := by
    intro v hv
    cases v with
    | no => exact absurd rfl hv
    | _ => rfl

/-- Disjunction is a connective that "yes" decides. -/
theorem connective_or : Connective .or Verdict.or .yes where
  isComparison := rfl
  of_value := fun _ _ => Verdict.of_joinedValue.2
  decides := fun _ _ => rfl
  failed_left := fun _ => rfl
  failed_right := by
    intro v hv
    cases v with
    | yes => exact absurd rfl hv
    | _ => rfl

/-- Negation is three-valued. -/
theorem Verdict.of_negated :
    of ((x >>= fun v => UnaryOp.not.apply v) >>= fun v => v.convert .bool) =
      (of x).not := by
  cases x with
  | error e => rfl
  | ok v =>
      cases v with
      | bool b => cases b <;> rfl
      | _ => rfl

end Connectives

/-! ### Rows of a table -/

/-- A row of a table, which gives a value to every name of a column. -/
structure NamedRow where
  column : String → Series
  index : Nat
  value : String → Value
  value?_eq : ∀ name, (column name).value? index = some (value name)

/-- The value that a computation with the given inputs finds for a column. -/
def NamedRow.seenBy (r : NamedRow) (inputs : List String) (name : String) : Value :=
  if name ∈ inputs then r.value name else .null

namespace Computation

variable {a b c x : Computation} {r : NamedRow}

/-- The value of a computation on a row, before it is converted to the kind of the
result. -/
def rawOn (x : Computation) (r : NamedRow) : Except RowError Value :=
  x.valueOn (x.inputs.map r.column) r.index

/-- The verdict of a computation on a row, on the columns of its own inputs. -/
def verdict (x : Computation) (r : NamedRow) : Verdict :=
  .of (x.evalRow (x.inputs.map r.column) r.index)

/-- The arrays of a computation are the columns of its inputs. -/
theorem arrays_map :
    x.arrays (x.inputs.map r.column) = x.inputs.map fun name => (name, r.column name) :=
  List.map_prod_left_eq_zip.symm

/-- Every cell of the row can be read. -/
theorem unreadables_eq_nil : x.unreadables (x.inputs.map r.column) r.index = [] := by
  rw [unreadables, arrays_map, failures_eq_nil, List.forall_mem_map]
  exact fun name _ => ⟨r.value name, readInput_eq_ok.2 (r.value?_eq name)⟩

/-- What a computation finds in its arrays is what it sees of the row. -/
theorem cellAt_arrays_map (name : String) :
    cellAt (x.arrays (x.inputs.map r.column)) r.index name = r.seenBy x.inputs name := by
  rw [cellAt, arrays_map, NamedRow.seenBy]
  split
  · next hmem =>
      rw [List.lookup_graph _ hmem, Option.bind_some, r.value?_eq, Option.getD_some]
  · next hnot =>
    rw [lookup_eq_none_of_notMem (by simpa using hnot)]
    rfl

/-- On a row, the value is the meaning of the formula on what the inputs show of the row. -/
theorem rawOn_eq {env : Environment} {f : Formula} (hx : x.Runs env f)
    (hf : f.Permitted env) :
    x.rawOn r = f.meaning env (r.seenBy x.inputs) := by
  rw [rawOn, valueOn_eq_meaning hx hf unreadables_eq_nil]
  exact Formula.meaning_congr fun name _ => cellAt_arrays_map name

/-! ### Joined computations -/

/-- In the row, `x` finds nothing in the inputs of `y` that it does not find in its own: the
columns that it mentions without listing them, and that `y` lists, are null. -/
def Unseen (x y : Computation) (r : NamedRow) : Prop :=
  ∀ name, .absent name ∈ x.program.leaves → name ∈ y.inputs → r.value name = .null

/-- In the row, the operand `x` does the same when it is joined to `y` as by itself. -/
structure Keeps (x y : Computation) (r : NamedRow) : Prop where
  unseen : x.Unseen y r
  unconverted : Unconverted (x.rawOn r)

/-- Where the inputs are inferred, nothing that is mentioned is missing from them. -/
theorem unseen_of_inferred {d : Draft} (h : d.compile = .ok x) (hinputs : d.inputs = none)
    (y : Computation) (r : NamedRow) : x.Unseen y r := by
  intro name habsent
  obtain ⟨-, kind, f, inputs, -, -, -, hcheck, hchoose, rfl⟩ := Draft.compile_eq_ok.1 h
  rw [hinputs] at hchoose
  cases hchoose
  have hpermitted := (Formula.check_eq_ok.1 hcheck).2
  obtain ⟨hmention, hnot⟩ := (Program.absent_mem_leaves hpermitted).1 habsent
  exact absurd (Tree.mem_columns.2 hmention) hnot

/-- An operand sees in the inputs of both computations what it sees in its own, if the other
one brings nothing that it mentions without listing it. -/
theorem seenBy_eq_of_unseen {f : Formula} {env : Environment} {y : Computation}
    {merged : List String}
    (hmerged : ∀ name, name ∈ merged ↔ name ∈ x.inputs ∨ name ∈ y.inputs)
    (hx : x.Runs env f) (hf : f.Permitted env) (hunseen : x.Unseen y r) {name : String}
    (hname : name ∈ f.mentions) :
    r.seenBy merged name = r.seenBy x.inputs name := by
  rw [NamedRow.seenBy, NamedRow.seenBy]
  by_cases hown : name ∈ x.inputs
  · rw [if_pos hown, if_pos ((hmerged name).2 (.inl hown))]
  · rw [if_neg hown]
    split
    · next hmem =>
      refine hunseen name ?_ (((hmerged name).1 hmem).resolve_left hown)
      rw [hx.program_eq]
      exact (Program.absent_mem_leaves hf).2 ⟨hname, hown⟩
    · rfl

/-- A computation that is made from another text keeps the functions and the settings. -/
theorem runs_of_recompile {source : String} {inputs : List String}
    (h : x.recompile source inputs = .ok c) :
    c.kind = .bool ∧ c.inputs = inputs ∧ ∃ f,
      Formula.parse x.config.depthLimit source = .ok f ∧
      f.Permitted (Draft.environment x.registry x.config) ∧
      c.Runs (Draft.environment x.registry x.config) f := by
  obtain ⟨f, hparse, hf, hc⟩ := Draft.runs_of_compile h
  obtain ⟨-, kind, formula, inputs', hkind, -, -, -, hinputs, rfl⟩ :=
    Draft.compile_eq_ok.1 h
  cases hkind
  have hsame : inputs' = inputs := by
    rw [Draft.chooseInputs] at hinputs
    split at hinputs
    · cases hinputs
    · exact (Except.ok.inj hinputs).symm
  exact ⟨rfl, hsame, f, hparse, hf, hc⟩

/-- The verdict of a computation of truth values is the one of its converted raw value. -/
theorem verdict_eq (hkind : x.kind = .bool) :
    x.verdict r = .of (x.rawOn r >>= fun v => v.convert .bool) := by
  rw [verdict, evalRow_eq_convert, hkind, rawOn]

/-- What the conversion leaves alone has the verdict of the computation before it. -/
theorem of_rawOn (hkind : x.kind = .bool) (h : Unconverted (x.rawOn r)) :
    .of (x.rawOn r) = x.verdict r := by
  rw [verdict_eq hkind, Verdict.of_convert h]

/-- What the conversion changes has no verdict before it. -/
theorem of_rawOn_cases (hkind : x.kind = .bool) (r : NamedRow) :
    .of (x.rawOn r) = x.verdict r ∨ .of (x.rawOn r) = Verdict.failed := by
  by_cases h : Unconverted (x.rawOn r)
  · exact .inl (of_rawOn hkind h)
  · exact .inr (Verdict.of_eq_failed h)

section Join

variable {da db : Draft} (ha : da.compile = .ok a) (hb : db.compile = .ok b)
  (hregistry : b.registry = a.registry) (hconfig : b.config = a.config)

include ha hb hregistry hconfig

/-- The raw value of a joined computation is what its connective makes of the operands'
values in the joined text; an operand that sees nothing more there has its own value. -/
theorem rawOn_join {op : BinaryOp} (hop : op.isComparison = false)
    (hc : join op a b = .ok c) (r : NamedRow) :
    c.kind = .bool ∧ ∃ x y, c.rawOn r = Formula.joinedValue op x y ∧
      (a.Unseen b r → x = a.rawOn r) ∧ (b.Unseen a r → y = b.rawOn r) := by
  obtain ⟨fa, hparseA, hfa, hrunsA⟩ := Draft.runs_of_compile ha
  obtain ⟨fb, hparseB, hfb, hrunsB⟩ := Draft.runs_of_compile hb
  obtain ⟨hkind, hinputs, f, hparse, hf, hruns⟩ := runs_of_recompile hc
  rw [hregistry, hconfig] at hfb hrunsB
  obtain rfl := Formula.eq_binary_of_parse_joined hop hparseA hparseB hparse
  refine ⟨hkind, fa.meaning _ (r.seenBy c.inputs), fb.meaning _ (r.seenBy c.inputs),
    rawOn_eq hruns hf, ?_, ?_⟩
  · intro hunseen
    rw [rawOn_eq hrunsA hfa, hinputs]
    exact Formula.meaning_congr fun name hname =>
      seenBy_eq_of_unseen (fun _ => mem_mergeNames) hrunsA hfa hunseen hname
  · intro hunseen
    rw [rawOn_eq hrunsB hfb, hinputs]
    exact Formula.meaning_congr fun name hname =>
      seenBy_eq_of_unseen (fun _ => mem_mergeNames.trans Or.comm) hrunsB hfb hunseen hname

/-- A joined computation has the verdict of its connective, if the joined text keeps the
operands that are needed. -/
theorem verdict_join {op : BinaryOp} {connect : Verdict → Verdict → Verdict}
    {decisive : Verdict} (hop : Connective op connect decisive) (hkindA : a.kind = .bool)
    (hkindB : b.kind = .bool) (hc : join op a b = .ok c) (hkeepsA : a.Keeps b r)
    (hkeepsB : a.verdict r ≠ decisive → b.Keeps a r) :
    c.verdict r = connect (a.verdict r) (b.verdict r) := by
  obtain ⟨hkind, x, y, hraw, hx, hy⟩ :=
    rawOn_join ha hb hregistry hconfig hop.isComparison hc r
  rw [verdict_eq hkind, hraw, hop.of_value, hx hkeepsA.unseen,
    of_rawOn hkindA hkeepsA.unconverted]
  by_cases hdecisive : a.verdict r = decisive
  · rw [hdecisive]
    exact hop.decides _ _
  · rw [hy (hkeepsB hdecisive).unseen, of_rawOn hkindB (hkeepsB hdecisive).unconverted]

/-- A joined computation fails if the conversion would change the value of an operand that
is needed. -/
theorem verdict_join_eq_failed {op : BinaryOp} {connect : Verdict → Verdict → Verdict}
    {decisive : Verdict} (hop : Connective op connect decisive) (hkindA : a.kind = .bool)
    (hc : join op a b = .ok c) (hunseen : a.Unseen b r)
    (hfailed : ¬ Unconverted (a.rawOn r) ∨ a.verdict r ≠ decisive ∧ b.Unseen a r ∧
        ¬ Unconverted (b.rawOn r)) : c.verdict r = .failed := by
  obtain ⟨hkind, x, y, hraw, hx, hy⟩ :=
    rawOn_join ha hb hregistry hconfig hop.isComparison hc r
  rw [verdict_eq hkind, hraw, hop.of_value, hx hunseen]
  rcases hfailed with hconverted | ⟨hdecisive, hunseenB, hconverted⟩
  · rw [Verdict.of_eq_failed hconverted, hop.failed_left]
  · rw [hy hunseenB, Verdict.of_eq_failed hconverted]
    rcases of_rawOn_cases hkindA r with heq | heq
    · rw [heq, hop.failed_right _ hdecisive]
    · rw [heq, hop.failed_left]

end Join

/-- The raw value of a negation is the negated one of its operand. -/
theorem rawOn_not {da : Draft} (ha : da.compile = .ok a) (hc : not a = .ok c)
    (r : NamedRow) :
    c.kind = .bool ∧ c.rawOn r = a.rawOn r >>= fun v => UnaryOp.not.apply v := by
  obtain ⟨fa, hparseA, hfa, hrunsA⟩ := Draft.runs_of_compile ha
  obtain ⟨hkind, hinputs, f, hparse, hf, hruns⟩ := runs_of_recompile hc
  obtain rfl := Formula.eq_not_of_parse_negated hparseA hparse
  refine ⟨hkind, ?_⟩
  rw [rawOn_eq hruns hf, rawOn_eq hrunsA hfa, hinputs]
  rfl

/-- What the connectives make of two computations of truth values. -/
structure Composed (a b : Computation) : Prop where
  /-- A conjunction has the verdict of three-valued conjunction, unless the text changes a
  needed operand. -/
  and_verdict : ∀ c, and a b = .ok c → ∀ r, a.Keeps b r →
    (a.verdict r ≠ .no → b.Keeps a r) → c.verdict r = (a.verdict r).and (b.verdict r)
  /-- A conjunction fails if the conversion would change the value of a needed operand. -/
  and_failed : ∀ c, and a b = .ok c → ∀ r, a.Unseen b r →
    ¬ Unconverted (a.rawOn r) ∨ a.verdict r ≠ .no ∧ b.Unseen a r ∧
    ¬ Unconverted (b.rawOn r) → c.verdict r = .failed
  /-- A disjunction has the verdict of three-valued disjunction, unless the text changes a
  needed operand. -/
  or_verdict : ∀ c, or a b = .ok c → ∀ r, a.Keeps b r → (a.verdict r ≠ .yes → b.Keeps a r) →
    c.verdict r = (a.verdict r).or (b.verdict r)
  /-- A disjunction fails if the conversion would change the value of a needed operand. -/
  or_failed : ∀ c, or a b = .ok c → ∀ r, a.Unseen b r →
    ¬ Unconverted (a.rawOn r) ∨ a.verdict r ≠ .yes ∧ b.Unseen a r ∧
    ¬ Unconverted (b.rawOn r) → c.verdict r = .failed
  /-- A negation has the verdict of three-valued negation. -/
  not_verdict : ∀ c, not a = .ok c → ∀ r, Unconverted (a.rawOn r) →
    c.verdict r = (a.verdict r).not
  /-- A negation fails if the conversion would change the value of its operand. -/
  not_failed : ∀ c, not a = .ok c → ∀ r, ¬ Unconverted (a.rawOn r) → c.verdict r = .failed

/-- **Composition means logic**: joined computations of truth values give what the
three-valued connectives make of the results of their operands, as long as the joined text
does not change an operand that is needed. An operand with inferred inputs sees nothing more
in the joined text. -/
theorem composed {da db : Draft} (ha : da.compile = .ok a) (hb : db.compile = .ok b)
    (hkindA : a.kind = .bool) (hkindB : b.kind = .bool)
    (hregistry : b.registry = a.registry) (hconfig : b.config = a.config) :
    a.Composed b ∧ (da.inputs = none → ∀ r, a.Unseen b r) ∧
      (db.inputs = none → ∀ r, b.Unseen a r) := by
  refine ⟨?_, fun h => unseen_of_inferred ha h b, fun h => unseen_of_inferred hb h a⟩
  constructor
  case and_verdict =>
    exact fun c hc r => verdict_join ha hb hregistry hconfig connective_and hkindA hkindB hc
  case and_failed =>
    exact fun c hc r =>
      verdict_join_eq_failed ha hb hregistry hconfig connective_and hkindA hc
  case or_verdict =>
    exact fun c hc r => verdict_join ha hb hregistry hconfig connective_or hkindA hkindB hc
  case or_failed =>
    exact fun c hc r =>
      verdict_join_eq_failed ha hb hregistry hconfig connective_or hkindA hc
  case not_verdict =>
    intro c hc r hconverted
    obtain ⟨hkind, hraw⟩ := rawOn_not ha hc r
    rw [verdict_eq hkind, hraw, Verdict.of_negated, of_rawOn hkindA hconverted]
  case not_failed =>
    intro c hc r hconverted
    obtain ⟨hkind, hraw⟩ := rawOn_not ha hc r
    rw [verdict_eq hkind, hraw, Verdict.of_negated, Verdict.of_eq_failed hconverted]
    rfl

end Computation

namespace Draft

/-- A draft of a truth computation with the standard functions and settings. -/
def truth (source : String) (inputs : Option (List String)) : Draft :=
  ⟨source, inputs, some .bool, none, .standard⟩

/-- A draft of a truth computation has the standard functions and settings. -/
theorem parts_of_compile_truth {source : String} {inputs : Option (List String)}
    {x : Computation} (h : (truth source inputs).compile = .ok x) :
    x.kind = .bool ∧ x.registry = .standard ∧ x.config = .standard := by
  obtain ⟨-, kind, f, inputs, hkind, -, -, -, -, rfl⟩ := compile_eq_ok.1 h
  cases hkind
  exact ⟨rfl, rfl, rfl⟩

/-- One of two computations has its inputs inferred, and the other lists one more than it
mentions. -/
theorem composed_truth : ∃ a b, (truth "a > 1" none).compile = .ok a ∧
    (truth "b == null" (some ["b", "a"])).compile = .ok b ∧ a.kind = .bool ∧
    b.kind = .bool ∧
    b.registry = a.registry ∧ b.config = a.config ∧ (∃ c, Computation.and a b = .ok c) ∧
    (∃ c, Computation.or a b = .ok c) ∧ (∃ c, Computation.not a = .ok c) ∧ a.Composed b ∧
    ∀ r, a.Unseen b r := by
  obtain ⟨joined, hcompile, -⟩ := exists_of_any_toOption
    (x := do
      let a ← (truth "a > 1" none).compile
      let b ← (truth "b == null" (some ["b", "a"])).compile
      let conjunction ← Computation.and a b
      let disjunction ← Computation.or a b
      let negation ← Computation.not a
      return [conjunction, disjunction, negation])
    (p := fun _ => true) (by decide +kernel)
  obtain ⟨a, ha, hcompile⟩ := bind_eq_ok.1 hcompile
  obtain ⟨b, hb, hcompile⟩ := bind_eq_ok.1 hcompile
  obtain ⟨conjunction, hand, hcompile⟩ := bind_eq_ok.1 hcompile
  obtain ⟨disjunction, hor, hcompile⟩ := bind_eq_ok.1 hcompile
  obtain ⟨negation, hnot, -⟩ := bind_eq_ok.1 hcompile
  obtain ⟨hkindA, hregistryA, hconfigA⟩ := parts_of_compile_truth ha
  obtain ⟨hkindB, hregistryB, hconfigB⟩ := parts_of_compile_truth hb
  have hregistry := hregistryB.trans hregistryA.symm
  have hconfig := hconfigB.trans hconfigA.symm
  obtain ⟨hcomposed, hinferred, -⟩ :=
    Computation.composed ha hb hkindA hkindB hregistry hconfig
  exact ⟨a, b, ha, hb, hkindA, hkindB, hregistry, hconfig, ⟨conjunction, hand⟩,
    ⟨disjunction, hor⟩, ⟨negation, hnot⟩, hcomposed, hinferred rfl⟩

/-- A row with a truth value under "c" and an integer, or null, under every other name. -/
def choiceRow (c : Bool) (n : Option Int64) : NamedRow where
  column name := if name = "c" then .singleton .bool (some c) else .singleton .int64 n
  index := 0
  value name := if name = "c" then .bool c else n.elim .null .int
  value?_eq := by
    intro name
    split
    · rfl
    · cases n <;> rfl

/-- **Joined texts are not joined results**: on both rows both operands hold by themselves.
In the joined text the left one is an integer on the first row, which is no operand of a
connective; and on the second row the right one finds a value under a name that it does not
list. -/
theorem joined_differs : ∃ a b c, (truth "c ? 1 : true" (some ["c", "y"])).compile = .ok a ∧
    (truth "y == null" (some [])).compile = .ok b ∧ Computation.and a b = .ok c ∧
    (a.verdict (choiceRow true none) = .yes ∧ b.verdict (choiceRow true none) = .yes ∧
      c.verdict (choiceRow true none) = .failed) ∧
    a.verdict (choiceRow false (some 5)) = .yes ∧
    b.verdict (choiceRow false (some 5)) = .yes ∧
      c.verdict (choiceRow false (some 5)) = .no := by
  obtain ⟨⟨a, b, c⟩, hcompile, hverdicts⟩ := exists_of_any_toOption
    (x := do
      let a ← (truth "c ? 1 : true" (some ["c", "y"])).compile
      let b ← (truth "y == null" (some [])).compile
      let c ← Computation.and a b
      return (a, b, c))
    (p := fun (a, b, c) =>
      (a.verdict (choiceRow true none) = .yes ∧ b.verdict (choiceRow true none) = .yes ∧
        c.verdict (choiceRow true none) = .failed) ∧
      a.verdict (choiceRow false (some 5)) = .yes ∧
      b.verdict (choiceRow false (some 5)) = .yes ∧
        c.verdict (choiceRow false (some 5)) = .no) (by decide +kernel)
  obtain ⟨a, ha, hcompile⟩ := bind_eq_ok.1 hcompile
  obtain ⟨b, hb, hcompile⟩ := bind_eq_ok.1 hcompile
  obtain ⟨c, hc, ⟨⟩⟩ := bind_eq_ok.1 hcompile
  exact ⟨a, b, c, ha, hb, hc, of_decide_eq_true hverdicts⟩

end Draft

end FormulaTable
