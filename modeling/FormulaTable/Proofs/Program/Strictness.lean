import FormulaTable.Proofs.Program.Course

/-!
# Strict evaluation

The operators `&&`, `||` and `??` leave out their right operand where the left one decides.
Strictly, both operands are evaluated first, and the operator is applied to their values.
Leaving out an operand never changes a value: what strict evaluation finds is found without
it too. It saves failures, those of an operand that is not needed, and it adds none. All of
this carries over from one operator to whole programs.

* `Formula.joined_joinedValue` — what comes of a left operand.
* `Formula.joinedValue_of_strictValue`, `Formula.decidedBy_of_joinedValue`,
  `Formula.strictValue_of_joinedValue` — an operator whose operands may fail.
* `Program.shortCircuit_refines` — an operator on two programs.
* `Program.eval_of_evalStrictly` — programs that are strict throughout.
-/

namespace FormulaTable

namespace BinaryOp

/-- The left operand decides the operator, whatever the right one is. -/
def DecidedBy : BinaryOp → Value → Prop
  | .and, v => v = .bool false
  | .or, v => v = .bool true
  | .coalesce, v => v ≠ .null
  | _, _ => False

/-- Where the left operand decides, the operator gives nothing else, if it gives
anything. -/
theorem eq_left_of_decidedBy {op : BinaryOp} {left right v : Value}
    (hleft : op.DecidedBy left) (h : op.apply left right = .ok v) : v = left := by
  cases op with
  | and | or =>
      obtain rfl := hleft
      obtain ⟨_, ⟨⟩, h⟩ := bind_eq_ok.1 h
      obtain ⟨r, -, h⟩ := bind_eq_ok.1 h
      exact (Except.ok.inj h).symm
  | coalesce =>
      cases left with
      | null => exact absurd rfl hleft
      | bool _ | int _ | float _ | text _ | date _ | timestamp _ =>
          exact (Except.ok.inj h).symm
  | add | sub | mul | div | mod | eq | ne | lt | le | gt | ge => exact hleft.elim

end BinaryOp

namespace Formula

/-- The value of an infix operator that looks at both operands. -/
def strictValue (op : BinaryOp) (left right : Except RowError Value) :
    Except RowError Value := do
  op.apply (← left) (← right)

variable {op : BinaryOp} {x y : Except RowError Value} {v : Value} {e : RowError}

/-- A strict operator succeeds if its operands do and it accepts their values. -/
theorem strictValue_eq_ok :
    strictValue op x y = .ok v ↔
      ∃ l, x = .ok l ∧ ∃ r, y = .ok r ∧ op.apply l r = .ok v := by
  simp only [strictValue, bind_eq_ok]

/-- What comes of an operator whose left operand has a value. -/
inductive Joined (op : BinaryOp) (left : Value) (right : Except RowError Value) :
    Except RowError Value → Prop
  /-- The left operand decides, and is the result itself. -/
  | decided : op.DecidedBy left → Joined op left right (.ok left)
  /-- Both operands are needed. -/
  | needed : ¬ op.DecidedBy left → Joined op left right (strictValue op (.ok left) right)
  /-- The operator takes no such left operand; a right one that was not looked at counts as
  null. -/
  | refused : (∀ r, op.apply left r = .error (Value.mismatch op left r)) →
      Joined op left right (.error (Value.mismatch op left .null))

/-- A left operand decides, needs the right one, or is refused together with every right
one. -/
theorem joined_joinedValue (op : BinaryOp) (left : Value) (right : Except RowError Value) :
    Joined op left right (joinedValue op (.ok left) right) := by
  cases op with
  | and =>
      cases left with
      | null => exact .needed nofun
      | bool b =>
          cases b with
          | false => exact .decided rfl
          | true => exact .needed nofun
      | int _ | float _ | text _ | date _ | timestamp _ => exact .refused fun _ => rfl
  | or =>
      cases left with
      | null => exact .needed nofun
      | bool b =>
          cases b with
          | false => exact .needed nofun
          | true => exact .decided rfl
      | int _ | float _ | text _ | date _ | timestamp _ => exact .refused fun _ => rfl
  | coalesce =>
      cases left with
      | null => exact .needed fun h => h rfl
      | bool _ | int _ | float _ | text _ | date _ | timestamp _ => exact .decided nofun
  | add | sub | mul | div | mod | eq | ne | lt | le | gt | ge => exact .needed id

/-- **What both operands give** is what the operator gives, whatever it leaves out. -/
theorem joinedValue_of_strictValue (h : strictValue op x y = .ok v) :
    joinedValue op x y = .ok v := by
  obtain ⟨l, rfl, r, rfl, happly⟩ := strictValue_eq_ok.1 h
  have hjoined := joined_joinedValue op l (.ok r)
  generalize joinedValue op (.ok l) (.ok r) = z at hjoined
  cases hjoined with
  | decided hleft => rw [BinaryOp.eq_left_of_decidedBy hleft happly]
  | needed => exact h
  | refused hrefused =>
      rw [hrefused] at happly
      cases happly

/-- **A saved failure** is one that the left operand, which decided alone, kept from coming
up. -/
theorem decidedBy_of_joinedValue (h : joinedValue op x y = .ok v)
    (hstrict : strictValue op x y = .error e) :
    x = .ok v ∧ op.DecidedBy v := by
  cases x with
  | error e' => cases h
  | ok l =>
      have hjoined := joined_joinedValue op l y
      rw [h] at hjoined
      generalize hz : Except.ok v = z at hjoined
      cases hjoined with
      | decided hleft =>
          cases hz
          exact ⟨rfl, hleft⟩
      | needed =>
          rw [hstrict] at hz
          cases hz
      | refused => cases hz

/-- **No failure is added**: strict evaluation fails as well, in the same way unless the
left operand is refused. -/
theorem strictValue_of_joinedValue (h : joinedValue op x y = .error e) :
    ∃ e', strictValue op x y = .error e' ∧
    (e' = e ∨ ∃ l, x = .ok l ∧ e = Value.mismatch op l .null) := by
  cases x with
  | error e' => exact ⟨e', rfl, .inl (Except.error.inj h)⟩
  | ok l =>
      have hjoined := joined_joinedValue op l y
      rw [h] at hjoined
      generalize hz : Except.error e = z at hjoined
      cases hjoined with
      | decided => cases hz
      | needed => exact ⟨e, hz.symm, .inl rfl⟩
      | refused hrefused =>
          cases hz
          cases y with
          | error e' => exact ⟨e', rfl, .inr ⟨l, rfl, rfl⟩⟩
          | ok r => exact ⟨_, hrefused r, .inr ⟨l, rfl, rfl⟩⟩

end Formula

/-! ### Operators on programs -/

/-- What decides an operator is its value. -/
theorem Program.decided?_of_decidedBy {op : BinaryOp} {v : Value} (h : op.DecidedBy v) :
    decided? op v = .ok (some v) := by
  cases op with
  | and | or =>
      obtain rfl := h
      rfl
  | coalesce =>
      cases v with
      | null => exact absurd rfl h
      | bool _ | int _ | float _ | text _ | date _ | timestamp _ => rfl
  | add | sub | mul | div | mod | eq | ne | lt | le | gt | ge => exact h.elim

/-- Where the left operand decides, its course is the whole course. -/
theorem Course.joined_of_decidedBy {op : BinaryOp} {x : Course Value} {v : Value}
    (hx : x.result = .ok v) (hv : op.DecidedBy v) (y : Course Value) :
    joined op x y = x := by
  obtain ⟨visits, result⟩ := x
  obtain rfl : result = .ok v := hx
  rw [joined]
  show Course.bind ⟨visits, .ok v⟩ _ = _
  rw [Course.bind, Program.decided?_of_decidedBy hv]
  exact congrArg (Course.mk · _) (List.append_nil visits)

namespace Program

/-- Leaving out what is not needed, compared with evaluating both operands of an
operator. -/
structure ShortCircuit (row : List Value) (op : BinaryOp) (p q : Program) : Prop where
  /-- The value that both operands give is found. -/
  value : ∀ v, Formula.strictValue op (p.eval row) (q.eval row) = .ok v →
    (binary op p q).eval row = .ok v
  /-- A value that strict evaluation does not find is that of the left operand, which
  decides. -/
  decided : ∀ v e, (binary op p q).eval row = .ok v →
    Formula.strictValue op (p.eval row) (q.eval row) = .error e →
    p.eval row = .ok v ∧ op.DecidedBy v
  /-- Where the left operand decides, nothing else is evaluated. -/
  alone : ∀ v, p.eval row = .ok v → op.DecidedBy v →
    (binary op p q).course row = p.course row
  /-- Where evaluation fails, strict evaluation fails as well, and for the same reason
  unless the operator takes no such left operand. -/
  failure : ∀ e, (binary op p q).eval row = .error e →
    ∃ e', Formula.strictValue op (p.eval row) (q.eval row) = .error e' ∧
      (e' = e ∨ ∃ l, p.eval row = .ok l ∧ e = Value.mismatch op l .null)

/-- **Leaving out an operand refines strict evaluation**, for every operator, all operands
and every row. -/
theorem shortCircuit_refines (row : List Value) (op : BinaryOp) (p q : Program) :
    ShortCircuit row op p q where
  value v h := by
    rw [eval_binary]
    exact Formula.joinedValue_of_strictValue h
  decided v e h hstrict := by
    rw [eval_binary] at h
    exact Formula.decidedBy_of_joinedValue h hstrict
  alone v h hv := by
    rw [course]
    exact Course.joined_of_decidedBy ((result_course row p).trans h) hv _
  failure e h := by
    rw [eval_binary] at h
    exact Formula.strictValue_of_joinedValue h

/-- A condition that fails, because it divides by zero. -/
def divisionByZero : Program :=
  binary .gt (binary .div (constant (.int 1)) (constant (.int 0))) (constant (.int 1))

/-- A failure that is saved, since the left operand decides. -/
theorem shortCircuit_refines_saved :
    Formula.strictValue .and ((constant (.bool false)).eval []) (divisionByZero.eval []) =
      .error .divisionByZero ∧
      (binary .and (constant (.bool false)) divisionByZero).eval [] = .ok (.bool false) ∧
      (binary .and (constant (.bool false)) divisionByZero).course [] =
        (constant (.bool false)).course [] :=
  ⟨rfl, rfl,
    (shortCircuit_refines [] .and (constant (.bool false)) divisionByZero).alone _ rfl rfl⟩

/-! ### Strict programs -/

mutual

/-- The value of a program whose operators and choices look at all of their operands. A
ternary still takes one of its branches only. -/
def evalStrictly (row : List Value) : Program → Except RowError Value
  | constant v => .ok v
  | input position => .ok (row[position]?.getD .null)
  | absent _ => .ok .null
  | unary op operand => do op.apply (← operand.evalStrictly row)
  | binary op left right => Formula.strictValue op (left.evalStrictly row)
    (right.evalStrictly row)
  | conditional condition yes no =>
    Formula.chosenValue (condition.evalStrictly row) (yes.evalStrictly row)
      (no.evalStrictly row)
  | firstPresent args => do
    let values ← evalAllStrictly row args
    return (values.find? fun v => !v.isNull).getD .null
  | call name f args => do
    let values ← evalAllStrictly row args
    named name (f.apply values)

/-- The values of several programs, unless one fails. -/
def evalAllStrictly (row : List Value) : List Program → Except RowError (List Value)
  | [] => .ok []
  | p :: rest => do
    let v ← p.evalStrictly row
    let others ← evalAllStrictly row rest
    return v :: others

end

variable {row : List Value}

/-- Several programs have the values that they have strictly, if each of them has. -/
theorem forall₂_of_evalAllStrictly {ps : List Program} {vs : List Value}
    (h : ∀ p ∈ ps, ∀ v, p.evalStrictly row = .ok v → p.eval row = .ok v)
    (hvs : evalAllStrictly row ps = .ok vs) :
    List.Forall₂ (fun p v => p.eval row = .ok v) ps vs := by
  induction ps generalizing vs with
  | nil =>
      cases hvs
      exact .nil
  | cons p ps ih =>
      obtain ⟨hp, hps⟩ := List.forall_mem_cons.1 h
      rw [evalAllStrictly] at hvs
      obtain ⟨v, hv, hvs⟩ := bind_eq_ok.1 hvs
      obtain ⟨others, hothers, hvs⟩ := bind_eq_ok.1 hvs
      cases hvs
      exact .cons (hp v hv) (ih hps hothers)

/-- A choice among programs with values is the first of these that is not null. -/
theorem evalFirst_of_forall₂ {ps : List Program} {vs : List Value}
    (h : List.Forall₂ (fun p v => p.eval row = .ok v) ps vs) :
    evalFirst row ps = .ok ((vs.find? fun v => !v.isNull).getD .null) := by
  induction h with
  | nil => rfl
  | @cons p v ps vs hv _ ih =>
      rw [evalFirst, hv, List.find?_cons]
      show (if v.isNull then evalFirst row ps else .ok v) = _
      cases v.isNull with
      | true => exact ih
      | false => rfl

/-- **What a program gives strictly** it gives without looking at more than is needed. -/
theorem eval_of_evalStrictly {p : Program} {v : Value} (h : p.evalStrictly row = .ok v) :
    p.eval row = .ok v := by
  induction p using induction generalizing v with
  | constant w => simpa only [evalStrictly, eval] using h
  | input position => simpa only [evalStrictly, eval] using h
  | absent name => simpa only [evalStrictly, eval] using h
  | unary op p ih =>
      rw [evalStrictly] at h
      obtain ⟨w, hw, h⟩ := bind_eq_ok.1 h
      rw [eval, ih hw]
      exact h
  | binary op p q hp hq =>
      rw [evalStrictly] at h
      obtain ⟨l, hl, r, hr, -⟩ := Formula.strictValue_eq_ok.1 h
      rw [hl, hr] at h
      rw [eval_binary, hp hl, hq hr]
      exact Formula.joinedValue_of_strictValue h
  | conditional c y n hc hy hn =>
      rw [evalStrictly] at h
      obtain ⟨w, hw, h⟩ := bind_eq_ok.1 h
      obtain ⟨taken, htaken, h⟩ := bind_eq_ok.1 h
      rw [eval_conditional, hc hw]
      refine bind_eq_ok.2 ⟨w, rfl, bind_eq_ok.2 ⟨taken, htaken, ?_⟩⟩
      cases taken with
      | true => exact hy h
      | false => exact hn h
  | firstPresent args ih =>
      rw [evalStrictly] at h
      obtain ⟨values, hvalues, h⟩ := bind_eq_ok.1 h
      cases h
      rw [eval]
      exact evalFirst_of_forall₂
        (forall₂_of_evalAllStrictly (fun p hp _ => ih p hp) hvalues)
  | call name f args ih =>
      rw [evalStrictly] at h
      obtain ⟨values, hvalues, h⟩ := bind_eq_ok.1 h
      have hall := forall₂_of_evalAllStrictly (fun p hp _ => ih p hp) hvalues
      have heval : evalAll row args = .ok values := by
        rw [evalAll_eq, mapM_eq_ok, List.forall₂_map_left_iff]
        exact hall
      rw [eval, heval]
      exact h

end Program

end FormulaTable
