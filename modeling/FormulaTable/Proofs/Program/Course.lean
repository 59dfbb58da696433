import FormulaTable.Proofs.Program.Meaning

/-!
# The course of an evaluation

The evaluation of a program reads leaves and applies operators and functions, one after
another. Its course lists these visits beside the result, up to the failure if there is one.
A ternary, `??` and the choice of the first value only decide what is evaluated next and
leave no visit of their own, so that two programs with the same course evaluate the same
operands, in the same order, and skip the same ones.

* `Program.result_course` — without its visits, the course is the evaluation.
* `Course.firstPresent_cons` — a choice among several courses is a chain of choices between
  two.
* `Program.visits_firstPresent` — the operands that a choice evaluates.
-/

namespace FormulaTable

/-- What an evaluation does: it reads a leaf, or it applies an operator or a function to
values. -/
inductive Visit where
  | constant (v : Value)
  | input (position : Nat)
  | absent (name : String)
  | unary (op : UnaryOp) (operand : Value)
  | binary (op : BinaryOp) (left right : Value)
  | call (name : String) (args : List Value)

/-- The visits of an evaluation, in order, and how it ends. -/
structure Course (α : Type) where
  visits : List Visit
  result : Except RowError α

namespace Course

variable {α β : Type}

/-- A course of one visit. -/
def visit (v : Visit) (result : Except RowError α) : Course α := ⟨[v], result⟩

/-- A course without visits. -/
def still (result : Except RowError α) : Course α := ⟨[], result⟩

/-- One course after another, unless the first one fails. -/
protected def bind (x : Course α) (f : α → Course β) : Course β :=
  match x with
  | ⟨visits, .ok a⟩ => ⟨visits ++ (f a).visits, (f a).result⟩
  | ⟨visits, .error e⟩ => ⟨visits, .error e⟩

instance : Monad Course where
  pure a := still (.ok a)
  bind := Course.bind

/-- Courses go on one after another, however they are bracketed. -/
protected theorem bind_assoc {γ : Type} (x : Course α) (f : α → Course β)
    (g : β → Course γ) :
    (x.bind f).bind g = x.bind fun a => (f a).bind g := by
  obtain ⟨visits, e | a⟩ := x
  · rfl
  · simp only [Course.bind]
    obtain ⟨more, e | b⟩ := f a
    · rfl
    · exact congrArg (Course.mk · _) (List.append_assoc visits more _)

instance : LawfulMonad Course :=
  LawfulMonad.mk' Course
    (fun ⟨visits, result⟩ => by
      cases result with
      | error e => rfl
      | ok a => exact congrArg (Course.mk · _) (List.append_nil visits))
    (fun _ _ => rfl) Course.bind_assoc

/-- The result of a course is that of its steps. -/
theorem result_bind (x : Course α) (f : α → Course β) :
    (x >>= f).result = x.result >>= fun a => (f a).result := by
  obtain ⟨visits, e | a⟩ := x <;> rfl

/-- After a success the course goes on. -/
theorem visits_bind_of_ok {x : Course α} {a : α} (h : x.result = .ok a) (f : α → Course β) :
    (x >>= f).visits = x.visits ++ (f a).visits := by
  obtain ⟨visits, _ | _⟩ := x <;> cases h
  rfl

/-- After a failure the course ends. -/
theorem visits_bind_of_error {x : Course α} {e : RowError} (h : x.result = .error e)
    (f : α → Course β) :
    (x >>= f).visits = x.visits := by
  obtain ⟨visits, _ | _⟩ := x <;> cases h
  rfl

/-- The results of courses in a row are the results of each. -/
theorem result_mapM (xs : List (Course α)) :
    (xs.mapM id).result = (xs.map result).mapM id := by
  induction xs with
  | nil => rfl
  | cons x xs ih =>
      rw [List.mapM_cons, List.map_cons, List.mapM_cons, result_bind]
      simp only [result_bind, ih, id_eq]
      rfl

/-! ### The nodes of a program -/

/-- The course of an infix operator, by the courses of its operands. Only `??` is not
applied itself: it chooses between them. -/
def joined (op : BinaryOp) (left right : Course Value) : Course Value := do
  let l ← left
  match ← still (Program.decided? op l) with
  | some v => return v
  | none =>
    let r ← right
    if op = .coalesce then still (op.apply l r) else visit (.binary op l r) (op.apply l r)

/-- The course of a ternary, by the courses of its parts. -/
def chosen (condition yes no : Course Value) : Course Value := do
  if ← still (Program.branch (← condition)) then yes else no

/-- The course up to the first value that is not null. -/
def firstPresent : List (Course Value) → Course Value
  | [] => return .null
  | x :: rest => do
    let v ← x
    if v.isNull then firstPresent rest else return v

/-- The course of a call of a function, by the courses of its arguments. -/
def called (name : String) (f : RowFunction) (args : List (Course Value)) : Course Value :=
  do
  let values ← args.mapM id
  visit (.call name values) (Program.named name (f.apply values))

/-- The course of a call, by the courses of its arguments. -/
def ofCall (name : String) : Option Callee → List (Course Value) → Course Value
  | some .conditional, [condition, yes, no] => chosen condition yes no
  | some .firstPresent, args => firstPresent args
  | some (.function f), args => called (Text.foldName name) f args
  | _, _ => visit (.constant .null) (.ok .null)

/-- The result of a joined course is the joined value of its parts. -/
theorem result_joined (op : BinaryOp) (x y : Course Value) :
    (joined op x y).result = Formula.joinedValue op x.result y.result := by
  rw [joined, Formula.joinedValue, result_bind]
  refine bind_congr fun l => ?_
  rw [result_bind]
  refine bind_congr fun decision => ?_
  cases decision with
  | some v => rfl
  | none =>
      change (y >>= _).result = _
      rw [result_bind]
      refine bind_congr fun r => ?_
      split <;> rfl

/-- The result of a choice is the chosen value of its parts. -/
theorem result_chosen (c y n : Course Value) :
    (chosen c y n).result = Formula.chosenValue c.result y.result n.result := by
  rw [chosen, Formula.chosenValue, result_bind]
  refine bind_congr fun v => ?_
  rw [result_bind]
  refine bind_congr fun taken => ?_
  split <;> rfl

/-- The result of looking for the first value is the first value among the results. -/
theorem result_firstPresent (xs : List (Course Value)) :
    (firstPresent xs).result = Formula.firstPresentOf (xs.map result) := by
  induction xs with
  | nil => rfl
  | cons x xs ih =>
      rw [firstPresent, List.map_cons, Formula.firstPresentOf, result_bind]
      refine bind_congr fun v => ?_
      rw [← ih]
      split <;> rfl

/-! ### Choices -/

/-- The operator `??` goes on to its right operand where the left one is null. -/
theorem joined_coalesce (x y : Course Value) :
    joined .coalesce x y = x >>= fun v => if v.isNull then y else pure v := by
  rw [joined]
  refine bind_congr fun v => ?_
  -- The first value is either the result or null, and then the second course is all that
  -- remains.
  rw [Program.decided?, still]
  cases hnull : v.isNull with
  | false => rfl
  | true =>
      change (y >>= fun r => still (.ok (if v.isNull then r else v))) = y
      simp only [hnull, if_true]
      exact bind_pure y

/-- The first value of one course is its result. -/
theorem firstPresent_singleton (x : Course Value) : firstPresent [x] = x := by
  have hkeeps : (fun v : Value => if v.isNull then firstPresent [] else pure v) = pure := by
    funext v
    cases v <;> rfl
  rw [firstPresent, hkeeps, bind_pure]

/-- **A choice among several courses is a chain** of choices between two, from the left. -/
theorem firstPresent_cons (x : Course Value) (rest : List (Course Value)) :
    firstPresent (x :: rest) = rest.foldl (joined .coalesce) x := by
  induction rest generalizing x with
  | nil => exact firstPresent_singleton x
  | cons y rest ih =>
      rw [List.foldl_cons, ← ih]
      simp only [firstPresent, joined_coalesce, bind_assoc]
      refine bind_congr fun v => ?_
      cases hnull : v.isNull with
      | true => rfl
      | false => simp [hnull]

end Course

namespace Program

variable {row : List Value}

/-- What the parts of each node hand on to it holds of every program. -/
@[elab_as_elim]
theorem induction {motive : Program → Prop} (constant : ∀ v, motive (constant v))
    (input : ∀ position, motive (input position)) (absent : ∀ name, motive (absent name))
    (unary : ∀ op p, motive p → motive (unary op p))
    (binary : ∀ op p q, motive p → motive q → motive (binary op p q))
    (conditional : ∀ c y n, motive c → motive y → motive n → motive (conditional c y n))
    (firstPresent : ∀ args, (∀ p ∈ args, motive p) → motive (firstPresent args))
    (call : ∀ name f args, (∀ p ∈ args, motive p) → motive (call name f args))
    (p : Program) : motive p :=
  @Program.rec motive (fun ps => ∀ p ∈ ps, motive p) constant input absent unary
    binary conditional
    firstPresent call (fun _ h => nomatch h)
      (fun _ _ head tail => List.forall_mem_cons.2 ⟨head, tail⟩) p

mutual

/-- The course of a program on a row of input values. -/
def course (row : List Value) : Program → Course Value
  | constant v => .visit (.constant v) (.ok v)
  | input position => .visit (.input position) (.ok (row[position]?.getD .null))
  | absent name => .visit (.absent name) (.ok .null)
  | unary op operand => do
    let v ← operand.course row
    .visit (.unary op v) (op.apply v)
  | binary op left right => .joined op (left.course row) (right.course row)
  | conditional condition yes no => .chosen (condition.course row) (yes.course row)
    (no.course row)
  | firstPresent args => .firstPresent (courses row args)
  | call name f args => .called name f (courses row args)

/-- The courses of several programs. -/
def courses (row : List Value) : List Program → List (Course Value)
  | [] => []
  | p :: rest => p.course row :: courses row rest

end

/-- Programs take their courses one by one. -/
theorem courses_eq (ps : List Program) : courses row ps = ps.map (course row) := by
  induction ps with
  | nil => rfl
  | cons p ps ih => rw [courses, ih, List.map_cons]

/-- **Without its visits, the course is the evaluation.** -/
theorem result_course (row : List Value) (p : Program) :
    (p.course row).result = p.eval row := by
  have hresults {ps : List Program} (h : ∀ p ∈ ps, (p.course row).result = p.eval row) :
      (courses row ps).map Course.result = ps.map (eval row) := by
    rw [courses_eq, List.map_map]
    exact List.map_congr_left h
  induction p using induction with
  | constant v => rw [course, eval, Course.visit]
  | input position => rw [course, eval, Course.visit]
  | absent name => rw [course, eval, Course.visit]
  | unary op p ih =>
      rw [course, eval, Course.result_bind, ih]
      rfl
  | binary op p q hp hq => rw [course, eval_binary, Course.result_joined, hp, hq]
  | conditional c y n hc hy hn =>
      rw [course, eval_conditional, Course.result_chosen, hc, hy, hn]
  | firstPresent args ih =>
      rw [course, eval, Course.result_firstPresent, evalFirst_eq, hresults ih]
  | call name f args ih =>
      rw [course, eval, Course.called, Course.result_bind, Course.result_mapM, evalAll_eq,
        hresults ih]
      rfl

/-- The course of a call is made of the courses of its arguments. -/
theorem course_ofCall (name : String) (callee : Option Callee) (ps : List Program) :
    (ofCall name callee ps).course row = .ofCall name callee (ps.map (course row)) := by
  match callee, ps with
  | none, _ => rfl
  | some .conditional, [c, y, n] =>
      rw [ofCall, course, List.map_cons, List.map_cons, List.map_cons, List.map_nil,
        Course.ofCall]
  | some .conditional, [] | some .conditional, [_] | some .conditional, [_, _] => rfl
  | some .conditional, _ :: _ :: _ :: _ :: _ => rfl
  | some .firstPresent, ps => rw [ofCall, course, courses_eq, Course.ofCall]
  | some (.function f), ps => rw [ofCall, course, courses_eq, Course.ofCall]

/-- The operands that a choice evaluates: up to the first one that fails or is not null. -/
def reached (row : List Value) : List Program → List Program
  | [] => []
  | p :: rest =>
    match p.eval row with
    | .ok .null => p :: reached row rest
    | _ => [p]

/-- **A choice evaluates no more than it has to.** -/
theorem visits_firstPresent (ps : List Program) :
    ((firstPresent ps).course row).visits = (reached row ps).flatMap fun p =>
      (p.course row).visits := by
  rw [course]
  induction ps with
  | nil => rfl
  | cons p rest ih =>
      have hresult := result_course row p
      rw [courses, Course.firstPresent, reached]
      split
      · next hnull =>
        rw [hnull] at hresult
        rw [Course.visits_bind_of_ok hresult, List.flatMap_cons, ← ih]
        rfl
      · next hother =>
        rw [List.flatMap_singleton]
        cases hvalue : p.eval row with
        | error e => exact Course.visits_bind_of_error (hresult.trans hvalue) _
        | ok v =>
            rw [Course.visits_bind_of_ok (hresult.trans hvalue)]
            cases v with
            | null => exact absurd hvalue hother
            | int _ | float _ | bool _ | text _ | date _ | timestamp _ =>
                exact List.append_nil _

end Program

end FormulaTable
