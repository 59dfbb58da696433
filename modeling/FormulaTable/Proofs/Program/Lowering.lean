import FormulaTable.Program.Basic
import FormulaTable.Proofs.Program.Builtin
import FormulaTable.Proofs.Program.Check

/-!
# Programs of permitted formulas

Resolving the names of a formula keeps its shape: as long as every call is permitted, each
node of the formula becomes one node of the program, and the leaves of the program are the
leaves of the formula, each resolved by itself. In particular no call is replaced by null.

* `ofCall_cases` — the three kinds of nodes that a permitted call becomes.
* `mirrors_ofFormula` — the program is the formula, node by node.
* `leaves_ofFormula`, `depth_ofFormula` — the leaves and the depth of a program.
* `exists_of_mem_applications` — the functions that a program applies.
-/

namespace FormulaTable.Program

variable {env : Environment} {inputs : List String}

/-! ### The parts of a program -/

mutual

/-- The leaves of a program, from left to right. -/
def leaves : Program → List Program
  | constant v => [constant v]
  | input position => [input position]
  | absent name => [absent name]
  | unary _ operand => operand.leaves
  | binary _ left right => left.leaves ++ right.leaves
  | conditional condition yes no => condition.leaves ++ yes.leaves ++ no.leaves
  | firstPresent args => leavesOfAll args
  | call _ _ args => leavesOfAll args

/-- The leaves of several programs, from left to right. -/
def leavesOfAll : List Program → List Program
  | [] => []
  | p :: rest => p.leaves ++ leavesOfAll rest

end

mutual

/-- The number of nodes on the longest way down from the root. -/
def depth : Program → Nat
  | constant _ => 1
  | input _ => 1
  | absent _ => 1
  | unary _ operand => operand.depth + 1
  | binary _ left right => max left.depth right.depth + 1
  | conditional condition yes no => max condition.depth (max yes.depth no.depth) + 1
  | firstPresent args => depthOfAll args + 1
  | call _ _ args => depthOfAll args + 1

/-- The depth of the deepest of several programs. -/
def depthOfAll : List Program → Nat
  | [] => 0
  | p :: rest => max p.depth (depthOfAll rest)

end

mutual

/-- The functions that a program applies, wherever they stand, each with the programs of its
arguments. -/
def applications : Program → List (RowFunction × List Program)
  | constant _ => []
  | input _ => []
  | absent _ => []
  | unary _ operand => operand.applications
  | binary _ left right => left.applications ++ right.applications
  | conditional condition yes no => condition.applications ++ yes.applications ++
    no.applications
  | firstPresent args => applicationsOfAll args
  | call _ f args => (f, args) :: applicationsOfAll args

/-- The functions that several programs apply. -/
def applicationsOfAll : List Program → List (RowFunction × List Program)
  | [] => []
  | p :: rest => p.applications ++ applicationsOfAll rest

end

/-- The leaves of several programs are those of each, one after another. -/
theorem leavesOfAll_eq (ps : List Program) : leavesOfAll ps = ps.flatMap leaves := by
  induction ps with
  | nil => rfl
  | cons p ps ih => rw [leavesOfAll, ih, List.flatMap_cons]

/-- The applications in several programs are those in each, one after another. -/
theorem applicationsOfAll_eq (ps : List Program) :
    applicationsOfAll ps = ps.flatMap applications := by
  induction ps with
  | nil => rfl
  | cons p ps ih => rw [applicationsOfAll, ih, List.flatMap_cons]

/-- Formulas are lowered one by one. -/
theorem ofFormulas_eq (ts : List Formula) :
    ofFormulas env inputs ts = ts.map (ofFormula env inputs) := by
  induction ts with
  | nil => rfl
  | cons t ts ih => rw [ofFormulas, ih, List.map_cons]

/-! ### Calls -/

/-- **A permitted call** becomes a ternary, a choice of the first value, or the application
of a function. -/
theorem ofCall_cases {name : String} {args : List Program}
    (h : env.Permits (name, args.length)) :
    (∃ condition yes no, args = [condition, yes, no] ∧
        (env.find? name).map (·.callee) = some .conditional ∧
        ofCall name ((env.find? name).map (·.callee)) args = conditional condition yes no) ∨
    ((env.find? name).map (·.callee) = some .firstPresent ∧
        ofCall name ((env.find? name).map (·.callee)) args = firstPresent args) ∨
    ∃ f callable, env.find? name = some callable ∧ callable.callee = .function f ∧
        callable.count.allows args.length ∧
        ofCall name ((env.find? name).map (·.callee)) args =
          call (Text.foldName name) f args := by
  obtain ⟨callable, hfind, hcount⟩ := h
  have hapt := Environment.isApt_of_find? hfind
  rw [hfind, Option.map_some]
  rw [Callable.isApt] at hapt
  cases hcallee : callable.callee with
  | conditional =>
      rw [hcallee] at hapt
      rw [of_decide_eq_true hapt, ArgumentCount.allows, Bool.and_eq_true] at hcount
      obtain ⟨condition, yes, no, rfl⟩ := List.length_eq_three.1
        (Nat.le_antisymm (of_decide_eq_true hcount.2) (of_decide_eq_true hcount.1))
      exact .inl ⟨condition, yes, no, rfl, rfl, rfl⟩
  | firstPresent => exact .inr (.inl ⟨rfl, rfl⟩)
  | function f => exact .inr (.inr ⟨f, callable, rfl, hcallee, hcount, rfl⟩)

/-- The leaves of a lowered call are those of its arguments. -/
theorem leaves_ofCall {name : String} {args : List Program}
    (h : env.Permits (name, args.length)) :
    (ofCall name ((env.find? name).map (·.callee)) args).leaves = args.flatMap leaves := by
  rcases ofCall_cases h with ⟨c, y, n, rfl, -, heq⟩ | ⟨-, heq⟩ | ⟨f, callable, -, -, -, heq⟩
  · rw [heq, leaves]
    simp
  · rw [heq, leaves, leavesOfAll_eq]
  · rw [heq, leaves, leavesOfAll_eq]

/-- A lowered call is one level deeper than its arguments. -/
theorem depth_ofCall {name : String} {args : List Program}
    (h : env.Permits (name, args.length)) :
    (ofCall name ((env.find? name).map (·.callee)) args).depth = depthOfAll args + 1 := by
  rcases ofCall_cases h with ⟨c, y, n, rfl, -, heq⟩ | ⟨-, heq⟩ | ⟨f, callable, -, -, -, heq⟩
  · rw [heq]
    simp only [depth, depthOfAll, Nat.max_zero]
  · rw [heq, depth]
  · rw [heq, depth]

/-! ### Formulas -/

/-- The program is the formula, node by node, with the names resolved: every call has become
a ternary, a choice of the first value or the application of a function, as its name
demands. -/
inductive Mirrors (env : Environment) (inputs : List String) : Formula → Program → Prop
  | literal (l : Literal) : Mirrors env inputs (.literal l) (constant l.value)
  | input {name : String} {position : Nat} : inputs.idxOf? name = some position →
      Mirrors env inputs (.column name) (input position)
  | absent {name : String} : name ∉ inputs → Mirrors env inputs (.column name) (absent name)
  | unary (op : UnaryOp) {t : Formula} {p : Program} : Mirrors env inputs t p →
      Mirrors env inputs (.unary op t) (unary op p)
  | binary (op : BinaryOp) {l r : Formula} {p q : Program} : Mirrors env inputs l p →
      Mirrors env inputs r q → Mirrors env inputs (.binary op l r) (binary op p q)
  | conditional {c y n : Formula} {p q r : Program} : Mirrors env inputs c p →
      Mirrors env inputs y q →
      Mirrors env inputs n r → Mirrors env inputs (.conditional c y n) (conditional p q r)
  | ternary {name : String} {c y n : Formula} {p q r : Program} :
      (env.find? name).map (·.callee) = some .conditional → Mirrors env inputs c p →
      Mirrors env inputs y q → Mirrors env inputs n r →
      Mirrors env inputs (.call name [c, y, n]) (conditional p q r)
  | firstPresent {name : String} {ts : List Formula} {ps : List Program} :
      (env.find? name).map (·.callee) = some .firstPresent →
        List.Forall₂ (Mirrors env inputs) ts ps →
      Mirrors env inputs (.call name ts) (firstPresent ps)
  | call {name : String} {g : RowFunction} {ts : List Formula} {ps : List Program} :
      (env.find? name).map (·.callee) = some (.function g) →
        List.Forall₂ (Mirrors env inputs) ts ps →
      Mirrors env inputs (.call name ts) (call (Text.foldName name) g ps)

/-- **No call is lost**: the program of a permitted formula mirrors it. -/
theorem mirrors_ofFormula {f : Formula} (h : f.Permitted env) :
    Mirrors env inputs f (ofFormula env inputs f) := by
  induction f using Tree.induction with
  | literal l => exact .literal l
  | column name =>
      rw [ofFormula]
      split
      · next position hposition => exact .input hposition
      · next hnone => exact .absent (List.idxOf?_eq_none_iff.1 hnone)
  | unary op t ih => exact .unary op (ih (Formula.permitted_unary.1 h))
  | binary op l r hl hr =>
      obtain ⟨pl, pr⟩ := Formula.permitted_binary.1 h
      exact .binary op (hl pl) (hr pr)
  | conditional c y n hc hy hn =>
      obtain ⟨⟨pc, py⟩, pn⟩ := Formula.permitted_conditional.1 h
      exact .conditional (hc pc) (hy py) (hn pn)
  | call name ts ih =>
      obtain ⟨pcall, pargs⟩ := Formula.permitted_call.1 h
      have pcall' : env.Permits (name, (ts.map (ofFormula env inputs)).length) := by
        rwa [List.length_map]
      have hargs : List.Forall₂ (Mirrors env inputs) ts (ts.map (ofFormula env inputs)) :=
        List.forall₂_map_right_iff.2 (List.forall₂_same.2 fun t ht => ih t ht (pargs t ht))
      rw [ofFormula, ofFormulas_eq]
      rcases ofCall_cases pcall' with
        ⟨c, y, n, hcyn, hcallee, heq⟩ | ⟨hcallee, heq⟩ | ⟨g, callable, hfind, hg, -, heq⟩
      · rw [heq]
        rw [hcyn] at hargs
        cases hargs with
        | cons hc hargs =>
            cases hargs with
            | cons hy hargs =>
                cases hargs with
                | cons hn hargs =>
                    cases hargs
                    exact .ternary hcallee hc hy hn
      · rw [heq]
        exact .firstPresent hcallee hargs
      · rw [heq]
        refine .call ?_ hargs
        rw [hfind, Option.map_some, hg]

/-- **The leaves of a program** are those of its formula, resolved one by one. -/
theorem leaves_ofFormula {f : Formula} (h : f.Permitted env) :
    (ofFormula env inputs f).leaves = f.leaves.map (ofFormula env inputs) := by
  induction f using Tree.induction with
  | literal l => rfl
  | column name =>
      rw [ofFormula, Tree.leaves, List.map_singleton, ofFormula]
      split <;> rfl
  | unary op t ih => rw [ofFormula, leaves, Tree.leaves, ih (Formula.permitted_unary.1 h)]
  | binary op l r hl hr =>
      obtain ⟨pl, pr⟩ := Formula.permitted_binary.1 h
      rw [ofFormula, leaves, Tree.leaves, List.map_append, hl pl, hr pr]
  | conditional c y n hc hy hn =>
      obtain ⟨⟨pc, py⟩, pn⟩ := Formula.permitted_conditional.1 h
      rw [ofFormula, leaves, Tree.leaves, List.map_append, List.map_append, hc pc,
        hy py, hn pn]
  | call name args ih =>
      obtain ⟨pcall, pargs⟩ := Formula.permitted_call.1 h
      rw [ofFormula, ofFormulas_eq, leaves_ofCall (by rwa [List.length_map]), Tree.leaves,
        Tree.leavesOfAll_eq, List.flatMap_map, List.map_flatMap]
      exact List.flatMap_congr fun t ht => ih t ht (pargs t ht)

/-- A program is as deep as its formula. -/
theorem depth_ofFormula {f : Formula} (h : f.Permitted env) :
    (ofFormula env inputs f).depth = f.depth := by
  induction f using Tree.induction with
  | literal l => rfl
  | column name =>
      rw [ofFormula]
      split <;> rfl
  | unary op t ih => rw [ofFormula, depth, Tree.depth, ih (Formula.permitted_unary.1 h)]
  | binary op l r hl hr =>
      obtain ⟨pl, pr⟩ := Formula.permitted_binary.1 h
      rw [ofFormula, depth, Tree.depth, hl pl, hr pr]
  | conditional c y n hc hy hn =>
      obtain ⟨⟨pc, py⟩, pn⟩ := Formula.permitted_conditional.1 h
      rw [ofFormula, depth, Tree.depth, hc pc, hy py, hn pn]
  | call name args ih =>
      obtain ⟨pcall, pargs⟩ := Formula.permitted_call.1 h
      rw [ofFormula, ofFormulas_eq, depth_ofCall (by rwa [List.length_map]), Tree.depth]
      have hall : depthOfAll (args.map (ofFormula env inputs)) = Tree.depthOfAll args := by
        clear h pcall
        induction args with
        | nil => rfl
        | cons t ts ihs =>
            rw [List.forall_mem_cons] at ih pargs
            rw [List.map_cons, depthOfAll, Tree.depthOfAll, ih.1 pargs.1, ihs ih.2 pargs.2]
      rw [hall]

/-- A function that a program applies is what some name stands for, on a number of arguments
that suits. -/
theorem exists_of_mem_applications {f : Formula} (h : f.Permitted env) {g : RowFunction}
    {args : List Program} (hg : (g, args) ∈ (ofFormula env inputs f).applications) :
    ∃ name callable, env.find? name = some callable ∧ callable.callee = .function g ∧
      callable.count.allows args.length := by
  induction f using Tree.induction with
  | literal l => cases hg
  | column name =>
      rw [ofFormula] at hg
      split at hg <;> cases hg
  | unary op t ih => exact ih (Formula.permitted_unary.1 h) hg
  | binary op l r hl hr =>
      obtain ⟨pl, pr⟩ := Formula.permitted_binary.1 h
      rcases List.mem_append.1 hg with hg | hg
      · exact hl pl hg
      · exact hr pr hg
  | conditional c y n hc hy hn =>
      obtain ⟨⟨pc, py⟩, pn⟩ := Formula.permitted_conditional.1 h
      rw [ofFormula, applications, List.mem_append, List.mem_append] at hg
      rcases hg with (hg | hg) | hg
      · exact hc pc hg
      · exact hy py hg
      · exact hn pn hg
  | call name ts ih =>
      obtain ⟨pcall, pargs⟩ := Formula.permitted_call.1 h
      rw [ofFormula, ofFormulas_eq] at hg
      have hargs : (g, args) ∈ (ts.map (ofFormula env inputs)).flatMap applications →
          ∃ name callable, env.find? name = some callable ∧ callable.callee = .function g ∧
            callable.count.allows args.length := by
        intro hmem
        rw [List.flatMap_map, List.mem_flatMap] at hmem
        obtain ⟨t, ht, hmem⟩ := hmem
        exact ih t ht (pargs t ht) hmem
      have pcall' : env.Permits (name, (ts.map (ofFormula env inputs)).length) := by
        rwa [List.length_map]
      rcases ofCall_cases pcall' with
        ⟨c, y, n, hcyn, -, heq⟩ | ⟨-, heq⟩ | ⟨g', callable, hfind, hcallee, hcount, heq⟩
      · rw [heq, applications] at hg
        refine hargs ?_
        rw [hcyn]
        simpa [List.append_assoc] using hg
      · rw [heq, applications, applicationsOfAll_eq] at hg
        exact hargs hg
      · rw [heq, applications, applicationsOfAll_eq] at hg
        rcases List.mem_cons.1 hg with hhead | hg
        · cases hhead
          exact ⟨name, callable, hfind, hcallee, hcount⟩
        · exact hargs hg

end FormulaTable.Program
