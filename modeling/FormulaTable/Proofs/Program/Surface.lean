import FormulaTable.Proofs.Computation.Inputs
import FormulaTable.Proofs.Formula.RoundTrip
import FormulaTable.Proofs.Program.Course

/-!
# Surface forms

Some formulas can be written in more than one way: `if(c, t, e)` as `c ? t : e`,
`coalesce(a, b, …)` as `a ?? b ?? …`, `if_null(a, b)` as `a ?? b`, and every name of a
function in upper and lower case. The forms become different programs, a list of arguments
here and a tree of operators there, but wherever one of them stands in a formula, another
may stand instead: every row is evaluated in the same course.

* `Formula.SameForm` — formulas that differ in their surface forms.
* `Formula.SameForm.interchangeable` — what such formulas have in common.
* `Program.ofFormula_foldNames` — the case of the names of functions does not even reach the
  program.
* `Environment.surfaceForms` — forms are interchangeable, in formulas and in computations.
-/

namespace FormulaTable

/-! ### Names of functions -/

/-- What is in lower case stays as it is. -/
theorem toLower_toLower (c : Char) : c.toLower.toLower = c.toLower := by
  by_cases h : 'A'.val ≤ c.val ∧ c.val ≤ 'Z'.val
  · have hlower : c.toLower.val = c.val + ('a'.val - 'A'.val) :=
      congrArg Char.val (dif_pos h)
    refine dif_neg fun hupper => ?_
    have hfirst : 65 ≤ c.val.toNat := h.1
    have hlast : c.val.toNat ≤ 90 := h.2
    have hshift : ('a'.val - 'A'.val).toNat = 32 := rfl
    have hsum : c.toLower.val.toNat = c.val.toNat + 32 := by
      rw [hlower, UInt32.toNat_add]
      omega
    have hbound : c.toLower.val.toNat ≤ 90 := hupper.2
    omega
  · have hsame : c.toLower = c := dif_neg h
    rw [hsame, hsame]

/-- Folding a name again changes nothing. -/
theorem Text.foldName_foldName (name : String) :
    foldName (foldName name) = foldName name := by
  rw [foldName, foldName, String.map_map]
  congr 1
  exact funext toLower_toLower

namespace Environment

variable {env : Environment} {name name' : String}

/-- What a name stands for does not depend on the case of its letters. -/
theorem find?_congr (h : Text.foldName name = Text.foldName name') :
    env.find? name = env.find? name' := by
  rw [find?, find?, h]
  simp only [Text.sameName, h]

/-- A registered function of the same name does not get in the way of a built-in one. -/
theorem find?_builtin {key : String} {callable : Callable}
    (hkey : Callable.builtins.lookup key = some callable) (h : Text.foldName name = key) :
    env.find? name = some callable := by
  rw [find?, h, hkey]
  rfl

/-- The name `if`, in any case of its letters, stands for the ternary. -/
theorem find?_if (h : Text.foldName name = "if") :
    env.find? name = some ⟨.conditional, ⟨3, some 3⟩⟩ :=
  find?_builtin rfl h

/-- The name `coalesce`, in any case of its letters, stands for the first value that is not
null. -/
theorem find?_coalesce (h : Text.foldName name = "coalesce") :
    env.find? name = some ⟨.firstPresent, ⟨1, none⟩⟩ := find?_builtin rfl h

/-- The name `if_null`, in any case of its letters, stands for `??`. -/
theorem find?_if_null (h : Text.foldName name = "if_null") :
    env.find? name = some ⟨.firstPresent, ⟨2, some 2⟩⟩ := find?_builtin rfl h

/-- What is permitted under a name is permitted under it in another case of its letters. -/
theorem permits_congr {count : Nat} (h : Text.foldName name = Text.foldName name') :
    env.Permits (name, count) ↔ env.Permits (name', count) := by
  rw [Permits, Permits, find?_congr h]

/-- A call of `if` is permitted with three arguments. -/
theorem permits_if (h : Text.foldName name = "if") : env.Permits (name, 3) :=
  ⟨_, find?_if h, rfl⟩

/-- A call of `coalesce` is permitted with one argument or more. -/
theorem permits_coalesce (h : Text.foldName name = "coalesce") (rest : Nat) :
    env.Permits (name, rest + 1) :=
  ⟨_, find?_coalesce h, by simp [ArgumentCount.allows]⟩

/-- A call of `if_null` is permitted with two arguments. -/
theorem permits_if_null (h : Text.foldName name = "if_null") : env.Permits (name, 2) :=
  ⟨_, find?_if_null h, rfl⟩

end Environment

/-! ### Forms -/

namespace Formula

/-- `first ?? a ?? b ?? …`, read from the left. -/
def chain (first : Formula) (rest : List Formula) : Formula :=
  rest.foldl (.binary .coalesce) first

/-- Formulas that differ in surface forms, wherever these stand. -/
inductive SameForm : Formula → Formula → Prop where
  | ternary {name : String} (h : Text.foldName name = "if") (c t e : Formula) :
    SameForm (.call name [c, t, e]) (.conditional c t e)
  | choice {name : String} (h : Text.foldName name = "coalesce") (first : Formula)
      (rest : List Formula) :
    SameForm (.call name (first :: rest)) (chain first rest)
  | ifNull {name : String} (h : Text.foldName name = "if_null") (a b : Formula) :
    SameForm (.call name [a, b]) (.binary .coalesce a b)
  | spelling {name name' : String} (h : Text.foldName name = Text.foldName name')
      (args : List Formula) :
    SameForm (.call name args) (.call name' args)
  | refl (f : Formula) : SameForm f f
  | symm {f g : Formula} : SameForm f g → SameForm g f
  | trans {f g k : Formula} : SameForm f g → SameForm g k → SameForm f k
  | unary {f g : Formula} (op : UnaryOp) : SameForm f g →
    SameForm (.unary op f) (.unary op g)
  | binary {l l' r r' : Formula} (op : BinaryOp) :
    SameForm l l' → SameForm r r' → SameForm (.binary op l r) (.binary op l' r')
  | conditional {c c' t t' e e' : Formula} :
    SameForm c c' → SameForm t t' → SameForm e e' →
      SameForm (.conditional c t e) (.conditional c' t' e')
  | argument {f g : Formula} (name : String) (before after : List Formula) :
    SameForm f g →
      SameForm (.call name (before ++ f :: after)) (.call name (before ++ g :: after))

variable {env : Environment} {inputs : List String} {row : List Value}

/-- A chain is permitted if each of its parts is. -/
theorem permitted_chain {first : Formula} {rest : List Formula} :
    (chain first rest).Permitted env ↔ ∀ f ∈ first :: rest, f.Permitted env := by
  rw [chain]
  induction rest generalizing first with
  | nil => simp
  | cons f rest ih =>
      rw [List.foldl_cons, ih, List.forall_mem_cons, permitted_binary, List.forall_mem_cons,
        List.forall_mem_cons, and_assoc]

/-- A chain mentions what its parts mention, one after another. -/
theorem mentions_chain (first : Formula) (rest : List Formula) :
    (chain first rest).mentions = (first :: rest).flatMap Tree.mentions := by
  rw [chain]
  induction rest generalizing first with
  | nil => simp
  | cons f rest ih =>
      rw [List.foldl_cons, ih, List.flatMap_cons, Tree.mentions, List.flatMap_cons,
        List.flatMap_cons, List.append_assoc]

/-- The course of a chain is that of a choice among its members. -/
theorem course_chain (first : Formula) (rest : List Formula) :
    (Program.ofFormula env inputs (chain first rest)).course row =
      .firstPresent
        ((first :: rest).map fun f => (Program.ofFormula env inputs f).course row) := by
  rw [chain, List.map_cons, Course.firstPresent_cons]
  induction rest generalizing first with
  | nil => rfl
  | cons f rest ih =>
      rw [List.foldl_cons, ih, List.map_cons, List.foldl_cons, Program.ofFormula,
        Program.course]

end Formula

namespace Program

variable {env : Environment} {inputs : List String} {row : List Value}

/-- The program of a call does not depend on the case of its name. -/
theorem ofCall_congr {name name' : String} (h : Text.foldName name = Text.foldName name')
    (callee : Option Callee) (ps : List Program) :
    ofCall name callee ps = ofCall name' callee ps := by
  rw [ofCall.eq_def, ofCall.eq_def, h]

/-- A call is lowered in the same way whatever the case of its name. -/
theorem ofFormula_call_congr {name name' : String}
    (h : Text.foldName name = Text.foldName name') (args : List Formula) :
    ofFormula env inputs (.call name args) = ofFormula env inputs (.call name' args) := by
  rw [ofFormula, ofFormula, Environment.find?_congr h, ofCall_congr h]

/-- The course of a call, by the courses of its arguments. -/
theorem course_call (name : String) (args : List Formula) :
    (ofFormula env inputs (.call name args)).course row =
      .ofCall name ((env.find? name).map (·.callee))
        (args.map fun f => (ofFormula env inputs f).course row) := by
  rw [ofFormula, course_ofCall, ofFormulas_eq, List.map_map]
  rfl

end Program

namespace Formula

/-! ### What forms have in common -/

/-- What formulas have in common that differ in surface forms. -/
structure Interchangeable (env : Environment) (f g : Formula) : Prop where
  /-- What they call may be called in both or in none. -/
  permitted_iff : f.Permitted env ↔ g.Permitted env
  /-- They mention the same columns, in the same order. -/
  mentions_eq : f.mentions = g.mentions
  /-- Every row is evaluated in the same course: the same leaves are read, the same
  operators and functions are applied to the same values, in the same order, and the end is
  the same value or the same failure. -/
  course_eq : ∀ inputs row,
    (Program.ofFormula env inputs f).course row =
      (Program.ofFormula env inputs g).course row

section Interchangeable

variable {env : Environment} {name : String} {f f' g g' k k' : Formula}

/-- A call of `if` is interchangeable with a ternary. -/
theorem interchangeable_ternary (h : Text.foldName name = "if") (c t e : Formula) :
    Interchangeable env (.call name [c, t, e]) (.conditional c t e) where
  permitted_iff := by
    rw [permitted_call, permitted_conditional]
    simp [Environment.permits_if h, and_assoc]
  mentions_eq := by simp [Tree.mentions, Tree.mentionsOfAll]
  course_eq inputs row := by
    rw [Program.course_call, Environment.find?_if h, Program.ofFormula, Program.course]
    rfl

/-- A call of `coalesce` is interchangeable with a chain of `??`. -/
theorem interchangeable_choice (h : Text.foldName name = "coalesce") (first : Formula)
    (rest : List Formula) :
    Interchangeable env (.call name (first :: rest)) (chain first rest) where
  permitted_iff := by
    rw [permitted_call, permitted_chain, List.length_cons]
    exact and_iff_right (Environment.permits_coalesce h _)
  mentions_eq := by rw [mentions_chain, Tree.mentions, Tree.mentionsOfAll_eq]
  course_eq inputs row := by
    rw [Program.course_call, Environment.find?_coalesce h, course_chain]
    rfl

/-- A call of `if_null` is interchangeable with `??`. -/
theorem interchangeable_ifNull (h : Text.foldName name = "if_null") (a b : Formula) :
    Interchangeable env (.call name [a, b]) (.binary .coalesce a b) where
  permitted_iff := by
    rw [permitted_call, permitted_binary]
    simp [Environment.permits_if_null h]
  mentions_eq := by simp [Tree.mentions, Tree.mentionsOfAll]
  course_eq inputs row := by
    rw [Program.course_call, Environment.find?_if_null h]
    exact (course_chain a [b]).symm

/-- Calls are interchangeable if their names differ in case only. -/
theorem interchangeable_spelling {name' : String}
    (h : Text.foldName name = Text.foldName name') (args : List Formula) :
    Interchangeable env (.call name args) (.call name' args) where
  permitted_iff := by rw [permitted_call, permitted_call, Environment.permits_congr h]
  mentions_eq := rfl
  course_eq inputs row := by rw [Program.ofFormula_call_congr h]

/-- Interchanging works either way round. -/
theorem Interchangeable.symm (h : Interchangeable env f g) : Interchangeable env g f :=
  ⟨h.permitted_iff.symm, h.mentions_eq.symm,
    fun inputs row => (h.course_eq inputs row).symm⟩

/-- Interchanging may be done twice. -/
theorem Interchangeable.trans (h : Interchangeable env f g) (h' : Interchangeable env g k) :
    Interchangeable env f k :=
  ⟨h.permitted_iff.trans h'.permitted_iff, h.mentions_eq.trans h'.mentions_eq,
    fun inputs row => (h.course_eq inputs row).trans (h'.course_eq inputs row)⟩

/-- The operand of a prefix operator may be interchanged. -/
theorem Interchangeable.unary (op : UnaryOp) (h : Interchangeable env f g) :
    Interchangeable env (.unary op f) (.unary op g) where
  permitted_iff := h.permitted_iff
  mentions_eq := h.mentions_eq
  course_eq inputs row := by
    rw [Program.ofFormula, Program.ofFormula, Program.course, Program.course, h.course_eq]

/-- The operands of an infix operator may be interchanged. -/
theorem Interchangeable.binary (op : BinaryOp) (h : Interchangeable env f f')
    (h' : Interchangeable env g g') :
    Interchangeable env (.binary op f g) (.binary op f' g') where
  permitted_iff := by
    rw [permitted_binary, permitted_binary, h.permitted_iff, h'.permitted_iff]
  mentions_eq := by rw [Tree.mentions, Tree.mentions, h.mentions_eq, h'.mentions_eq]
  course_eq inputs row := by
    rw [Program.ofFormula, Program.ofFormula, Program.course, Program.course, h.course_eq,
      h'.course_eq]

/-- The parts of a ternary may be interchanged. -/
theorem Interchangeable.conditional (hc : Interchangeable env f f')
    (hy : Interchangeable env g g') (hn : Interchangeable env k k') :
    Interchangeable env (.conditional f g k) (.conditional f' g' k') where
  permitted_iff := by
    rw [permitted_conditional, permitted_conditional, hc.permitted_iff, hy.permitted_iff,
      hn.permitted_iff]
  mentions_eq := by
    rw [Tree.mentions, Tree.mentions, hc.mentions_eq, hy.mentions_eq, hn.mentions_eq]
  course_eq inputs row := by
    rw [Program.ofFormula, Program.ofFormula, Program.course, Program.course, hc.course_eq,
      hy.course_eq, hn.course_eq]

/-- An argument of a call may be interchanged. -/
theorem Interchangeable.argument (name : String) (before after : List Formula)
    (h : Interchangeable env f g) :
    Interchangeable env (.call name (before ++ f :: after))
      (.call name (before ++ g :: after)) where
  permitted_iff := by
    rw [permitted_call, permitted_call]
    simp only [List.length_append, List.length_cons, List.forall_mem_append,
      List.forall_mem_cons, h.permitted_iff]
  mentions_eq := by
    rw [Tree.mentions, Tree.mentions, Tree.mentionsOfAll_eq, Tree.mentionsOfAll_eq]
    simp only [List.flatMap_append, List.flatMap_cons, h.mentions_eq]
  course_eq inputs row := by
    rw [Program.course_call, Program.course_call]
    simp only [List.map_append, List.map_cons, h.course_eq]

/-- **Surface forms are interchangeable**, wherever they stand. -/
theorem SameForm.interchangeable (h : f.SameForm g) : Interchangeable env f g := by
  induction h with
  | ternary h c t e => exact interchangeable_ternary h c t e
  | choice h first rest => exact interchangeable_choice h first rest
  | ifNull h a b => exact interchangeable_ifNull h a b
  | spelling h args => exact interchangeable_spelling h args
  | refl f => exact ⟨Iff.rfl, rfl, fun _ _ => rfl⟩
  | symm _ ih => exact ih.symm
  | trans _ _ ih ih' => exact ih.trans ih'
  | unary op _ ih => exact ih.unary op
  | binary op _ _ ihl ihr => exact .binary op ihl ihr
  | conditional _ _ _ ihc iht ihe => exact .conditional ihc iht ihe
  | argument name before after _ ih => exact ih.argument name before after

end Interchangeable

/-! ### The case of names -/

mutual

/-- The formula with the names of its functions in lower case. -/
def foldNames : Formula → Formula
  | .literal l => .literal l
  | .column name => .column name
  | .unary op operand => .unary op (foldNames operand)
  | .binary op left right => .binary op (foldNames left) (foldNames right)
  | .conditional condition yes no => .conditional (foldNames condition) (foldNames yes)
    (foldNames no)
  | .call name args => .call (Text.foldName name) (foldNamesOfAll args)

/-- Several formulas with the names of their functions in lower case. -/
def foldNamesOfAll : List Formula → List Formula
  | [] => []
  | f :: rest => foldNames f :: foldNamesOfAll rest

end

/-- Names are folded in one formula after another. -/
theorem foldNamesOfAll_eq (ts : List Formula) : foldNamesOfAll ts = ts.map foldNames := by
  induction ts with
  | nil => rfl
  | cons t ts ih => rw [foldNamesOfAll, ih, List.map_cons]

/-- All arguments of a call may take other forms. -/
theorem SameForm.call (name : String) {args args' : List Formula}
    (h : List.Forall₂ SameForm args args') :
    SameForm (.call name args) (.call name args') := by
  -- The arguments are replaced from left to right: `before` are those that have been.
  suffices hbefore : ∀ before,
      SameForm (.call name (before ++ args)) (.call name (before ++ args')) from
    hbefore []
  induction h with
  | nil => exact fun before => .refl _
  | @cons f g args args' hfg _ ih =>
      intro before
      have hrest := ih (before ++ [g])
      rw [List.append_assoc, List.append_assoc] at hrest
      exact (hfg.argument name before args).trans hrest

/-- A formula has the same form when its names are folded. -/
theorem sameForm_foldNames (f : Formula) : f.SameForm f.foldNames := by
  induction f using Tree.induction with
  | literal l => exact .refl _
  | column name => exact .refl _
  | unary op t ih => exact .unary op ih
  | binary op l r hl hr => exact .binary op hl hr
  | conditional c y n hc hy hn => exact .conditional hc hy hn
  | call name args ih =>
      rw [foldNames, foldNamesOfAll_eq]
      have hargs : List.Forall₂ SameForm args (args.map foldNames) :=
        List.forall₂_map_right_iff.2 (List.forall₂_same.2 ih)
      exact (SameForm.call name hargs).trans
        (.spelling (Text.foldName_foldName name).symm _)

/-- Formulas that differ in the case of their names only have the same form. -/
theorem sameForm_of_foldNames {f g : Formula} (h : f.foldNames = g.foldNames) :
    f.SameForm g :=
  f.sameForm_foldNames.trans (h ▸ g.sameForm_foldNames.symm)

/-- Folding names leaves the depth of a formula as it is. -/
theorem depth_foldNames (f : Formula) : f.foldNames.depth = f.depth := by
  induction f using Tree.induction with
  | literal l => rfl
  | column name => rfl
  | unary op t ih => rw [foldNames, Tree.depth, Tree.depth, ih]
  | binary op l r hl hr => rw [foldNames, Tree.depth, Tree.depth, hl, hr]
  | conditional c y n hc hy hn => rw [foldNames, Tree.depth, Tree.depth, hc, hy, hn]
  | call name args ih =>
      rw [foldNames, Tree.depth, Tree.depth]
      congr 1
      induction args with
      | nil => rfl
      | cons t ts ihs =>
          rw [List.forall_mem_cons] at ih
          rw [foldNamesOfAll, Tree.depthOfAll, Tree.depthOfAll, ih.1, ihs ih.2]

end Formula

/-- **The case of the names of functions** does not reach the program. -/
theorem Program.ofFormula_foldNames {env : Environment} {inputs : List String}
    (f : Formula) :
    ofFormula env inputs f.foldNames = ofFormula env inputs f := by
  induction f using Tree.induction with
  | literal l => rfl
  | column name => rfl
  | unary op t ih => rw [Formula.foldNames, ofFormula, ofFormula, ih]
  | binary op l r hl hr => rw [Formula.foldNames, ofFormula, ofFormula, hl, hr]
  | conditional c y n hc hy hn => rw [Formula.foldNames, ofFormula, ofFormula, hc, hy, hn]
  | call name args ih =>
      rw [Formula.foldNames, ofFormula_call_congr (Text.foldName_foldName name),
        ofFormula, ofFormula, ofFormulas_eq, ofFormulas_eq, Formula.foldNamesOfAll_eq,
        List.map_map]
      congr 1
      exact List.map_congr_left ih

/-! ### Computations -/

namespace Computation

/-- Two computations that read the same inputs and do the same on every row. -/
structure SameResults (x y : Computation) : Prop where
  inputs_eq : x.inputs = y.inputs
  course_eq : ∀ row, x.program.course row = y.program.course row
  evalRow_eq : ∀ columns row, x.evalRow columns row = y.evalRow columns row
  evaluateRows_eq : ∀ columns rows,
    x.evaluateRows columns rows = y.evaluateRows columns rows
  evaluate_eq : ∀ columns, x.evaluate columns = y.evaluate columns

/-- Computations of the same courses have the same results. -/
theorem sameResults {x y : Computation} (hinputs : x.inputs = y.inputs)
    (hkind : x.kind = y.kind) (hconfig : x.config = y.config)
    (hcourse : ∀ row, x.program.course row = y.program.course row) :
    x.SameResults y := by
  have heval : ∀ row, x.program.eval row = y.program.eval row := fun row => by
    rw [← Program.result_course, ← Program.result_course, hcourse]
  have hrow : ∀ columns row,
      x.evalRow columns row = y.evalRow columns row := fun columns row => by
    simp only [evalRow, readRow, hinputs, heval, hkind]
  have hrows : ∀ columns rows,
      x.evaluateRows columns rows = y.evaluateRows columns rows := fun columns rows =>
    evaluateRows_congr hkind hconfig (by simp only [checkInputs, hinputs]) fun row _ =>
      hrow columns row
  exact ⟨hinputs, hcourse, hrow, hrows, fun columns => hrows columns _⟩

end Computation

namespace Draft

/-- The draft of another text. -/
def withText (d : Draft) (text : String) : Draft := { d with source := text }

/-- Which inputs are chosen depends on what the formula mentions. -/
theorem chooseInputs_congr {given : Option (List String)} {f g : Formula}
    (h : f.mentions = g.mentions) :
    chooseInputs given f = chooseInputs given g := by
  rw [chooseInputs.eq_def, chooseInputs.eq_def, Tree.columns, Tree.columns, h]

/-- Texts of interchangeable formulas become computations with the same results. -/
theorem sameResults_of_compile {d : Draft} {text text' : String} {f g : Formula}
    {x y : Computation} (hf : Formula.parse d.config.depthLimit text = .ok f)
    (hg : Formula.parse d.config.depthLimit text' = .ok g)
    (hfg : f.Interchangeable (environment (d.registry.getD .standard) d.config) g)
    (hx : (d.withText text).compile = .ok x) (hy : (d.withText text').compile = .ok y) :
    x.SameResults y := by
  obtain ⟨-, kind, f', inputs, hkind, -, hparse, -, hinputs, rfl⟩ := compile_eq_ok.1 hx
  obtain ⟨-, kind', g', inputs', hkind', -, hparse', -, hinputs', rfl⟩ := compile_eq_ok.1 hy
  obtain rfl : f = f' := Except.ok.inj (hf.symm.trans hparse)
  obtain rfl : g = g' := Except.ok.inj (hg.symm.trans hparse')
  obtain rfl : kind = kind' := Option.some.inj (hkind.symm.trans hkind')
  rw [chooseInputs_congr hfg.mentions_eq] at hinputs
  obtain rfl : inputs = inputs' := Except.ok.inj (hinputs.symm.trans hinputs')
  exact Computation.sameResults rfl rfl rfl (hfg.course_eq inputs)

/-- A text of a formula compiles if a text of the same formula does that passes the check
alike. -/
theorem exists_compile {d : Draft} {text text' : String} {f g : Formula} {x : Computation}
    (hf : Formula.parse d.config.depthLimit text = .ok f)
    (hg : Formula.parse d.config.depthLimit text' = .ok g)
    (hmentions : f.mentions = g.mentions)
    (hcheck : f.check (environment (d.registry.getD .standard) d.config)
        d.config.depthLimit = .ok () → g.check
        (environment (d.registry.getD .standard) d.config) d.config.depthLimit = .ok ())
    (hx : (d.withText text).compile = .ok x) : ∃ y, (d.withText text').compile = .ok y := by
  obtain ⟨-, kind, f', inputs, hkind, hvalid, hparse, hok, hinputs, -⟩ := compile_eq_ok.1 hx
  obtain rfl : f = f' := Except.ok.inj (hf.symm.trans hparse)
  rw [chooseInputs_congr hmentions] at hinputs
  exact ⟨_, compile_eq_ok.2 ⟨Formula.isBlankText_of_parse hg, kind, g, inputs, hkind,
      hvalid, hg, hcheck hok,
    hinputs, rfl⟩⟩

end Draft

namespace Environment

/-- Where formulas may call what is in the environment, the surface forms of a formula are
interchangeable. -/
structure SurfaceForms (env : Environment) : Prop where
  /-- Forms that differ anywhere in a formula are accepted, read columns and evaluate rows
  alike. -/
  alike : ∀ f g : Formula, f.SameForm g → f.Interchangeable env g
  /-- In particular every row has the same value in both, or the same failure. -/
  eval_eq : ∀ f g : Formula, f.SameForm g → ∀ inputs row,
    (Program.ofFormula env inputs f).eval row = (Program.ofFormula env inputs g).eval row
  /-- A choice among operands and a chain of `??` evaluate the same operands: up to the
  first one that fails or is not null. -/
  operands : ∀ inputs row name first rest, Text.foldName name = "coalesce" →
    ∀ f ∈ [.call name (first :: rest), Formula.chain first rest],
      ((Program.ofFormula env inputs f).course row).visits =
        (Program.reached row ((first :: rest).map (Program.ofFormula env inputs))).flatMap
          fun p =>
          (p.course row).visits
  /-- The case of the names of functions decides neither what is accepted nor what it
  becomes. -/
  spelling : ∀ f g : Formula, f.foldNames = g.foldNames →
    (∀ limit, f.check env limit = .ok () ↔ g.check env limit = .ok ()) ∧
      ∀ inputs, Program.ofFormula env inputs f = Program.ofFormula env inputs g
  /-- Nor does it decide what compiles. -/
  recased : ∀ (d : Draft) (text text' : String) (f g : Formula) (x : Computation),
    Draft.environment (d.registry.getD .standard) d.config = env →
    Formula.parse d.config.depthLimit text = .ok f →
    Formula.parse d.config.depthLimit text' = .ok g →
    f.foldNames = g.foldNames → (d.withText text).compile = .ok x →
      ∃ y, (d.withText text').compile = .ok y
  /-- Texts that are read as formulas in different forms become computations with the same
  inputs and the same results. -/
  compiled : ∀ (d : Draft) (text text' : String) (f g : Formula) (x y : Computation),
    Draft.environment (d.registry.getD .standard) d.config = env →
    Formula.parse d.config.depthLimit text = .ok f →
    Formula.parse d.config.depthLimit text' = .ok g →
    f.SameForm g → (d.withText text).compile = .ok x → (d.withText text').compile = .ok y →
    x.SameResults y

/-- Formulas that differ in the case of names pass the check alike. -/
theorem check_congr {f g : Formula} (h : f.foldNames = g.foldNames) (limit : Nat) :
    f.check env limit = .ok () ↔ g.check env limit = .ok () := by
  have hdepth : f.depth = g.depth := by
    rw [← Formula.depth_foldNames, h, Formula.depth_foldNames]
  rw [Formula.check_eq_ok, Formula.check_eq_ok, hdepth,
    (Formula.sameForm_of_foldNames h).interchangeable.permitted_iff]

/-- What a call of `coalesce` evaluates. -/
theorem visits_choice {inputs : List String} {row : List Value} {name : String}
    (h : Text.foldName name = "coalesce") (args : List Formula) :
    ((Program.ofFormula env inputs (.call name args)).course row).visits =
      (Program.reached row (args.map (Program.ofFormula env inputs))).flatMap fun p =>
        (p.course row).visits := by
  rw [Program.ofFormula, find?_coalesce h, Program.ofFormulas_eq]
  exact Program.visits_firstPresent _

/-- **Surface forms are interchangeable**: a function and the operator like it, and the
names of functions in upper and lower case. -/
theorem surfaceForms (env : Environment) : env.SurfaceForms where
  alike f g h := h.interchangeable
  eval_eq f g h inputs row := by
    rw [← Program.result_course, ← Program.result_course, h.interchangeable.course_eq]
  operands inputs row name first rest hname f hf := by
    rcases List.mem_pair.1 hf with rfl | rfl
    · exact visits_choice hname _
    · rw [← (Formula.interchangeable_choice hname first rest).course_eq]
      exact visits_choice hname _
  spelling f g h := by
    refine ⟨check_congr h, fun inputs => ?_⟩
    rw [← Program.ofFormula_foldNames, h, Program.ofFormula_foldNames]
  recased d text text' f g x henv hf hg h hx := by
    have hforms : f.Interchangeable env g :=
      (Formula.sameForm_of_foldNames h).interchangeable
    subst henv
    exact Draft.exists_compile hf hg hforms.mentions_eq (check_congr h _).1 hx
  compiled d text text' f g x y henv hf hg h hx hy :=
    Draft.sameResults_of_compile hf hg (henv ▸ h.interchangeable) hx hy

end Environment

/-! ### A formula in two forms -/

namespace Formula

/-- What is written is read back within every limit that the text and the formula keep. -/
theorem parse_render_of_within {f : Formula} (h : f.Writable) {limit : Nat}
    (hwithin : Nesting.within limit f.render.toList = true) (hdepth : f.depth ≤ limit) :
    parse limit f.render = .ok f := by
  have hread := Grammar.read_write (f.map Literal.written)
  rw [← ofText_render h] at hread
  exact parse_eq_ok.2 ⟨hwithin, _, hread,
    Grammar.resolve_written h.leaves (Nat.succ_le_succ hdepth)⟩

/-- A choice between two choices, with calls. -/
def choiceByCalls : Formula :=
  .call "IF" [.binary .gt (.column "a") (.literal (.int 0)),
    .call "Coalesce" [.column "b", .column "c",
      .binary .div (.literal (.int 1)) (.literal (.int 0))],
    .call "if_null" [.column "c", .call "LEN" [.column "s"]]]

/-- The same choice with operators. -/
def choiceByOperators : Formula :=
  .conditional (.binary .gt (.column "a") (.literal (.int 0)))
    (.binary .coalesce (.binary .coalesce (.column "b") (.column "c"))
      (.binary .div (.literal (.int 1)) (.literal (.int 0))))
    (.binary .coalesce (.column "c") (.call "len" [.column "s"]))

/-- A choice that is written by calls has the form of one that is written by operators. -/
theorem sameForm_choice : choiceByCalls.SameForm choiceByOperators := by
  have hif : Text.foldName "IF" = "if" := by decide +kernel
  have hcoalesce : Text.foldName "Coalesce" = "coalesce" := by decide +kernel
  have hifNull : Text.foldName "if_null" = "if_null" := by decide +kernel
  have hupper : Text.foldName "LEN" = "len" := by decide +kernel
  have hlower : Text.foldName "len" = "len" := by decide +kernel
  refine (SameForm.ternary hif _ _ _).trans (.conditional (.refl _) ?yes ?no)
  case yes => exact .choice hcoalesce _ [_, _]
  case no =>
    exact (SameForm.ifNull hifNull _ _).trans
      (.binary _ (.refl _) (.spelling (hupper.trans hlower.symm) _))

end Formula

namespace Draft

/-- A draft of numbers, without its text. -/
def ofNumbers : Draft := ⟨"", none, some .float64, none, .standard⟩

open Formula in
/-- Both ways to write a choice compile, and have the same inputs and results. -/
theorem surfaceForms_choice :
    ∃ x y, (ofNumbers.withText choiceByCalls.render).compile = .ok x ∧
    (ofNumbers.withText choiceByOperators.render).compile = .ok y ∧
    x.inputs = ["a", "b", "c", "s"] ∧ x.SameResults y := by
  obtain ⟨x, hx, hinputs⟩ :=
    exists_of_any_toOption (x := (ofNumbers.withText choiceByCalls.render).compile)
    (p := fun x => x.inputs == ["a", "b", "c", "s"]) (by decide +kernel)
  obtain ⟨y, hy, -⟩ :=
    exists_of_any_toOption (x := (ofNumbers.withText choiceByOperators.render).compile)
    (p := fun _ => true) (by decide +kernel)
  have hreadCalls : parse ofNumbers.config.depthLimit choiceByCalls.render =
      .ok choiceByCalls :=
    parse_render_of_within ⟨by decide +kernel, by decide +kernel⟩ (by decide +kernel)
      (by decide +kernel)
  have hreadOperators : parse ofNumbers.config.depthLimit choiceByOperators.render =
      .ok choiceByOperators :=
    parse_render_of_within ⟨by decide +kernel, by decide +kernel⟩ (by decide +kernel)
      (by decide +kernel)
  have hforms := Environment.surfaceForms
    (environment (ofNumbers.registry.getD .standard) ofNumbers.config)
  exact ⟨x, y, hx, hy, beq_iff_eq.1 hinputs,
    hforms.compiled ofNumbers _ _ _ _ x y rfl hreadCalls hreadOperators
      sameForm_choice hx hy⟩

example : Formula.choiceByOperators.render =
    " `a` > 0 ? `b` ?? `c` ?? 1 / 0 : `c` ?? len ( `s` ) " := by
  decide +kernel

end Draft

end FormulaTable
