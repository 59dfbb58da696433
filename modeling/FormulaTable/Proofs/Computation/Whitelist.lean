import FormulaTable.Proofs.Computation.Compile
import FormulaTable.Proofs.Formula.Reading
import FormulaTable.Proofs.Program.Lowering

/-!
# What a compiled formula can call

The text of a formula comes from outside. Only the built-in functions and, where the
settings allow it, the registered functions that treat every row by itself can be called
from it; a formula with any other call in it does not compile, wherever the call stands.

* `Draft.guarded` — a draft compiles to a program of permitted calls, or not at all.
-/

namespace FormulaTable

/-- What the name of a call may stand for. A built-in function comes before a registered one
of the same name. -/
inductive Whitelisted (registry : Registry) (config : Config) (name : String) :
    Callable → Prop
  | builtin {c : Callable} : Callable.builtins.lookup (Text.foldName name) = some c →
      Whitelisted registry config name c
  | registered {f : SeriesFunction} : Callable.builtins.lookup (Text.foldName name) = none →
      config.callsRegistry = true → f ∈ registry.entries.map (·.2) →
      f.category ≠ .aggregate →
      Text.sameName f.name name = true → Whitelisted registry config name (.ofRegistered f)

/-- The name of a call stands for something that takes so many arguments. -/
def Answered (registry : Registry) (config : Config) (call : String × Nat) : Prop :=
  ∃ c, Whitelisted registry config call.1 c ∧ c.count.allows call.2

/-- Only those registered functions are available that the settings admit and that are no
aggregates. -/
theorem mem_environment {registry : Registry} {config : Config} {f : SeriesFunction} :
    f ∈ (Draft.environment registry config).registered ↔
      config.callsRegistry = true ∧ f ∈ registry.entries.map (·.2) ∧
        f.category ≠ .aggregate := by
  rw [Draft.environment]
  cases config.callsRegistry with
  | false => simp [Environment.permitting]
  | true =>
      simp [Environment.permitting, Registry.elementwise, FunctionCategory.isElementwise]

/-- What the environment of a draft gives for a name is whitelisted. -/
theorem whitelisted_of_find? {registry : Registry} {config : Config} {name : String}
    {c : Callable} (h : (Draft.environment registry config).find? name = some c) :
    Whitelisted registry config name c := by
  rcases Environment.find?_eq_some h with hb | ⟨hb, f, hf, hname, rfl⟩
  · exact .builtin hb
  · obtain ⟨hcalls, hmem, hcategory⟩ := mem_environment.1 hf
    exact .registered hb hcalls hmem hcategory hname

/-- What the environment permits is a builtin or a registered function. -/
theorem answered_of_permits {registry : Registry} {config : Config} {call : String × Nat}
    (h : (Draft.environment registry config).Permits call) :
    Answered registry config call := by
  obtain ⟨c, hfind, hcount⟩ := h
  exact ⟨c, whitelisted_of_find? hfind, hcount⟩

namespace Program

/-- A list of programs gives one value each. -/
theorem length_of_evalAll {row : List Value} {ps : List Program} {vs : List Value}
    (h : evalAll row ps = .ok vs) : vs.length = ps.length := by
  induction ps generalizing vs with
  | nil =>
      cases h
      rfl
  | cons p ps ih =>
      rw [evalAll] at h
      obtain ⟨v, -, h⟩ := bind_eq_ok.1 h
      obtain ⟨others, hothers, ⟨⟩⟩ := bind_eq_ok.1 h
      rw [List.length_cons, List.length_cons, ih hothers]

/-- A built-in function finds all arguments that it reads, wherever a permitted program
applies it. -/
theorem applyAt_of_mem_applications {env : Environment} {inputs : List String} {f : Formula}
    (h : f.Permitted env) {b : Builtin} {args : List Program}
    (hb : (.builtin b, args) ∈ (ofFormula env inputs f).applications)
    {row values : List Value} (hvalues : evalAll row args = .ok values) :
    b.applyAt values = some (b.apply values) := by
  obtain ⟨name, c, hfind, hcallee, hcount⟩ := exists_of_mem_applications h hb
  have hapt := Environment.isApt_of_find? hfind
  rw [Callable.isApt, hcallee] at hapt
  rw [of_decide_eq_true hapt, ← length_of_evalAll hvalues] at hcount
  exact Builtin.applyAt_eq hcount

end Program

namespace Draft

/-- A draft lets only whitelisted calls through. -/
structure Guarded (d : Draft) : Prop where
  /-- What compiles is a formula with no other calls in it. -/
  answered : ∀ x, d.compile = .ok x →
    ∃ f, Formula.parse d.config.depthLimit d.source = .ok f ∧
    (∀ call ∈ f.calls, Answered (d.registry.getD .standard) d.config call) ∧
    -- Each call of the formula is one in the program; none has become a null.
    Program.Mirrors (environment (d.registry.getD .standard) d.config) x.inputs f x.program
  /-- The program is not too deep. -/
  depth_le : ∀ x, d.compile = .ok x → x.program.depth ≤ d.config.depthLimit
  /-- No built-in function misses an argument. -/
  applied : ∀ x, d.compile = .ok x → ∀ b args, (.builtin b, args) ∈ x.program.applications →
    ∀ row values, Program.evalAll row args = .ok values →
      b.applyAt values = some (b.apply values)
  /-- A text that is read as a formula with any other call in it, whatever the limit, is
  refused. -/
  refused : ∀ kind limit f, d.kind = some kind → d.config.validate = .ok () →
    Formula.parse limit d.source = .ok f → ∀ call ∈ f.calls,
    ¬ Answered (d.registry.getD .standard) d.config call →
      ∃ e, d.compile = .error e ∧ e.IsRefusal

section Refused

variable {d : Draft} {kind : Kind} {e : Error} (hblank : Text.isBlankText d.source = false)
  (hkind : d.kind = some kind) (hvalid : d.config.validate = .ok ())

include hblank hkind hvalid

/-- A draft fails with the fault of its text. -/
theorem compile_eq_error_of_parse
    (hparse : Formula.parse d.config.depthLimit d.source = .error e) :
    d.compile = .error e := by
  rw [compile, hblank, hkind]
  exact bind_eq_error.2 (.inr ⟨(), hvalid, bind_eq_error.2 (.inl hparse)⟩)

/-- A draft fails with the fault that the check finds in its formula. -/
theorem compile_eq_error_of_check {f : Formula}
    (hparse : Formula.parse d.config.depthLimit d.source = .ok f)
    (hcheck : f.check (environment (d.registry.getD .standard) d.config)
        d.config.depthLimit = .error e) :
    d.compile = .error e := by
  rw [compile, hblank, hkind]
  refine bind_eq_error.2 (.inr ⟨(), hvalid, ?_⟩)
  exact bind_eq_error.2 (.inr ⟨f, hparse, bind_eq_error.2 (.inl hcheck)⟩)

end Refused

/-- **The whitelist cannot be bypassed**: a draft compiles to a program of permitted calls,
or it does not compile. -/
theorem guarded (d : Draft) : d.Guarded where
  answered := by
    intro x hx
    obtain ⟨-, kind, f, inputs, -, -, hparse, hcheck, -, rfl⟩ := compile_eq_ok.1 hx
    have hpermitted := (Formula.check_eq_ok.1 hcheck).2
    exact ⟨f, hparse, fun call hcall => answered_of_permits (hpermitted call hcall),
      Program.mirrors_ofFormula hpermitted⟩
  depth_le := by
    intro x hx
    obtain ⟨-, kind, f, inputs, -, -, -, hcheck, -, rfl⟩ := compile_eq_ok.1 hx
    obtain ⟨hdepth, hpermitted⟩ := Formula.check_eq_ok.1 hcheck
    rwa [Program.depth_ofFormula hpermitted]
  applied := by
    intro x hx b args hb row values hvalues
    obtain ⟨-, kind, f, inputs, -, -, -, hcheck, -, rfl⟩ := compile_eq_ok.1 hx
    exact Program.applyAt_of_mem_applications (Formula.check_eq_ok.1 hcheck).2 hb hvalues
  refused := by
    intro kind limit f hkind hvalid hparse call hcall hunanswered
    have hblank := Formula.isBlankText_of_parse hparse
    rcases Formula.parse_of_parse hparse d.config.depthLimit with hparse | hdeep
    · have hpermitted : ¬ f.Permitted (environment (d.registry.getD .standard) d.config) :=
        fun h => hunanswered (answered_of_permits (h call hcall))
      obtain ⟨e, hcheck, he⟩ := Formula.exists_check_eq_error hpermitted
      exact ⟨e, compile_eq_error_of_check hblank hkind hvalid hparse hcheck, he⟩
    · exact ⟨_, compile_eq_error_of_parse hblank hkind hvalid hdeep, trivial⟩

end Draft

end FormulaTable
