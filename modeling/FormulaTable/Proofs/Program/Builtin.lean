import FormulaTable.Program.Callable
import Mathlib.Data.List.Basic

/-!
# Built-in functions and the arguments they read

A built-in function finds its arguments at their positions. `applyAt` takes them from there
and has no result where there is nothing at a position that is read; the numbers of
arguments that formulas are checked for leave no such case.

* `Builtin.applyAt_eq` — nothing is missing on a permitted number of arguments.
* `Environment.isApt_of_find?` — what a name stands for takes the numbers of arguments it is
  made for.
-/

namespace FormulaTable

namespace Builtin

/-- How many arguments a built-in function takes. -/
def count : Builtin → ArgumentCount
  | isNull | isNotNull | abs | floor | ceil | len | convert _ => ⟨1, some 1⟩
  | round => ⟨1, some 2⟩
  | pow | contains | startsWith | endsWith => ⟨2, some 2⟩
  | min | max => ⟨1, none⟩
  | concat => ⟨0, none⟩
  | substr => ⟨2, some 3⟩
  | replace => ⟨3, some 3⟩

/-- A result that is null as soon as an argument is, and takes the arguments from their
positions otherwise. -/
def unlessNullAt (args : List Value) (result : Option (Except RowError Value)) :
    Option (Except RowError Value) :=
  if args.any Value.isNull then some (.ok .null) else result

/-- The value of a built-in function, where the arguments that it needs stand at their
positions. Only `round` and `substr` ask whether they got one more. -/
def applyAt (b : Builtin) (args : List Value) : Option (Except RowError Value) :=
  match b with
  | isNull => do return .ok (.bool (← args[0]?).isNull)
  | isNotNull => do return .ok (.bool !(← args[0]?).isNull)
  | abs => do return absolute (← args[0]?)
  | round =>
    match args[1]? with
    | none => do return roundTo 0 (← args[0]?)
    | some places =>
      match expectPlaces places with
      | .error e => some (.error e)
      | .ok none => some (.ok .null)
      | .ok (some n) => do return roundTo n (← args[0]?)
  | floor => do return rounded "floor" Binary.floor (← args[0]?)
  | ceil => do return rounded "ceil" Binary.ceil (← args[0]?)
  | pow => unlessNullAt args do return power (← args[0]?) (← args[1]?)
  | min => some (extreme "min" .lt args)
  | max => some (extreme "max" .gt args)
  | len => do
    let v ← args[0]?
    return .ok (if v.isNull then .null else .int (Int64.ofNat v.toText.length))
  | concat => some (.ok (.text (String.join (args.map Value.toText))))
  | substr => unlessNullAt args do return substring (← args[0]?) (← args[1]?) args[2]?
  | contains => unlessNullAt args do
    return textTest (fun s p => occursIn p s) (← args[0]?) (← args[1]?)
  | startsWith => unlessNullAt args do
    return textTest (fun s p => p.isPrefixOf s) (← args[0]?) (← args[1]?)
  | endsWith => unlessNullAt args do
    return textTest (fun s p => p.isSuffixOf s) (← args[0]?) (← args[1]?)
  | replace => unlessNullAt args do return replaced (← args[0]?) (← args[1]?) (← args[2]?)
  | convert target => do return (← args[0]?).convert target

/-- Nulls among some arguments decide the result, or leave it as it is. -/
theorem unlessNullAt_some (args : List Value) (result : Except RowError Value) :
    unlessNullAt args (some result) = some (unlessNull args result) := by
  rw [unlessNullAt, unlessNull]
  split <;> rfl

/-- **Nothing is missing** on a permitted number of arguments. -/
theorem applyAt_eq {b : Builtin} {args : List Value} (h : b.count.allows args.length) :
    b.applyAt args = some (b.apply args) := by
  rw [ArgumentCount.allows, Bool.and_eq_true, decide_eq_true_eq] at h
  obtain ⟨hleast, hmost⟩ := h
  cases b with
  | min | max | concat => rfl
  | isNull | isNotNull | abs | floor | ceil | len | convert _ =>
      obtain ⟨v, rfl⟩ :=
        List.length_eq_one_iff.1 (Nat.le_antisymm (of_decide_eq_true hmost) hleast)
      rfl
  | pow | contains | startsWith | endsWith =>
      obtain ⟨x, y, rfl⟩ :=
        List.length_eq_two.1 (Nat.le_antisymm (of_decide_eq_true hmost) hleast)
      exact unlessNullAt_some _ _
  | replace =>
      obtain ⟨s, p, r, rfl⟩ :=
        List.length_eq_three.1 (Nat.le_antisymm (of_decide_eq_true hmost) hleast)
      exact unlessNullAt_some _ _
  | substr =>
      rcases Nat.lt_or_eq_of_le (of_decide_eq_true hmost) with hlt | hthree
      · obtain ⟨s, start, rfl⟩ :=
          List.length_eq_two.1 (Nat.le_antisymm (Nat.le_of_lt_succ hlt) hleast)
        exact unlessNullAt_some _ _
      · obtain ⟨s, start, n, rfl⟩ := List.length_eq_three.1 hthree
        exact unlessNullAt_some _ _
  | round =>
      rcases Nat.lt_or_eq_of_le (of_decide_eq_true hmost) with hlt | htwo
      · obtain ⟨v, rfl⟩ :=
          List.length_eq_one_iff.1 (Nat.le_antisymm (Nat.le_of_lt_succ hlt) hleast)
        rfl
      · obtain ⟨v, places, rfl⟩ := List.length_eq_two.1 htwo
        cases h : expectPlaces places with
        | error e => simp [applyAt, apply, h, bind, Except.bind]
        | ok n => cases n <;> simp [applyAt, apply, h, bind, Except.bind, pure, Except.pure]

end Builtin

/-! ### What names stand for -/

/-- Does the callable take just the numbers of arguments that its way of evaluation is made
for? -/
def Callable.isApt (c : Callable) : Bool :=
  match c.callee with
  | .conditional => c.count = ⟨3, some 3⟩
  | .firstPresent => true
  | .function (.builtin b) => c.count = b.count
  | .function (.registered f) => c.count = ⟨f.arity, some f.arity⟩

/-- All builtins are called with the numbers of arguments that they are made for. -/
theorem Callable.isApt_of_mem_builtins : ∀ entry ∈ builtins, entry.2.isApt = true := by
  decide

/-- What an environment gives for a name is built in, or it is registered under a name that
no built-in function claims. -/
theorem Environment.find?_eq_some {env : Environment} {name : String} {callable : Callable}
    (h : env.find? name = some callable) :
    Callable.builtins.lookup (Text.foldName name) = some callable ∨
      Callable.builtins.lookup (Text.foldName name) = none ∧
        ∃ f ∈ env.registered, Text.sameName f.name name ∧ callable = .ofRegistered f := by
  rw [find?] at h
  cases hb : Callable.builtins.lookup (Text.foldName name) with
  | some c =>
      rw [hb] at h
      exact .inl h
  | none =>
      rw [hb] at h
      obtain ⟨f, hf, rfl⟩ := Option.map_eq_some_iff.1 h
      have hname := List.find?_some hf
      exact .inr ⟨rfl, f, List.mem_of_find?_eq_some hf, hname, rfl⟩

/-- Whatever an environment finds is called with the numbers of arguments that it is made
for. -/
theorem Environment.isApt_of_find? {env : Environment} {name : String} {callable : Callable}
    (h : env.find? name = some callable) : callable.isApt = true := by
  rcases find?_eq_some h with hb | ⟨-, f, -, -, rfl⟩
  · obtain ⟨before, after, heq, -⟩ := List.lookup_eq_some_iff.1 hb
    refine Callable.isApt_of_mem_builtins (Text.foldName name, callable) ?_
    rw [heq]
    exact List.mem_append_right before List.mem_cons_self
  · exact decide_eq_true rfl

end FormulaTable
