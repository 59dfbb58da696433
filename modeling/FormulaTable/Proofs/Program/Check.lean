import FormulaTable.Program.Check
import FormulaTable.Proofs.Formula.Parts
import FormulaTable.Proofs.Result

/-!
# What the check of a formula accepts

A formula passes the check exactly when no node is below the limit and every call in it,
wherever it stands, is one that the environment answers: its name stands for something, and
its number of arguments suits. Whatever the check refuses, it refuses for one of these two
causes.

* `Formula.check_eq_ok` — what passes the check.
* `Formula.isRefusal_of_checkAt` — what the check says about the rest.
* `Formula.checkStack_singleton` — a check without recursion says the same.
-/

namespace FormulaTable

/-- The environment answers a call: the name stands for something that takes so many
arguments. -/
def Environment.Permits (env : Environment) (call : String × Nat) : Prop :=
  ∃ callable, env.find? call.1 = some callable ∧ callable.count.allows call.2

/-- The environment answers every call in the formula, wherever it stands. -/
def Formula.Permitted (env : Environment) (f : Formula) : Prop :=
  ∀ call ∈ f.calls, env.Permits call

/-- The error refuses a formula for what it calls or for its depth. -/
def Error.IsRefusal : Error → Prop
  | .forbiddenCall _ => True
  | .argumentCount _ _ _ => True
  | .nestingTooDeep _ => True
  | _ => False

namespace Formula

variable {env : Environment} {limit depth : Nat}

/-! ### Permitted formulas -/

/-- A prefix operator is permitted if its operand is. -/
theorem permitted_unary {op : UnaryOp} {t : Formula} :
    Permitted env (.unary op t) ↔ Permitted env t := Iff.rfl

/-- An infix operator is permitted if its operands are. -/
theorem permitted_binary {op : BinaryOp} {l r : Formula} :
    Permitted env (.binary op l r) ↔ Permitted env l ∧ Permitted env r :=
      List.forall_mem_append

/-- A ternary is permitted if its parts are. -/
theorem permitted_conditional {c y n : Formula} :
    Permitted env (.conditional c y n) ↔
      (Permitted env c ∧ Permitted env y) ∧ Permitted env n := by
  rw [Permitted, Tree.calls, List.forall_mem_append, List.forall_mem_append]
  rfl

/-- A call is permitted if it is answered and its arguments are permitted. -/
theorem permitted_call {name : String} {args : List Formula} :
    Permitted env (.call name args) ↔ env.Permits (name, args.length) ∧ ∀ t ∈ args,
      Permitted env t := by
  rw [Permitted, Tree.calls, List.forall_mem_cons, Tree.callsOfAll_eq]
  simp only [List.mem_flatMap, forall_exists_index, and_imp]
  exact and_congr_right fun _ => ⟨fun h t ht call hcall => h call t ht hcall,
    fun h call t ht hcall => h t ht call hcall⟩

/-! ### What passes -/

/-- A node passes if it is not below the limit. -/
theorem checkDepth_eq_ok : checkDepth limit depth = .ok () ↔ depth ≤ limit := by
  rw [checkDepth]
  split
  case isTrue h => exact ⟨fun h => (nomatch h), fun h' => absurd h (Nat.not_lt.2 h')⟩
  case isFalse h => exact ⟨fun _ => Nat.not_lt.1 h, fun _ => rfl⟩

/-- A call passes if it is permitted. -/
theorem checkCall_eq_ok {name : String} {count : Nat} :
    checkCall env name count = .ok () ↔ env.Permits (name, count) := by
  rw [checkCall, Environment.Permits]
  cases env.find? name with
  | none => exact ⟨fun h => (nomatch h), fun ⟨_, h, _⟩ => nomatch h⟩
  | some callable =>
      simp only [Option.some.injEq, exists_eq_left']
      split
      case isTrue h => exact ⟨fun _ => h, fun _ => rfl⟩
      case isFalse h => exact ⟨fun h => (nomatch h), fun h' => absurd h' h⟩

/-- Two checks pass if each of them does. -/
theorem bind_unit_eq_ok {x y : Except Error Unit} :
    (x >>= fun _ => y) = .ok () ↔ x = .ok () ∧ y = .ok () := by
  rw [bind_eq_ok]
  exact ⟨fun ⟨_, hx, hy⟩ => ⟨hx, hy⟩, fun ⟨hx, hy⟩ => ⟨(), hx, hy⟩⟩

/-- Several formulas pass if each of them does. -/
theorem checkAllAt_eq_ok {ts : List Formula} :
    checkAllAt env limit depth ts = .ok () ↔
      ∀ t ∈ ts, checkAt env limit depth t = .ok () := by
  induction ts with
  | nil => exact ⟨fun _ _ h => (nomatch h), fun _ => rfl⟩
  | cons t ts ih => rw [checkAllAt, bind_unit_eq_ok, ih, List.forall_mem_cons, and_comm]

/-- **A formula passes the check** exactly if it stays within the limit and all of its calls
are permitted. -/
theorem checkAt_eq_ok {f : Formula} :
    checkAt env limit depth f = .ok () ↔ depth + f.depth ≤ limit + 1 ∧ Permitted env f := by
  induction f using Tree.induction generalizing depth with
  | literal l =>
      rw [checkAt, checkDepth_eq_ok, Tree.depth, Nat.add_le_add_iff_right]
      exact ⟨fun h => ⟨h, fun _ h => (nomatch h)⟩, fun h => h.1⟩
  | column name =>
      rw [checkAt, checkDepth_eq_ok, Tree.depth, Nat.add_le_add_iff_right]
      exact ⟨fun h => ⟨h, fun _ h => (nomatch h)⟩, fun h => h.1⟩
  | unary op t ih =>
      rw [checkAt, bind_unit_eq_ok, checkDepth_eq_ok, ih, permitted_unary, Tree.depth,
        ← and_assoc]
      refine and_congr_left fun _ => ?_
      omega
  | binary op l r hl hr =>
      rw [checkAt, bind_unit_eq_ok, bind_unit_eq_ok, checkDepth_eq_ok, hl, hr,
        permitted_binary, Tree.depth]
      constructor
      · rintro ⟨-, ⟨hr, pr⟩, hl, pl⟩
        exact ⟨by omega, pl, pr⟩
      · rintro ⟨h, pl, pr⟩
        exact ⟨by omega, ⟨by omega, pr⟩, by omega, pl⟩
  | conditional c y n hc hy hn =>
      rw [checkAt, bind_unit_eq_ok, bind_unit_eq_ok, bind_unit_eq_ok,
        checkDepth_eq_ok, hc, hy, hn, permitted_conditional, Tree.depth]
      constructor
      · rintro ⟨-, ⟨hn, pn⟩, ⟨hy, py⟩, hc, pc⟩
        exact ⟨by omega, ⟨pc, py⟩, pn⟩
      · rintro ⟨h, ⟨pc, py⟩, pn⟩
        exact ⟨by omega, ⟨by omega, pn⟩, ⟨by omega, py⟩, by omega, pc⟩
  | call name args ih =>
      rw [checkAt, bind_unit_eq_ok, bind_unit_eq_ok, checkDepth_eq_ok, checkCall_eq_ok,
        checkAllAt_eq_ok, permitted_call, Tree.depth]
      have hdepth : depth + (Tree.depthOfAll args + 1) ≤ limit + 1 ↔
          depth ≤ limit ∧ ∀ t ∈ args, depth + 1 + t.depth ≤ limit + 1 := by
        constructor
        · intro h
          have hall :=
            Tree.depthOfAll_le.1 (show Tree.depthOfAll args ≤ limit - depth by omega)
          exact ⟨by omega, fun t ht => by have := hall t ht; omega⟩
        · rintro ⟨h, hall⟩
          have := Tree.depthOfAll_le.2 fun t ht => show t.depth ≤ limit - depth by
            have := hall t ht; omega
          omega
      rw [hdepth]
      constructor
      · rintro ⟨hd, hcall, hargs⟩
        have hargs' := fun t ht => (ih t ht).1 (hargs t ht)
        exact ⟨⟨hd, fun t ht => (hargs' t ht).1⟩, hcall, fun t ht => (hargs' t ht).2⟩
      · rintro ⟨⟨hd, hargs⟩, hcall, pargs⟩
        exact ⟨hd, hcall, fun t ht => (ih t ht).2 ⟨hargs t ht, pargs t ht⟩⟩

/-- **A formula passes** if it is no deeper than the limit and all its calls are
permitted. -/
theorem check_eq_ok {f : Formula} :
    f.check env limit = .ok () ↔ f.depth ≤ limit ∧ Permitted env f := by
  rw [check, checkAt_eq_ok, Nat.add_comm, Nat.add_le_add_iff_right]

/-! ### What is refused -/

/-- What is refused for its depth is refused. -/
theorem isRefusal_of_checkDepth {e : Error} (h : checkDepth limit depth = .error e) :
    e.IsRefusal := by
  rw [checkDepth] at h
  split at h
  · cases h
    trivial
  · cases h

/-- What is refused for what it calls is refused. -/
theorem isRefusal_of_checkCall {name : String} {count : Nat} {e : Error}
    (h : checkCall env name count = .error e) : e.IsRefusal := by
  rw [checkCall] at h
  split at h
  · cases h
    trivial
  · split at h
    · cases h
    · cases h
      trivial

/-- If what is refused for a part is refused, so is what is refused for several. -/
theorem isRefusal_of_checkAllAt {ts : List Formula} {e : Error}
    (hts : ∀ t ∈ ts, ∀ e, checkAt env limit depth t = .error e → e.IsRefusal)
    (h : checkAllAt env limit depth ts = .error e) : e.IsRefusal := by
  induction ts with
  | nil => cases h
  | cons t ts ih =>
      rw [List.forall_mem_cons] at hts
      rw [checkAllAt] at h
      rcases bind_eq_error.1 h with h | ⟨_, -, h⟩
      · exact ih hts.2 h
      · exact hts.1 e h

/-- What the check refuses, it refuses for a call or for the depth. -/
theorem isRefusal_of_checkAt {f : Formula} {e : Error}
    (h : checkAt env limit depth f = .error e) :
    e.IsRefusal := by
  induction f using Tree.induction generalizing depth e with
  | literal l => exact isRefusal_of_checkDepth h
  | column name => exact isRefusal_of_checkDepth h
  | unary op t ih =>
      rw [checkAt] at h
      rcases bind_eq_error.1 h with h | ⟨_, -, h⟩
      · exact isRefusal_of_checkDepth h
      · exact ih h
  | binary op l r hl hr =>
      rw [checkAt] at h
      rcases bind_eq_error.1 h with h | ⟨_, -, h⟩
      · exact isRefusal_of_checkDepth h
      rcases bind_eq_error.1 h with h | ⟨_, -, h⟩
      · exact hr h
      · exact hl h
  | conditional c y n hc hy hn =>
      rw [checkAt] at h
      rcases bind_eq_error.1 h with h | ⟨_, -, h⟩
      · exact isRefusal_of_checkDepth h
      rcases bind_eq_error.1 h with h | ⟨_, -, h⟩
      · exact hn h
      rcases bind_eq_error.1 h with h | ⟨_, -, h⟩
      · exact hy h
      · exact hc h
  | call name args ih =>
      rw [checkAt] at h
      rcases bind_eq_error.1 h with h | ⟨_, -, h⟩
      · exact isRefusal_of_checkDepth h
      rcases bind_eq_error.1 h with h | ⟨_, -, h⟩
      · exact isRefusal_of_checkCall h
      · exact isRefusal_of_checkAllAt (fun t ht e he => ih t ht he) h

/-- A formula with a call that is not permitted is refused. -/
theorem exists_check_eq_error {f : Formula} (h : ¬ Permitted env f) :
    ∃ e, f.check env limit = .error e ∧ e.IsRefusal := by
  cases hcheck : f.check env limit with
  | ok u => exact absurd (check_eq_ok.1 hcheck).2 h
  | error e => exact ⟨e, rfl, isRefusal_of_checkAt hcheck⟩

/-! ### The check with a stack -/

/-- A node is checked by itself, and then its parts are. -/
theorem checkAt_eq_checkNode_bind (f : Formula) : checkAt env limit depth f =
    checkNode env limit depth f >>=
      fun _ => checkAllAt env limit (depth + 1) f.children := by
  unfold checkNode
  cases f with
  | literal _ | column _ | unary _ _ | binary _ _ _ | call _ _ =>
      rw [checkAt]
      cases checkDepth limit depth <;> rfl
  | conditional c y n =>
      simp only [checkAt, Tree.children, checkAllAt]
      cases checkDepth limit depth with
      | error e => rfl
      | ok u => cases checkAt env limit (depth + 1) n <;> rfl

/-- Formulas on top of a stack are checked before the rest of it, the last one first. -/
theorem checkStack_append {fs : List Formula}
    (hfs : ∀ f ∈ fs, ∀ stack, checkStack env limit ((f, depth) :: stack) =
        checkAt env limit depth f >>= fun _ => checkStack env limit stack)
    (stack : List (Formula × Nat)) :
    checkStack env limit ((fs.map fun f => (f, depth)).reverse ++ stack) =
      checkAllAt env limit depth fs >>= fun _ => checkStack env limit stack := by
  induction fs generalizing stack with
  | nil => rfl
  | cons f fs ih =>
      rw [List.forall_mem_cons] at hfs
      rw [List.map_cons, List.reverse_cons, List.append_assoc,
        List.singleton_append, ih hfs.2, checkAllAt, bind_assoc]
      exact congrArg _ (funext fun _ => hfs.1 stack)

/-- The formula on top of a stack is checked with all of its parts before the rest of the
stack. -/
theorem checkStack_cons (f : Formula) (depth : Nat) (stack : List (Formula × Nat)) :
    checkStack env limit ((f, depth) :: stack) =
      checkAt env limit depth f >>= fun _ => checkStack env limit stack := by
  induction f using Tree.induction_children generalizing depth stack with
  | node f ih =>
      rw [checkStack, checkAt_eq_checkNode_bind, bind_assoc]
      exact congrArg _
        (funext fun _ => checkStack_append (fun child hchild => ih child hchild _) stack)

/-- **Both checks find the same fault first**, or none. -/
theorem checkStack_singleton (f : Formula) :
    checkStack env limit [(f, 1)] = f.check env limit := by
  rw [checkStack_cons, check]
  cases checkAt env limit 1 f with
  | error e => rfl
  | ok u => rw [checkStack]; rfl

end Formula

end FormulaTable
