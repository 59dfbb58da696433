import FormulaTable.Formula.Phrase
import FormulaTable.Proofs.Result

/-!
# The depth that is foreseen while a formula is built

The formula of a phrase is built from the outside to the inside: the depth of a part is
known before the part is, from the number of links of a chain and the number of prefix
operators. What is foreseen is the depth in the finished formula, so that building it is the
same as resolving it as a tree, where every node is checked at its own depth.

* `build_eq_resolve` — building foresees every depth, in any mixture of phrases.
-/

namespace FormulaTable

namespace Grammar

variable {limit depth : Nat}

/-- Below the limit nothing is resolved. -/
theorem resolve_of_lt (h : limit < depth) (s : Sketch) :
    resolve limit depth s = .error .tooDeep := by
  cases s <;> rw [resolve, if_pos h] <;> rfl

end Grammar

namespace Phrase

open Grammar

variable {limit depth : Nat}

/-- What the parts of each phrase hand on to it holds of every phrase. -/
@[elab_as_elim]
theorem induction {motive : Phrase → Prop} (literal : ∀ l, motive (literal l))
    (column : ∀ name, motive (column name))
    (call : ∀ name args, (∀ p ∈ args, motive p) → motive (call name args))
    (chain : ∀ first links, motive first → (∀ link ∈ links, motive link.2) →
        motive (chain first links))
    (prefixed : ∀ op marks operand, motive operand → motive (prefixed op marks operand))
    (comparison : ∀ op left right, motive left → motive right →
        motive (comparison op left right))
    (conditional : ∀ c y n, motive c → motive y → motive n → motive (conditional c y n))
    (p : Phrase) :
    motive p :=
  @Phrase.rec motive (fun ps => ∀ p ∈ ps, motive p)
    (fun links => ∀ link ∈ links, motive link.2)
    (fun link => motive link.2) literal column call chain prefixed comparison conditional
    (fun _ h => nomatch h) (fun _ _ head tail => List.forall_mem_cons.2 ⟨head, tail⟩)
    (fun _ h => nomatch h) (fun _ _ head tail => List.forall_mem_cons.2 ⟨head, tail⟩)
    (fun _ _ h => h) p

/-- Phrases are sketched one by one. -/
theorem sketchAll_eq (ps : List Phrase) : sketchAll ps = ps.map sketch := by
  induction ps with
  | nil => rfl
  | cons p ps ih => rw [sketchAll, ih, List.map_cons]

/-- Phrases are built as their sketches are resolved, if each of them is. -/
theorem buildAll_eq {ps : List Phrase}
    (h : ∀ p ∈ ps, build limit depth p = resolve limit depth p.sketch) :
    buildAll limit depth ps = resolveAll limit depth (sketchAll ps) := by
  induction ps with
  | nil => rfl
  | cons p ps ih =>
      obtain ⟨hp, hps⟩ := List.forall_mem_cons.1 h
      rw [buildAll, sketchAll, resolveAll, hp, ih hps]

/-- **The operands of a chain** are checked where they end up: the first one as many levels
below the root as there are links, and each later one a level higher. -/
theorem resolve_sketchLinks {links : List (BinaryOp × Phrase)}
    (h : ∀ link ∈ links, ∀ depth,
        build limit depth link.2 = resolve limit depth link.2.sketch)
    (depth : Nat) (left : Sketch) :
    resolve limit depth (sketchLinks left links) =
      (resolve limit (depth + links.length) left >>= fun f =>
        buildLinks limit (depth + links.length) f links) := by
  induction links generalizing left with
  | nil =>
      rw [sketchLinks, List.length_nil, Nat.add_zero]
      exact (bind_pure _).symm
  | cons link links ih =>
      obtain ⟨op, p⟩ := link
      obtain ⟨hp, hlinks⟩ := List.forall_mem_cons.1 h
      have hlevel : depth + (links.length + 1) = depth + links.length + 1 := rfl
      rw [sketchLinks, ih hlinks, List.length_cons, hlevel]
      rcases Nat.lt_or_ge limit (depth + links.length) with hlt | hge
      · rw [resolve_of_lt hlt, resolve_of_lt (Nat.lt_succ_of_lt hlt)]
        rfl
      · rw [resolve, if_neg (Nat.not_lt.2 hge)]
        simp only [buildLinks, hp, bind_assoc, pure_bind, Nat.add_sub_cancel]

/-- An operand after prefix operators is checked below all of them. -/
theorem resolve_prefixed (op : UnaryOp) (marks depth : Nat) (s : Sketch) :
    resolve limit depth (s.prefixed op marks) =
      (resolve limit (depth + marks) s).map (Tree.prefixed op marks) := by
  induction marks generalizing s with
  | zero =>
      rw [Tree.prefixed, Nat.add_zero]
      exact (id_map _).symm
  | succ marks ih =>
      have hlevel : depth + (marks + 1) = depth + marks + 1 := rfl
      rw [Tree.prefixed, ih, hlevel]
      rcases Nat.lt_or_ge limit (depth + marks) with hlt | hge
      · rw [resolve_of_lt hlt, resolve_of_lt (Nat.lt_succ_of_lt hlt)]
        rfl
      · rw [resolve, if_neg (Nat.not_lt.2 hge)]
        cases resolve limit (depth + marks + 1) s <;> rfl

/-- **Building a formula foresees every depth**: it gives the formula, or the first fault,
that resolving the finished tree gives. -/
theorem build_eq_resolve (limit depth : Nat) (p : Phrase) :
    build limit depth p = resolve limit depth p.sketch := by
  induction p using Phrase.induction generalizing depth with
  | literal l =>
      rw [build, sketch, resolve, checkDepth]
      split <;> rfl
  | column name =>
      rw [build, sketch, resolve, checkDepth]
      split <;> rfl
  | call name args ih =>
      rw [build, sketch, resolve, checkDepth, buildAll_eq fun p hp => ih p hp _]
      split <;> rfl
  | chain first links hfirst hlinks =>
      have hsame : ∀ link ∈ links, ∀ depth,
          build limit depth link.2 = resolve limit depth link.2.sketch :=
        fun link hlink depth => hlinks link hlink depth
      rw [build, sketch, resolve_sketchLinks hsame, hfirst]
      rcases Nat.lt_or_ge limit (depth + links.length) with hlt | hge
      · rw [resolve_of_lt hlt, checkDepth, checkDepth, if_pos hlt]
        split <;> rfl
      · rw [checkDepth, checkDepth, if_neg (Nat.not_lt.2 hge), if_neg (by omega)]
        rfl
  | prefixed op marks operand ih =>
      rw [build, sketch, resolve_prefixed, ih]
      rcases Nat.lt_or_ge limit depth with hlt | hge
      · rw [resolve_of_lt (Nat.lt_add_right marks hlt), checkDepth, if_pos hlt]
        rfl
      · rw [checkDepth, if_neg (Nat.not_lt.2 hge)]
        cases resolve limit (depth + marks) operand.sketch <;> rfl
  | comparison op left right hl hr =>
      rw [build, sketch, resolve, checkDepth, hl, hr]
      split <;> rfl
  | conditional c y n hc hy hn =>
      rw [build, sketch, resolve, checkDepth, hc, hy, hn]
      split <;> rfl

end Phrase

end FormulaTable
