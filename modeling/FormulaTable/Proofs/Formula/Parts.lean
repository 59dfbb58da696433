import FormulaTable.Formula.Basic
import Mathlib.Data.List.Basic
import Mathlib.Data.List.Induction

/-!
# The parts of a formula

A formula is a tree whose leaves are constants and names of columns; above them stand
operators, ternaries and calls. This module lists the leaves and the calls of a tree, both
from left to right and wherever they stand, and gives the induction that treats the
arguments of a call like the other parts.

* `Tree.induction` — what the parts of each node hand on to it holds of every tree.
* `Tree.induction_children` — the same over all parts of a node at once.
* `Tree.pairwise_columns` — the columns of a tree stand in the order in which they are first
  mentioned.
-/

namespace FormulaTable.Tree

variable {α : Type}

/-- What the parts of each node hand on to it holds of every tree. -/
@[elab_as_elim]
theorem induction {motive : Tree α → Prop} (literal : ∀ l, motive (literal l))
    (column : ∀ name, motive (column name)) (unary : ∀ op t, motive t → motive (unary op t))
    (binary : ∀ op l r, motive l → motive r → motive (binary op l r))
    (conditional : ∀ c y n, motive c → motive y → motive n → motive (conditional c y n))
    (call : ∀ name args, (∀ t ∈ args, motive t) → motive (call name args)) (t : Tree α) :
    motive t :=
  @Tree.rec α motive (fun ts => ∀ t ∈ ts, motive t) literal column unary binary
    conditional call
    (fun _ h => nomatch h) (fun _ _ head tail => List.forall_mem_cons.2 ⟨head, tail⟩) t

/-- What the parts of a node hand on to it, taken together, holds of every tree. -/
@[elab_as_elim]
theorem induction_children {motive : Tree α → Prop}
    (node : ∀ t, (∀ child ∈ t.children, motive child) → motive t) (t : Tree α) :
    motive t := by
  induction t using induction with
  | literal l => exact node _ fun _ h => nomatch h
  | column name => exact node _ fun _ h => nomatch h
  | unary op t ih => exact node _ (List.forall_mem_singleton.2 ih)
  | binary op l r hl hr =>
      exact node _ (List.forall_mem_cons.2 ⟨hl, List.forall_mem_singleton.2 hr⟩)
  | conditional c y n hc hy hn =>
      refine node _ (List.forall_mem_cons.2 ⟨hc, List.forall_mem_cons.2 ⟨hy, ?_⟩⟩)
      exact List.forall_mem_singleton.2 hn
  | call name args ih => exact node _ ih

mutual

/-- The leaves of a tree, from left to right. -/
def leaves : Tree α → List (Tree α)
  | literal l => [literal l]
  | column name => [column name]
  | unary _ operand => operand.leaves
  | binary _ left right => left.leaves ++ right.leaves
  | conditional condition yes no => condition.leaves ++ yes.leaves ++ no.leaves
  | call _ args => leavesOfAll args

/-- The leaves of several trees, from left to right. -/
def leavesOfAll : List (Tree α) → List (Tree α)
  | [] => []
  | t :: ts => t.leaves ++ leavesOfAll ts

end

mutual

/-- The calls in a tree, wherever they stand: the name and the number of arguments of
each. -/
def calls : Tree α → List (String × Nat)
  | literal _ => []
  | column _ => []
  | unary _ operand => operand.calls
  | binary _ left right => left.calls ++ right.calls
  | conditional condition yes no => condition.calls ++ yes.calls ++ no.calls
  | call name args => (name, args.length) :: callsOfAll args

/-- The calls in several trees. -/
def callsOfAll : List (Tree α) → List (String × Nat)
  | [] => []
  | t :: ts => t.calls ++ callsOfAll ts

end

/-- The leaves of several trees are those of each, one after another. -/
theorem leavesOfAll_eq (ts : List (Tree α)) : leavesOfAll ts = ts.flatMap leaves := by
  induction ts with
  | nil => rfl
  | cons t ts ih => rw [leavesOfAll, ih, List.flatMap_cons]

/-- The calls in several trees are those in each, one after another. -/
theorem callsOfAll_eq (ts : List (Tree α)) : callsOfAll ts = ts.flatMap calls := by
  induction ts with
  | nil => rfl
  | cons t ts ih => rw [callsOfAll, ih, List.flatMap_cons]

/-- The mentions in several trees are those in each, one after another. -/
theorem mentionsOfAll_eq (ts : List (Tree α)) : mentionsOfAll ts = ts.flatMap mentions := by
  induction ts with
  | nil => rfl
  | cons t ts ih => rw [mentionsOfAll, ih, List.flatMap_cons]

/-- Several trees are within a depth when each of them is. -/
theorem depthOfAll_le {ts : List (Tree α)} {d : Nat} :
    depthOfAll ts ≤ d ↔ ∀ t ∈ ts, t.depth ≤ d := by
  induction ts with
  | nil => simp [depthOfAll]
  | cons t ts ih => rw [depthOfAll, Nat.max_le, ih, List.forall_mem_cons]

/-! ### Other constants -/

section Map

variable {β : Type}

mutual

/-- The tree with other constants. -/
def map (g : α → β) : Tree α → Tree β
  | literal l => literal (g l)
  | column name => column name
  | unary op operand => unary op (operand.map g)
  | binary op left right => binary op (left.map g) (right.map g)
  | conditional condition yes no => conditional (condition.map g) (yes.map g) (no.map g)
  | call name args => call name (mapAll g args)

/-- Several trees with other constants. -/
def mapAll (g : α → β) : List (Tree α) → List (Tree β)
  | [] => []
  | t :: ts => t.map g :: mapAll g ts

end

/-- Trees are mapped one by one. -/
theorem mapAll_eq (g : α → β) (ts : List (Tree α)) : mapAll g ts = ts.map (map g) := by
  induction ts with
  | nil => rfl
  | cons t ts ih => rw [mapAll, ih, List.map_cons]

/-- Other constants leave the shape of a tree and its names alone. -/
theorem leaves_map (g : α → β) (t : Tree α) : (t.map g).leaves = t.leaves.map (map g) := by
  induction t using Tree.induction with
  | literal l => rfl
  | column name => rfl
  | unary op t ih => rw [map, leaves, leaves, ih]
  | binary op l r hl hr => rw [map, leaves, leaves, hl, hr, List.map_append]
  | conditional c y n hc hy hn =>
      rw [map, leaves, leaves, hc, hy, hn, List.map_append, List.map_append]
  | call name args ih =>
      rw [map, leaves, leaves, mapAll_eq, leavesOfAll_eq, leavesOfAll_eq, List.flatMap_map,
        List.map_flatMap]
      exact List.flatMap_congr ih

/-- Other constants leave the calls of a tree as they are. -/
theorem calls_map (g : α → β) (t : Tree α) : (t.map g).calls = t.calls := by
  induction t using Tree.induction with
  | literal l => rfl
  | column name => rfl
  | unary op t ih => rw [map, calls, calls, ih]
  | binary op l r hl hr => rw [map, calls, calls, hl, hr]
  | conditional c y n hc hy hn => rw [map, calls, calls, hc, hy, hn]
  | call name args ih =>
      rw [map, calls, calls, mapAll_eq, callsOfAll_eq, callsOfAll_eq, List.flatMap_map,
        List.length_map]
      exact congrArg _ (List.flatMap_congr ih)

end Map

/-- The columns that a tree mentions are the leaves that are columns. -/
theorem mem_mentions {t : Tree α} {name : String} :
    name ∈ t.mentions ↔ column name ∈ t.leaves := by
  induction t using Tree.induction with
  | literal l => simp [mentions, leaves]
  | column other => simp [mentions, leaves]
  | unary op t ih => rw [mentions, leaves, ih]
  | binary op l r hl hr => rw [mentions, leaves, List.mem_append, List.mem_append, hl, hr]
  | conditional c y n hc hy hn => simp only [mentions, leaves, List.mem_append, hc, hy, hn]
  | call other args ih =>
      rw [mentions, leaves, mentionsOfAll_eq, leavesOfAll_eq, List.mem_flatMap,
        List.mem_flatMap]
      exact exists_congr fun t => and_congr_right fun ht => ih t ht

/-- The columns of a tree are those that it mentions. -/
theorem mem_columns {t : Tree α} {name : String} : name ∈ t.columns ↔ name ∈ t.mentions :=
  mem_firstOccurrences

/-- The columns of a tree are listed once. -/
theorem nodup_columns (t : Tree α) : t.columns.Nodup := nodup_firstOccurrences t.mentions

/-- The columns stand in the order in which the tree mentions them first. -/
theorem pairwise_columns (t : Tree α) :
    t.columns.Pairwise fun a b => t.mentions.idxOf a < t.mentions.idxOf b := by
  rw [columns]
  induction t.mentions using List.reverseRecOn with
  | nil => exact List.Pairwise.nil
  | append_singleton names name ih =>
      have hrest : (firstOccurrences names).Pairwise fun a b =>
          (names ++ [name]).idxOf a < (names ++ [name]).idxOf b := by
        refine ih.imp_of_mem fun {a b} ha hb hlt => ?_
        rwa [List.idxOf_append_of_mem (mem_firstOccurrences.1 ha),
          List.idxOf_append_of_mem (mem_firstOccurrences.1 hb)]
      rw [firstOccurrences_append]
      split
      · exact hrest
      · next hfresh =>
        refine List.pairwise_append.2
          ⟨hrest, List.pairwise_singleton _ _, fun a ha b hb => ?_⟩
        have ha' : a ∈ names := mem_firstOccurrences.1 ha
        rw [List.mem_singleton.1 hb, List.idxOf_append_of_mem ha',
          List.idxOf_append_of_notMem hfresh]
        have := List.idxOf_lt_length_of_mem ha'
        omega

end FormulaTable.Tree
