import FormulaTable.Proofs.Dependency.Countdown
import FormulaTable.Proofs.Dependency.Outcome
import FormulaTable.Proofs.Table.Run
import Mathlib.Data.List.Lex

/-!
# The least order of evaluation

Columns can be evaluated in many orders in which each one comes after those it depends on.
The order of a graph takes the lowest position of those that are ready, and this makes it
the first of all these orders when they are compared by the positions of their columns: as
far as another order begins in the same way, the same positions are ready, and the next one
of the other order is one of them.

* `IsOrder` — the orders in which columns can be evaluated.
* `place_eq_or_lt` — what is placed compared with any other order.
* `least_evaluationOrder` — the order of a graph is the least one.
-/

namespace FormulaTable

open Columns LinkedGraph

/-- An order in which columns can be evaluated: each of them is listed once, and before it
all that it depends on. -/
structure Columns.IsOrder (columns : List Column) (names : List String) : Prop where
  perm : names.Perm (columns.map (·.name))
  after : ∀ before name rest, names = before ++ name :: rest →
    ∀ other, DependsOn columns name other → other ∈ before

namespace Graph

variable {g : Graph} {columns : List Column} {wanted : Nat → Bool}

/-! ### Orders of positions -/

/-- In an order in which each position is ready, each one is ready where it stands. -/
theorem ReadyAfter.ready {placed before rest : List Nat} {p : Nat}
    (h : g.ReadyAfter wanted placed (before ++ p :: rest)) :
    g.Ready wanted (placed ++ before) p := by
  induction before generalizing placed with
  | nil =>
      rw [List.append_nil]
      exact h.1
  | cons q before ih =>
      have hready := ih h.2
      rwa [List.append_assoc, List.singleton_append] at hready

/-- **What is placed comes first**: it is another order of the wanted positions, or is less.
The induction is on the other order; as long as both begin in the same way, its next
position is ready. -/
theorem place_eq_or_lt {count : Nat} {placed qs : List Nat}
    (hqs : g.ReadyAfter wanted placed qs) (hall : ∀ p, ¬ g.Ready wanted (placed ++ qs) p)
    (hcount : qs.length ≤ count) :
    ∃ ps, g.place wanted count placed = placed ++ ps ∧ (ps = qs ∨ ps < qs) := by
  induction qs generalizing count placed with
  | nil =>
      rw [List.append_nil] at hall
      refine ⟨[], ?_, .inl rfl⟩
      rw [place_of_nextReady?_eq_none (nextReady?_eq_none_iff.2 hall), List.append_nil]
  | cons q qs ih =>
      obtain ⟨hq, hrest⟩ := hqs
      obtain ⟨count, rfl⟩ :=
        Nat.exists_eq_add_of_le' (Nat.le_trans (Nat.le_add_left 1 _) hcount)
      cases hnext : g.nextReady? wanted placed with
      | none => exact absurd hq (nextReady?_eq_none_iff.1 hnext q)
      | some p =>
          rw [place, hnext]
          rcases Nat.lt_trichotomy p q with hpq | rfl | hqp
          · obtain ⟨ps, hps, -⟩ := exists_place_eq g wanted count (placed ++ [p])
            refine ⟨p :: ps, ?_, .inr (List.cons_lt_cons_iff.2 (.inl hpq))⟩
            rw [← List.singleton_append, ← List.append_assoc]
            exact hps
          · have hall' : ∀ r, ¬ g.Ready wanted (placed ++ [p] ++ qs) r := by
              intro r
              rw [List.append_assoc, List.singleton_append]
              exact hall r
            obtain ⟨ps, hps, hle⟩ := ih hrest hall' (Nat.le_of_succ_le_succ hcount)
            refine ⟨p :: ps, ?_, ?_⟩
            · rw [← List.singleton_append, ← List.append_assoc]
              exact hps
            · rcases hle with rfl | hlt
              · exact .inl rfl
              · exact .inr (List.cons_lt_cons_iff.2 (.inr ⟨rfl, hlt⟩))
          · exact absurd hq ((nextReady?_eq_some_iff.1 hnext).2 q hqp)

/-! ### Names and positions -/

namespace Resolves

variable (h : g.Resolves columns)

include h

/-- The name of a position is the name of a column. -/
theorem name_mem {p : Nat} (hp : p < g.size) : g.name p ∈ columns.map (·.name) := by
  have hc := List.getElem?_eq_getElem (h.size_eq ▸ hp)
  rw [h.name_eq hc]
  exact List.mem_map_of_mem (List.mem_of_getElem? hc)

/-- The name of a column has a position in the graph. -/
theorem idxOf_lt {name : String} (hname : name ∈ columns.map (·.name)) :
    (columns.map (·.name)).idxOf name < g.size := by
  rw [h.size_eq, ← List.length_map (·.name)]
  exact List.idxOf_lt_length_of_mem hname

/-- A name is found again at its position. -/
theorem name_idxOf {name : String} (hname : name ∈ columns.map (·.name)) :
    g.name ((columns.map (·.name)).idxOf name) = name := by
  rw [Graph.name, h.names_eq, List.getElem?_idxOf hname, Option.getD_some]

/-- A position is found again by its name. -/
theorem idxOf_name {p : Nat} (hp : p < g.size) :
    (columns.map (·.name)).idxOf (g.name p) = p := by
  have hname := h.name_mem hp
  exact h.name_inj (h.idxOf_lt hname) hp (h.name_idxOf hname)

end Resolves

/-! ### Orders of columns -/

namespace Describes

variable (h : g.Describes columns)

include h

/-- All positions are in the order, each once. -/
theorem order_perm : g.order.Perm g.positions := by
  refine (List.perm_ext_iff_of_nodup readyAfter_orderOf.nodup List.nodup_range).2 ?_
  intro p
  rw [h.mem_orderOf, List.mem_range, and_iff_left rfl]

/-- The order of a graph is one in which its columns can be evaluated. -/
theorem isOrder_evaluationOrder : IsOrder columns g.evaluationOrder where
  perm := h.namesAt_positions ▸ h.order_perm.map g.name
  after before name rest hsplit other hdep := by
    obtain ⟨ps, qs, hps, rfl, hqs⟩ := List.map_eq_append_iff.1 hsplit
    obtain ⟨p, qs, rfl, rfl, rfl⟩ := List.map_eq_cons_iff.1 hqs
    have hready : g.Ready (fun _ => true) ([] ++ ps) p := by
      have hready : g.ReadyAfter (fun _ => true) [] g.order := readyAfter_orderOf
      rw [hps] at hready
      exact hready.ready
    obtain ⟨q, hq, rfl⟩ := h.exists_reads hready.1 hdep
    exact List.mem_map_of_mem (hready.2.2.2 q hq rfl)

/-- By position each column of an order is ready where it stands. -/
theorem readyAfter_of_isOrder {names : List String} (hnames : IsOrder columns names) :
    g.ReadyAfter (fun _ => true) [] (names.map (columns.map (·.name)).idxOf) := by
  have hall : ∀ before rest, names = before ++ rest → g.ReadyAfter (fun _ => true)
      (before.map (columns.map (·.name)).idxOf)
          (rest.map (columns.map (·.name)).idxOf) := by
    intro before rest hsplit
    induction rest generalizing before with
    | nil => trivial
    | cons name rest ih =>
        have hname : name ∈ columns.map (·.name) := by
          rw [← hnames.perm.mem_iff, hsplit]
          exact List.mem_append_right _ List.mem_cons_self
        have hrest :=
          ih (before ++ [name]) (by rw [hsplit, List.append_assoc, List.singleton_append])
        rw [List.map_append] at hrest
        refine ⟨⟨h.idxOf_lt hname, rfl, fun hmem => ?_, fun q hq _ => ?_⟩, hrest⟩
        · obtain ⟨other, hother, heq⟩ := List.mem_map.1 hmem
          obtain rfl := (List.idxOf_inj hname).1 heq.symm
          have hnodup := hnames.perm.nodup_iff.2 h.nodup
          rw [hsplit] at hnodup
          exact (List.nodup_append.1 hnodup).2.2 name hother name List.mem_cons_self rfl
        · have hdep := h.dependsOn_name hq
          rw [h.name_idxOf hname] at hdep
          rw [← h.idxOf_name (h.lt_of_mem_dependencies hq).2]
          exact List.mem_map_of_mem (hnames.after before name rest hsplit _ hdep)
  exact hall [] names rfl

/-- **The order of a graph is the least** of all orders in which its columns can be
evaluated. -/
theorem eq_or_lt_of_isOrder {names : List String} (hnames : IsOrder columns names) :
    names = g.evaluationOrder ∨ g.evaluationOrder.map (columns.map (·.name)).idxOf <
      names.map (columns.map (·.name)).idxOf := by
  have hall : ∀ p,
      ¬ g.Ready (fun _ => true) ([] ++ names.map (columns.map (·.name)).idxOf) p := by
    rintro p ⟨hp, -, hnew, -⟩
    refine hnew (h.idxOf_name hp ▸ List.mem_map_of_mem (hnames.perm.mem_iff.2 ?_))
    exact h.name_mem hp
  have hcount : (names.map (columns.map (·.name)).idxOf).length ≤ g.size := by
    rw [List.length_map, hnames.perm.length_eq, List.length_map, h.size_eq]
  obtain ⟨ps, hps, hle⟩ := place_eq_or_lt (h.readyAfter_of_isOrder hnames) hall hcount
  have horder : g.order = ps := hps
  rw [evaluationOrder, horder]
  rcases hle with rfl | hlt
  · refine .inl ?_
    rw [namesAt, List.map_map]
    refine ((List.map_congr_left fun name hname => ?_).trans (List.map_id names)).symm
    exact h.name_idxOf (hnames.perm.mem_iff.1 hname)
  · refine .inr ?_
    have hsame : (g.namesAt ps).map (columns.map (·.name)).idxOf = ps := by
      rw [namesAt, List.map_map]
      refine (List.map_congr_left fun p hp => ?_).trans (List.map_id ps)
      rw [← horder] at hp
      exact h.idxOf_name (List.mem_range.1 (h.order_perm.mem_iff.1 hp))
    rwa [hsame]

end Describes

end Graph

/-- **The order of evaluation**: the columns of a graph are listed once each, after all that
they depend on, and any other such list is greater when both are compared by position.
Counting down gives the same order. -/
theorem Graph.least_evaluationOrder {columns : List Column} {g : Graph}
    (h : Graph.build columns = .ok g) :
    (LinkedGraph.build columns = .ok g.linked ∧
        g.linked.evaluationOrder = g.evaluationOrder) ∧
      IsOrder columns g.linked.evaluationOrder ∧
      ∀ names, IsOrder columns names → names = g.linked.evaluationOrder ∨
        g.linked.evaluationOrder.map (columns.map (·.name)).idxOf <
          names.map (columns.map (·.name)).idxOf := by
  have hg := build_eq_ok.1 h
  rw [hg.evaluationOrder_linked, LinkedGraph.build_eq, h]
  exact ⟨⟨rfl, rfl⟩, hg.isOrder_evaluationOrder,
    fun names hnames => hg.eq_or_lt_of_isOrder hnames⟩

/-- A stored column and three others, the first of which reads the last. -/
def Columns.backward : List Column :=
  [.stored "a" .int64 0, .computed "b" (.applied .add "d" 1 .standard),
    .computed "c" (.applied .add "a" 1 .standard),
    .computed "d" (.applied .add "a" 1 .standard)]

/-- Their graph. -/
def Graph.backward : Graph := ⟨["a", "b", "c", "d"], [[], [3], [0], [0]]⟩

/-- A column that reads a later one comes after it, and the others stay in their places. -/
theorem Graph.least_evaluationOrder_backward :
    Graph.build Columns.backward = .ok backward ∧
      backward.linked.evaluationOrder = ["a", "c", "d", "b"] ∧
      ∀ names, IsOrder Columns.backward names → names = ["a", "c", "d", "b"] ∨
        [0, 2, 3, 1] < names.map ["a", "b", "c", "d"].idxOf := by
  have hg : Graph.build Columns.backward = .ok backward := rfl
  exact ⟨hg, rfl, (least_evaluationOrder hg).2.2⟩

end FormulaTable
