import FormulaTable.Proofs.Dependency.Build
import Mathlib.Data.List.Chain
import Mathlib.Data.List.Perm.Subperm
import Mathlib.Order.WellFounded

/-!
# Graphs without cycles

The search for a cycle follows dependencies and collects the positions that are known to be
on none. It is right in both directions: what it collects are positions in an order in which
each one comes after those it depends on, and what it reports is a path that returns to its
start.

* `settled_or_isCycle` — what the whole search gives.
* `Describes.wellFounded` — the dependencies of a built graph end, which is what proofs by
  induction over columns go by.
* `exists_describes`, `exists_describes_append` — columns that make a graph.
-/

namespace FormulaTable.Graph

/-- A position directly depends on another one. -/
def Reads (g : Graph) (p q : Nat) : Prop := q ∈ g.dependencies p

/-- Every dependency is a position of the graph. -/
def Closed (g : Graph) : Prop := ∀ p, ∀ q ∈ g.dependencies p, q < g.size

/-- Positions with the latest first, each settled after all those that it depends on. -/
inductive Settled (g : Graph) : List Nat → Prop
  | nil : Settled g []
  | cons {p : Nat} {done : List Nat} : Settled g done → p < g.size → p ∉ done →
      (∀ q ∈ g.dependencies p, q ∈ done) → Settled g (p :: done)

/-- A path along dependencies that returns to its start and is nowhere twice before. -/
def IsCycle (g : Graph) (path : List Nat) : Prop :=
  ∃ p rest, path = p :: rest ++ [p] ∧ path.IsChain g.Reads ∧ (p :: rest).Nodup

variable {g : Graph}

/-- Settled positions are positions of the graph, each listed once. -/
theorem Settled.nodup {done : List Nat} (h : g.Settled done) :
    done.Nodup ∧ ∀ p ∈ done, p < g.size := by
  induction h with
  | nil => exact ⟨.nil, fun p hp => nomatch hp⟩
  | cons _ hp hnew _ ih => exact ⟨ih.1.cons hnew, List.forall_mem_cons.2 ⟨hp, ih.2⟩⟩

/-- From a settled position dependencies cannot be followed forever. -/
theorem Settled.acc {done : List Nat} (h : g.Settled done) {p : Nat} (hp : p ∈ done) :
    Acc (fun q p => g.Reads p q) p := by
  induction h generalizing p with
  | nil => cases hp
  | cons _ _ _ hdeps ih =>
      rcases List.mem_cons.1 hp with rfl | hp
      · exact ⟨_, fun q hq => ih (hdeps q hq)⟩
      · exact ih hp

/-- A path of at least two positions leads from its first one to its last one. -/
theorem transGen_of_isChain {p q : Nat} {rest : List Nat}
    (h : (p :: rest ++ [q]).IsChain g.Reads) : Relation.TransGen g.Reads p q := by
  induction rest generalizing p with
  | nil => exact .single (List.isChain_pair.1 h)
  | cons r rest ih =>
      obtain ⟨hpr, h⟩ := List.isChain_cons_cons.1 h
      exact .head hpr (ih h)

/-! ### The search -/

/-- What a search gives that starts with the settled positions `done`, comes from `path`
and visits `ps`: more settled positions, with the visited ones but none of the path, or a
cycle. -/
def Found (g : Graph) (path done ps : List Nat) : Except (List Nat) (List Nat) → Prop
  | .ok done' => g.Settled done' ∧ done ⊆ done' ∧ ps ⊆ done' ∧ ∀ q ∈ path,
    q ∈ done' → q ∈ done
  | .error cycle => g.IsCycle cycle

/-- Visits in turn give what each of them gives. -/
theorem found_foldlM {path : List Nat} (ps : List Nat)
    (visit : List Nat → Nat → Except (List Nat) (List Nat))
    (hvisit : ∀ p ∈ ps, ∀ done, g.Settled done → g.Found path done [p] (visit done p))
    {done : List Nat} (hdone : g.Settled done) :
    g.Found path done ps (ps.foldlM visit done) := by
  induction ps generalizing done with
  | nil => exact ⟨hdone, fun _ h => h, List.nil_subset _, fun _ _ h => h⟩
  | cons p ps ih =>
      rw [List.foldlM_cons]
      have hp := hvisit p List.mem_cons_self done hdone
      cases hv : visit done p with
      | error cycle =>
          rw [hv] at hp
          exact hp
      | ok done₁ =>
          rw [hv] at hp
          obtain ⟨hdone₁, hsub₁, hp₁, hpath₁⟩ := hp
          have hps := ih (fun q hq => hvisit q (List.mem_cons_of_mem p hq)) hdone₁
          show g.Found path done (p :: ps) (ps.foldlM visit done₁)
          cases hrest : ps.foldlM visit done₁ with
          | error cycle =>
              rw [hrest] at hps
              exact hps
          | ok done₂ =>
              rw [hrest] at hps
              obtain ⟨hdone₂, hsub₂, hps₂, hpath₂⟩ := hps
              refine ⟨hdone₂, List.Subset.trans hsub₁ hsub₂, ?_,
                fun q hq h => hpath₁ q hq (hpath₂ q hq h)⟩
              exact List.cons_subset.2 ⟨hsub₂ (hp₁ List.mem_cons_self), hps₂⟩

/-- A position that is met again closes a cycle. -/
theorem isCycle_dropWhile {path : List Nat} {p : Nat}
    (hchain : (path ++ [p]).IsChain g.Reads) (hnodup : path.Nodup) (hp : p ∈ path) :
    g.IsCycle (path.dropWhile (· ≠ p) ++ [p]) := by
  obtain ⟨before, rest, rfl, hbefore⟩ := List.eq_append_cons_of_mem hp
  have hdrop : (before ++ p :: rest).dropWhile (· ≠ p) = p :: rest := by
    rw [List.dropWhile_append_of_pos]
    · simp
    · intro q hq
      have hne : q ≠ p := fun h => hbefore (h ▸ hq)
      simpa using hne
  rw [hdrop]
  rw [List.append_assoc] at hchain
  exact ⟨p, rest, rfl, hchain.right_of_append, (List.nodup_append.1 hnodup).2.1⟩

/-- The search from one position. The path has no position twice, so that it is never longer
than the graph is large, and the budget is not used up. -/
theorem found_explore (hg : g.Closed) {budget : Nat} {path done : List Nat} {p : Nat}
    (hchain : (path ++ [p]).IsChain g.Reads) (hnodup : path.Nodup)
    (hpath : ∀ q ∈ path, q < g.size) (hp : p < g.size) (hdone : g.Settled done)
    (hbudget : g.size < budget + path.length) :
    g.Found path done [p] (g.explore budget path done p) := by
  induction budget generalizing path done p with
  | zero =>
      have hsub : path ⊆ List.range g.size := fun q hq => List.mem_range.2 (hpath q hq)
      have hlen := (List.subperm_of_subset hnodup hsub).length_le
      rw [List.length_range] at hlen
      omega
  | succ budget ih =>
      rw [explore]
      split
      case isTrue hmem =>
        have hmem := List.contains_iff_mem.1 hmem
        exact ⟨hdone, fun _ h => h, List.cons_subset.2 ⟨hmem, List.nil_subset _⟩,
          fun _ _ h => h⟩
      case isFalse hnew =>
        split
        case isTrue hmem =>
          exact isCycle_dropWhile hchain hnodup (List.contains_iff_mem.1 hmem)
        case isFalse hapart =>
          rw [List.contains_iff_mem] at hnew hapart
          have hnodup' : (path ++ [p]).Nodup :=
            hnodup.append (List.nodup_singleton p) (by simpa using hapart)
          have hpath' : ∀ q ∈ path ++ [p], q < g.size :=
            List.forall_mem_append.2 ⟨hpath, List.forall_mem_singleton.2 hp⟩
          have hvisit : ∀ q ∈ g.dependencies p, ∀ done, g.Settled done →
              g.Found (path ++ [p]) done [q] (g.explore budget (path ++ [p]) done q) := by
            intro q hq done hdone
            refine ih ?_ hnodup' hpath' (hg p q hq) hdone ?_
            · rw [List.append_assoc, List.singleton_append, List.isChain_append_cons_cons]
              exact ⟨hchain, hq, .singleton q⟩
            · rw [List.length_append, List.length_singleton]
              omega
          have hdeps := found_foldlM (g.dependencies p) _ hvisit hdone
          cases hfold : (g.dependencies p).foldlM
            (fun done q => g.explore budget (path ++ [p]) done q)
              done with
          | error cycle =>
              rw [hfold] at hdeps
              exact hdeps
          | ok done₁ =>
              rw [hfold] at hdeps
              obtain ⟨hdone₁, hsub, hall, hold⟩ := hdeps
              have hnew₁ : p ∉ done₁ := fun h => hnew (hold p (by simp) h)
              refine ⟨hdone₁.cons hp hnew₁ fun q hq => hall hq,
                List.Subset.trans hsub (List.subset_cons_self p _),
                List.cons_subset.2 ⟨List.mem_cons_self,
                List.nil_subset _⟩, fun q hq h => ?_⟩
              rcases List.mem_cons.1 h with rfl | h
              · exact absurd hq hapart
              · exact hold q (List.mem_append_left _ hq) h

/-- **The search for a cycle** settles every position, or gives a cycle. -/
theorem settled_or_isCycle (hg : g.Closed) :
    match g.findCycle? with
    | none => ∃ done, g.Settled done ∧ ∀ p < g.size, p ∈ done
    | some path => g.IsCycle path := by
  have hvisit : ∀ p ∈ g.positions, ∀ done, g.Settled done →
      g.Found [] done [p] (g.explore (g.size + 1) [] done p) := by
    intro p hp done hdone
    exact found_explore hg (.singleton p) .nil (fun q hq => nomatch hq)
      (List.mem_range.1 hp) hdone
      (Nat.lt_succ_self g.size)
  have h := found_foldlM g.positions _ hvisit .nil
  rw [findCycle?]
  cases hfold : g.positions.foldlM (fun done p => g.explore (g.size + 1) [] done p) [] with
  | error path =>
      rw [hfold] at h
      exact h
  | ok done =>
      rw [hfold] at h
      exact ⟨done, h.1, fun p hp => h.2.2.1 (List.mem_range.2 hp)⟩

/-- No cycle is reported where dependencies end. -/
theorem findCycle?_eq_none (hg : g.Closed) (hwf : WellFounded fun q p => g.Reads p q) :
    g.findCycle? = none := by
  have h := settled_or_isCycle hg
  cases hcycle : g.findCycle? with
  | none => rfl
  | some path =>
      rw [hcycle] at h
      obtain ⟨p, rest, rfl, hchain, -⟩ := h
      have hloop := Relation.transGen_swap.1 (transGen_of_isChain hchain)
      exact absurd hloop (hwf.transGen.irrefl.irrefl p)

/-! ### Built graphs -/

namespace Describes

variable {columns : List Column} (h : g.Describes columns)

include h

/-- Dependencies are positions of the graph. -/
theorem closed : g.Closed := fun _ _ hq => (h.lt_of_mem_dependencies hq).2

/-- All positions of a built graph can be settled one after the other. -/
theorem exists_settled : ∃ done, g.Settled done ∧ ∀ p < g.size, p ∈ done := by
  have hsearch := settled_or_isCycle h.closed
  rw [h.noCycle] at hsearch
  exact hsearch

/-- **In a built graph dependencies end.** -/
theorem wellFounded : WellFounded fun q p => g.Reads p q := by
  obtain ⟨done, hdone, hall⟩ := h.exists_settled
  refine ⟨fun p => ?_⟩
  by_cases hp : p < g.size
  · exact hdone.acc (hall p hp)
  · refine ⟨p, fun q hq => ?_⟩
    exact absurd (h.lt_of_mem_dependencies hq).1 hp

/-- In a built graph nothing depends on itself. -/
theorem not_transGen_self (p : Nat) : ¬ Relation.TransGen g.Reads p p :=
  fun hloop => h.wellFounded.transGen.irrefl.irrefl p (Relation.transGen_swap.1 hloop)

end Describes

/-! ### Columns that make a graph -/

/-- Resolved columns make a graph where dependencies end. -/
theorem Resolves.describes {columns : List Column} (h : g.Resolves columns)
    (hwf : WellFounded fun q p => g.Reads p q) : g.Describes columns :=
  ⟨h, findCycle?_eq_none (fun _ _ hq => (h.lt_of_mem_dependencies hq).2) hwf⟩

/-- Columns that depend on nothing make a graph if their names are distinct. -/
theorem exists_describes {columns : List Column} (hnodup : (columns.map (·.name)).Nodup)
    (hdeps : ∀ c ∈ columns, c.dependencies = []) : ∃ g : Graph, g.Describes columns := by
  obtain ⟨g, hg⟩ := exists_resolves hnodup fun c hc name hname => by
    rw [hdeps c hc] at hname
    cases hname
  refine ⟨g, hg.describes ⟨fun p => ⟨p, fun q hq => ?_⟩⟩⟩
  obtain ⟨hp, -⟩ := hg.lt_of_mem_dependencies hq
  have hc := List.getElem?_eq_getElem (hg.size_eq ▸ hp)
  obtain ⟨d, -, hname⟩ := (hg.mem_dependencies hc).1 hq
  rw [hdeps _ (List.mem_of_getElem? hc)] at hname
  cases hname

/-- The columns that were there before the last one read what they read without it. -/
theorem Resolves.reads_of_reads_append {columns : List Column} {c : Column} {g' : Graph}
    (h : g.Resolves columns) (h' : g'.Resolves (columns ++ [c])) {p q : Nat}
    (hp : p < columns.length) (hpq : g'.Reads p q) :
    q < columns.length ∧ g.Reads p q := by
  have hc := List.getElem?_eq_getElem hp
  have hc' : (columns ++ [c])[p]? = some columns[p] := by
    rw [List.getElem?_append_left hp, hc]
  obtain ⟨d, hd, hdep⟩ := (h'.mem_dependencies hc').1 hpq
  obtain ⟨r, e, he, hname, hr⟩ := h.exists_of_mem_dependencies hc hdep
  have hlt := (List.getElem?_eq_some_iff.1 he).1
  have he' : (columns ++ [c])[r]? = some e := by rw [List.getElem?_append_left hlt, he]
  obtain rfl := h'.eq_of_name_eq he' hd hname
  exact ⟨hlt, hr⟩

/-- A further column of a new name makes a graph with the old ones, all of whose
dependencies are among the old ones. -/
theorem exists_describes_append {columns : List Column} (h : g.Describes columns)
    {c : Column} (hname : c.name ∉ columns.map (·.name))
    (hdeps : ∀ name ∈ c.dependencies, name ∈ columns.map (·.name)) :
    ∃ g' : Graph, g'.Describes (columns ++ [c]) := by
  obtain ⟨g', hg'⟩ := h.exists_append hname fun name hdep => by
    rw [List.map_append]
    exact List.mem_append_left _ (hdeps name hdep)
  have hacc : ∀ q < columns.length, Acc (fun q p => g'.Reads p q) q := by
    intro q
    induction q using h.wellFounded.induction with
    | _ q ih =>
        intro hq
        refine ⟨q, fun r hr => ?_⟩
        obtain ⟨hlt, hread⟩ := h.reads_of_reads_append hg' hq hr
        exact ih r hread hlt
  -- Whatever is read stands among the old columns.
  have hlt : ∀ {p q}, g'.Reads p q → q < columns.length := by
    intro p q hq
    obtain ⟨hp, hq'⟩ := hg'.lt_of_mem_dependencies hq
    rw [hg'.size_eq, List.length_append, List.length_singleton] at hp hq'
    rcases Nat.lt_or_ge p columns.length with hp' | hp'
    · exact (h.reads_of_reads_append hg' hp' hq).1
    · obtain rfl : p = columns.length := by omega
      have hlast : (columns ++ [c])[columns.length]? = some c :=
        List.getElem?_concat_length ..
      obtain ⟨d, hd, hdep⟩ := (hg'.mem_dependencies hlast).1 hq
      by_contra hge
      obtain rfl : q = columns.length := by omega
      obtain rfl := Option.some.inj (hlast.symm.trans hd)
      exact hname (hdeps _ hdep)
  exact ⟨g', hg'.describes ⟨fun p => ⟨p, fun q hq => hacc q (hlt hq)⟩⟩⟩

end FormulaTable.Graph
