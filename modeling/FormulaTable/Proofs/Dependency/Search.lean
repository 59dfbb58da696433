import FormulaTable.Dependency.Linked
import FormulaTable.Proofs.Dependency.Acyclic

/-!
# The search with frames

The search for a cycle that keeps frames and marks follows the same dependencies in the same
order as `Graph.explore`, which calls itself. A frame that lies on the stack stands for a
call that is not finished: the dependencies that were not followed are what the call still
has to explore. The marks say nothing more than the path and the positions that are done, so
that they can be read off both.

* `search_eq` — what is left of a frame is what is left of a call.
* `findCycle?_linked` — both searches find the same cycle.
-/

namespace FormulaTable

/-- From a member on, a list is what its first occurrence and all that follows make of
it. -/
theorem drop_idxOf?_eq_dropWhile {l : List Nat} {a : Nat} (h : a ∈ l) :
    l.drop ((l.idxOf? a).getD 0) = l.dropWhile (· ≠ a) := by
  induction l with
  | nil => cases h
  | cons b l ih =>
      by_cases hba : b = a
      · subst hba
        simp [List.idxOf?_cons]
      · have ha := (List.mem_cons.1 h).resolve_left (Ne.symm hba)
        obtain ⟨i, hi⟩ := Option.isSome_iff_exists.1 (List.isSome_idxOf?.2 ha)
        have hih := ih ha
        rw [hi] at hih
        simpa [List.idxOf?_cons, hba, hi] using hih

namespace Graph

open LinkedGraph

variable {g : Graph}

/-- What the search has marked when it follows a path and some positions are done. -/
def marks (g : Graph) (path done : List Nat) : List Mark :=
  g.positions.map fun p => if p ∈ done then .done else if p ∈ path then .onPath else .unseen

/-- A position is done, or on the path, or has not been seen. -/
theorem marks_getElem? {path done : List Nat} {p : Nat} (hp : p < g.size) :
    (g.marks path done)[p]? =
      some (if p ∈ done then .done else if p ∈ path then .onPath else .unseen) := by
  rw [marks, List.getElem?_map, positions, List.getElem?_range hp, Option.map_some]

/-- There is a mark for every position. -/
theorem length_marks (g : Graph) (path done : List Nat) :
    (g.marks path done).length = g.size := by
  rw [marks, List.length_map, positions, List.length_range]

/-- Entering a position puts it at the end of the path. -/
theorem marks_set_onPath {path done : List Nat} {p : Nat} (hnew : p ∉ done) :
    (g.marks path done).set p .onPath = g.marks (path ++ [p]) done := by
  refine List.ext_getElem? fun q => ?_
  rcases Nat.lt_or_ge q g.size with hq | hq
  · rw [List.getElem?_set, marks_getElem? hq, marks_getElem? hq, length_marks]
    by_cases hpq : p = q
    · subst hpq
      simp [hq, hnew]
    · simp [hpq, Ne.symm hpq]
  · rw [List.getElem?_eq_none (by rwa [List.length_set, length_marks]),
      List.getElem?_eq_none (by rwa [length_marks])]

/-- Leaving the last position of the path makes it done. -/
theorem marks_set_done (path done : List Nat) (p : Nat) :
    (g.marks (path ++ [p]) done).set p .done = g.marks path (p :: done) := by
  refine List.ext_getElem? fun q => ?_
  rcases Nat.lt_or_ge q g.size with hq | hq
  · rw [List.getElem?_set, marks_getElem? hq, marks_getElem? hq, length_marks]
    by_cases hpq : p = q
    · subst hpq
      simp [hq]
    · simp [hpq, Ne.symm hpq]
  · rw [List.getElem?_eq_none (by rwa [List.length_set, length_marks]),
      List.getElem?_eq_none (by rwa [length_marks])]

/-! ### One frame -/

/-- The trail of a search that follows a path when some positions are done. -/
def trail (g : Graph) (path done : List Nat) : Trail := ⟨g.marks path done, path⟩

variable {path done : List Nat} {p : Nat} {i : Nat} {below : List Frame}

/-- A search without frames is at its end. -/
theorem search_nil (t : Trail) : g.linked.search t [] = .ok t := by
  rw [search]

/-- A frame with nothing left to follow is given up. -/
theorem search_last (h : (g.dependencies p)[i]? = none) :
    g.linked.search (g.trail (path ++ [p]) done) (⟨p, i⟩ :: below) =
      g.linked.search (g.trail path (p :: done)) below := by
  rw [search]
  split
  case h_1 =>
    dsimp only [trail]
    rw [marks_set_done, List.dropLast_concat]
  case h_2 q hq =>
    have hq : (g.dependencies p)[i]? = some q := hq
    rw [h] at hq
    cases hq

/-- What is done with the next dependency of a frame depends on its mark. -/
theorem search_next {t : Trail} {q : Nat} {m : Mark} (h : (g.dependencies p)[i]? = some q) :
    t.marks[q]? = some m → g.linked.search t (⟨p, i⟩ :: below) =
      match m with
      | .unseen => g.linked.search ⟨t.marks.set q .onPath, t.path ++ [q]⟩
        (⟨q, 0⟩ :: ⟨p, i + 1⟩ :: below)
      | .onPath => .error (t.path.drop ((t.path.idxOf? q).getD 0) ++ [q])
      | .done => g.linked.search t (⟨p, i + 1⟩ :: below) := by
  intro hm
  rw [search]
  split
  case h_1 hnone =>
    have hnone : (g.dependencies p)[i]? = none := hnone
    rw [h] at hnone
    cases hnone
  case h_2 r hr =>
    obtain rfl : q = r := Option.some.inj (h.symm.trans hr)
    split
    case h_1 hunseen =>
      obtain rfl := Option.some.inj (hm.symm.trans hunseen)
      rfl
    case h_2 honPath =>
      obtain rfl := Option.some.inj (hm.symm.trans honPath)
      rfl
    case h_3 hunseen honPath =>
      cases m with
      | unseen => exact absurd hm hunseen
      | onPath => exact absurd hm honPath
      | done => rfl

/-- **What is left of a frame is what is left of a call**: the dependencies that were not
followed are explored, and the search goes on below. The induction is on the budget of the
call, and then on what is left of its dependencies. -/
theorem search_eq (hg : g.Closed) {budget : Nat} (hnodup : (path ++ [p]).Nodup)
    (hpath : ∀ q ∈ path ++ [p], q < g.size)
    (hbudget : g.size < budget + (path ++ [p]).length) {rest : List Nat}
    (hrest : (g.dependencies p).drop i = rest) :
    g.linked.search (g.trail (path ++ [p]) done) (⟨p, i⟩ :: below) =
      (rest.foldlM (fun done q => g.explore budget (path ++ [p]) done q) done >>=
          fun done =>
        g.linked.search (g.trail path (p :: done)) below) := by
  induction budget generalizing path p done i below rest with
  | zero =>
      have hsub : path ++ [p] ⊆ List.range g.size := fun q hq =>
        List.mem_range.2 (hpath q hq)
      have hlen := (List.subperm_of_subset hnodup hsub).length_le
      rw [List.length_range] at hlen
      omega
  | succ budget ih =>
      induction rest generalizing done i with
      | nil =>
          have hnone : (g.dependencies p)[i]? = none :=
            List.getElem?_eq_none (List.drop_eq_nil_iff.1 hrest)
          rw [search_last hnone]
          rfl
      | cons q rest ihrest =>
          have hq : (g.dependencies p)[i]? = some q := by
            rw [← List.head?_drop, hrest, List.head?_cons]
          have hrest' : (g.dependencies p).drop (i + 1) = rest := by
            rw [← List.tail_drop, hrest, List.tail_cons]
          have hlt : q < g.size := hg p q (List.mem_of_getElem? hq)
          rw [search_next hq (marks_getElem? hlt), List.foldlM_cons, explore]
          simp only [List.contains_iff_mem]
          by_cases hdone : q ∈ done
          · rw [if_pos hdone, if_pos hdone]
            exact ihrest hrest'
          · rw [if_neg hdone, if_neg hdone]
            by_cases hon : q ∈ path ++ [p]
            · rw [if_pos hon, if_pos hon]
              dsimp only [trail]
              rw [drop_idxOf?_eq_dropWhile hon]
              rfl
            · rw [if_neg hon, if_neg hon]
              have hnodup' : (path ++ [p] ++ [q]).Nodup :=
                hnodup.append (List.nodup_singleton q) (by simpa using hon)
              have hpath' : ∀ r ∈ path ++ [p] ++ [q], r < g.size :=
                List.forall_mem_append.2 ⟨hpath, List.forall_mem_singleton.2 hlt⟩
              have hbudget' : g.size < budget + (path ++ [p] ++ [q]).length := by
                rw [List.length_append, List.length_singleton]
                omega
              dsimp only [trail]
              rw [marks_set_onPath hdone]
              refine (ih hnodup' hpath' hbudget' List.drop_zero).trans ?_
              cases (g.dependencies q).foldlM
                  (fun done r => g.explore budget (path ++ [p] ++ [q]) done r) done with
              | error cycle => rfl
              | ok done' => exact ihrest hrest'

/-! ### The whole search -/

/-- A search from one position explores it. -/
theorem searchFrom_eq (hg : g.Closed) (hp : p < g.size) :
    g.linked.searchFrom (g.trail [] done) p =
      (g.explore (g.size + 1) [] done p).map fun done => g.trail [] done := by
  rw [searchFrom, explore]
  by_cases hdone : p ∈ done
  · have hmark : (g.trail [] done).marks[p]? = some .done := by
      rw [trail, marks_getElem? hp, if_pos hdone]
    rw [if_neg (by rw [hmark]; decide), if_pos (List.contains_iff_mem.2 hdone)]
    rfl
  · have hmark : (g.trail [] done).marks[p]? = some .unseen := by
      rw [trail, marks_getElem? hp, if_neg hdone, if_neg List.not_mem_nil]
    rw [if_pos hmark, if_neg (by rwa [List.contains_iff_mem]), if_neg (by simp)]
    have hpath : ∀ q ∈ [] ++ [p], q < g.size := List.forall_mem_singleton.2 hp
    have hbudget : g.size < g.size + ([] ++ [p]).length := Nat.lt_succ_self g.size
    dsimp only [trail]
    rw [marks_set_onPath hdone]
    refine (search_eq hg (List.nodup_singleton p) hpath hbudget List.drop_zero).trans ?_
    cases (g.dependencies p).foldlM
        (fun done q => g.explore g.size ([] ++ [p]) done q) done with
    | error cycle => rfl
    | ok done' => exact search_nil _

/-- Starting from one position after another does what exploring them does. -/
theorem foldlM_searchFrom_eq (hg : g.Closed) {ps : List Nat} (hps : ∀ p ∈ ps, p < g.size) :
    ps.foldlM g.linked.searchFrom (g.trail [] done) =
      (ps.foldlM (fun done p => g.explore (g.size + 1) [] done p) done).map fun done =>
        g.trail [] done := by
  induction ps generalizing done with
  | nil => rfl
  | cons p ps ih =>
      obtain ⟨hp, hps⟩ := List.forall_mem_cons.1 hps
      rw [List.foldlM_cons, List.foldlM_cons, searchFrom_eq hg hp]
      cases g.explore (g.size + 1) [] done p with
      | error cycle => rfl
      | ok done' => exact ih hps

/-- **Both searches find the same cycle**, if there is one. -/
theorem findCycle?_linked (hg : g.Closed) :
    g.linked.findCycle? = g.findCycle?.map g.namesAt := by
  have hstart : (⟨g.linked.names.map fun _ => .unseen, []⟩ : Trail) = g.trail [] [] := by
    rw [trail, marks, positions, size]
    simp [linked]
  have hpositions : List.range g.linked.names.length = g.positions := rfl
  rw [LinkedGraph.findCycle?, findCycle?, hstart, hpositions,
    foldlM_searchFrom_eq hg fun p (hp : p ∈ g.positions) => List.mem_range.1 hp]
  cases g.positions.foldlM (fun done p => g.explore (g.size + 1) [] done p) [] <;> rfl

end Graph

end FormulaTable
