import FormulaTable.Proofs.Dependency.Closure
import FormulaTable.Proofs.Dependency.Search

/-!
# Links in one pass

A graph that is put together in one pass over the columns is the one that `Graph.build`
describes. The names are entered up to the first one that is there already, as
`firstRepeat?` finds it, and the dependencies are linked up to the first one that is
missing. A dependent is entered exactly when a dependency is, so that the dependents of a
position are those that `Graph.dependents` finds.

* `foldl_addDependents_eq` — the dependents that are entered.
* `LinkedGraph.build_eq` — one pass over the columns gives the links of the graph, or the
  same error.
-/

namespace FormulaTable

namespace Graph

variable {g : Graph}

/-- The linked dependencies are those of the graph. -/
theorem dependenciesAt_linked (p : Nat) : g.linked.dependenciesAt p = g.dependencies p :=
  rfl

/-- The linked dependents are those of the graph. -/
theorem dependentsAt_linked {p : Nat} (hp : p < g.size) :
    g.linked.dependentsAt p = g.dependents p := by
  rw [LinkedGraph.dependentsAt, linked, List.getElem?_map, positions,
    List.getElem?_range hp]
  rfl

/-- Beyond the last position nothing is linked. -/
theorem dependentsAt_linked_of_le {p : Nat} (hp : g.size ≤ p) :
    g.linked.dependentsAt p = [] := by
  rw [LinkedGraph.dependentsAt, linked, List.getElem?_map, positions,
    List.getElem?_eq_none (by rwa [List.length_range])]
  rfl

end Graph

namespace LinkedGraph

/-! ### The index -/

/-- A name is in the index exactly if it is one of its keys. -/
theorem isSome_lookup_iff {index : List (String × Nat)} {name : String} :
    (index.lookup name).isSome ↔ name ∈ index.map (·.1) := by
  rw [Option.isSome_iff_ne_none, Ne, List.lookup_eq_none_iff]
  simp

/-- Names are entered up to the first one that is there already. -/
theorem foldlM_enter_eq (columns : List Column) (k : Nat) (index : List (String × Nat)) :
    (columns.zipIdx k).foldlM enter index =
      match firstRepeatAfter? (index.map (·.1)) (columns.map (·.name)) with
      | some name => .error (.duplicateColumn name)
      | none => .ok (((columns.map (·.name)).zipIdx k).reverse ++ index) := by
  induction columns generalizing k index with
  | nil => rfl
  | cons c columns ih =>
      rw [List.zipIdx_cons, List.foldlM_cons, List.map_cons, firstRepeatAfter?, enter]
      by_cases hc : c.name ∈ index.map (·.1)
      · rw [if_pos (isSome_lookup_iff.2 hc), if_pos (List.contains_iff_mem.2 hc)]
        rfl
      · rw [if_neg (mt isSome_lookup_iff.1 hc), if_neg (mt List.contains_iff_mem.1 hc)]
        refine (ih (k + 1) ((c.name, k) :: index)).trans ?_
        rw [List.map_cons, List.zipIdx_cons, List.reverse_cons, List.append_assoc,
          List.singleton_append]

/-- Distinct names are found in the index where they stand. -/
theorem lookup_reverse_zipIdx {names : List String} (h : names.Nodup) (name : String) :
    names.zipIdx.reverse.lookup name = names.idxOf? name := by
  have hnodup : (names.zipIdx.reverse.map Prod.fst).Nodup := by
    rw [List.map_reverse, List.nodup_reverse, List.zipIdx_map_fst]
    exact h
  refine Option.ext fun p => ?_
  rw [lookup_eq_some_of_nodup hnodup, List.mem_reverse, List.mem_zipIdx_iff_getElem?,
    idxOf?_eq_some_of_nodup h]

/-! ### Links -/

/-- One more dependent of a position. -/
def addDependent (p : Nat) (dependents : List (List Nat)) (q : Nat) : List (List Nat) :=
  dependents.modify q (· ++ [p])

/-- One more dependent of each dependency of a position. -/
def addDependents (dependents : List (List Nat)) (entry : List Nat × Nat) :
    List (List Nat) :=
  entry.1.foldl (addDependent entry.2) dependents

/-- Leaving repetitions out keeps the first of them. -/
theorem eraseDups_concat (found : List Nat) (q : Nat) :
    (found ++ [q]).eraseDups =
      if q ∈ found then found.eraseDups else found.eraseDups ++ [q] := by
  rw [List.eraseDups_append]
  by_cases hq : q ∈ found
  · simp [List.removeAll, hq]
  · have hnew : [q].removeAll found = [q] := by simp [List.removeAll, hq]
    rw [hnew, if_neg hq, List.eraseDups_cons, List.filter_nil, List.eraseDups_nil]

section

variable {names : List String} {index : List (String × Nat)}
  (hindex : ∀ name, index.lookup name = names.idxOf? name)

include hindex

/-- The names of a column are linked up to the first one that is missing, each of the others
once. -/
theorem foldlM_link_eq (p : Nat) (ns : List String) (found : List Nat)
    (dependents : List (List Nat)) :
    ns.foldlM (link index p)
      (found.eraseDups, addDependents dependents (found.eraseDups, p)) =
      (ns.mapM (Graph.placeOf names)).map fun more =>
        ((found ++ more).eraseDups,
            addDependents dependents ((found ++ more).eraseDups, p)) := by
  induction ns generalizing found with
  | nil =>
      show Except.ok (found.eraseDups, addDependents dependents (found.eraseDups, p)) =
        Except.ok ((found ++ []).eraseDups,
            addDependents dependents ((found ++ []).eraseDups, p))
      rw [List.append_nil]
  | cons name ns ih =>
      rw [List.foldlM_cons, List.mapM_cons, link, hindex, Graph.placeOf]
      cases names.idxOf? name with
      | none => rfl
      | some q =>
          have hstep : (if found.eraseDups.contains q then
                Except.ok (found.eraseDups, addDependents dependents (found.eraseDups, p))
              else .ok (found.eraseDups ++ [q],
                (addDependents dependents (found.eraseDups, p)).modify q (· ++ [p]))) =
              (.ok ((found ++ [q]).eraseDups,
                  addDependents dependents ((found ++ [q]).eraseDups, p)) :
                Except Error (List Nat × List (List Nat))) := by
            simp only [eraseDups_concat, List.contains_iff_mem, List.mem_eraseDups]
            by_cases hq : q ∈ found
            · rw [if_pos hq, if_pos hq]
            · rw [if_neg hq, if_neg hq]
              simp only [addDependents, List.foldl_append, List.foldl_cons, List.foldl_nil,
                addDependent]
          dsimp only
          rw [hstep]
          refine (ih (found ++ [q])).trans ?_
          cases ns.mapM (Graph.placeOf names) with
          | error e => rfl
          | ok more =>
              show Except.ok
                ((found ++ [q] ++ more).eraseDups, addDependents dependents _) =
                Except.ok ((found ++ q :: more).eraseDups, addDependents dependents _)
              rw [List.append_assoc, List.singleton_append]

/-- Linking a column appends its dependencies, and the position to the dependents of each.
-/
theorem linkColumn_eq (links : List (List Nat) × List (List Nat)) (c : Column) (p : Nat) :
    linkColumn index links (c, p) =
      (Graph.resolve names c).map fun direct =>
        (links.1 ++ [direct], addDependents links.2 (direct, p)) := by
  have hlinks := foldlM_link_eq hindex p c.dependencies [] links.2
  rw [linkColumn, Graph.resolve]
  refine (congrArg (· >>= _) hlinks).trans ?_
  cases c.dependencies.mapM (Graph.placeOf names) <;> rfl

/-- Columns are linked up to the first one with a name that is missing. -/
theorem foldlM_linkColumn_eq (columns : List Column) (k : Nat)
    (links : List (List Nat) × List (List Nat)) :
    (columns.zipIdx k).foldlM (linkColumn index) links =
      (columns.mapM (Graph.resolve names)).map fun direct =>
        (links.1 ++ direct, (direct.zipIdx k).foldl addDependents links.2) := by
  induction columns generalizing k links with
  | nil =>
      show Except.ok links = Except.ok (links.1 ++ [], links.2)
      rw [List.append_nil]
  | cons c columns ih =>
      rw [List.zipIdx_cons, List.foldlM_cons, List.mapM_cons, linkColumn_eq hindex]
      cases Graph.resolve names c with
      | error e => rfl
      | ok direct =>
          refine (ih (k + 1) _).trans ?_
          cases columns.mapM (Graph.resolve names) with
          | error e => rfl
          | ok rest =>
              show Except.ok (links.1 ++ [direct] ++ rest, _) =
                Except.ok (links.1 ++ direct :: rest, _)
              rw [List.append_assoc, List.singleton_append]
              rfl

end

/-- A position becomes a dependent of those that are listed for it. -/
theorem getElem?_addDependents {qs : List Nat} (h : qs.Nodup) (dependents : List (List Nat))
    (p q : Nat) :
    (addDependents dependents (qs, p))[q]? =
      dependents[q]?.map fun ps => if q ∈ qs then ps ++ [p] else ps := by
  induction qs generalizing dependents with
  | nil => simp [addDependents]
  | cons r qs ih =>
      obtain ⟨hr, hqs⟩ := List.nodup_cons.1 h
      refine (ih hqs (addDependent p dependents r)).trans ?_
      rw [addDependent, List.getElem?_modify]
      by_cases hrq : r = q
      · subst hrq
        simp [hr, Function.comp_def]
      · simp [hrq, Ne.symm hrq]

/-- In the end the dependents of a position are those for which it is listed, in their
order. -/
theorem getElem?_foldl_addDependents {entries : List (List Nat × Nat)}
    (h : ∀ e ∈ entries, e.1.Nodup) (dependents : List (List Nat)) (q : Nat) :
    (entries.foldl addDependents dependents)[q]? =
      dependents[q]?.map (· ++ (entries.filter fun e => e.1.contains q).map (·.2)) := by
  induction entries generalizing dependents with
  | nil => simp
  | cons e entries ih =>
      obtain ⟨he, hentries⟩ := List.forall_mem_cons.1 h
      rw [List.foldl_cons, ih hentries, getElem?_addDependents he, List.filter_cons,
        Option.map_map]
      refine congrArg (fun f => Option.map f dependents[q]?) (funext fun ps => ?_)
      by_cases hq : q ∈ e.1 <;> simp [hq]

/-- A list with its indices lists what stands at each of them. -/
theorem zipIdx_eq_map_range (direct : List (List Nat)) :
    direct.zipIdx = (List.range direct.length).map fun p => (direct[p]?.getD [], p) := by
  refine List.ext_getElem? fun p => ?_
  rw [List.getElem?_zipIdx, List.getElem?_map, Nat.zero_add]
  rcases Nat.lt_or_ge p direct.length with hp | hp
  · rw [List.getElem?_range hp, List.getElem?_eq_getElem hp]
    simp [hp]
  · rw [List.getElem?_eq_none hp, List.getElem?_eq_none (by rwa [List.length_range])]
    rfl

/-- Linking all columns gives each position its dependents. -/
theorem foldl_addDependents_eq {g : Graph} {columns : List Column}
    (h : g.Resolves columns) :
    g.direct.zipIdx.foldl addDependents (columns.map fun _ => []) =
      g.positions.map g.dependents := by
  have hentries : g.direct.zipIdx = g.positions.map fun p => (g.dependencies p, p) := by
    rw [zipIdx_eq_map_range, h.length_direct, ← h.size_eq]
    rfl
  have hnodup : ∀ e ∈ g.direct.zipIdx, e.1.Nodup := by
    rw [hentries]
    exact List.forall_mem_map.2 fun p _ => h.nodup_dependencies p
  refine List.ext_getElem? fun q => ?_
  rw [getElem?_foldl_addDependents hnodup, hentries, List.getElem?_map, List.getElem?_map,
    List.filter_map, List.map_map]
  rcases Nat.lt_or_ge q columns.length with hq | hq
  · rw [List.getElem?_eq_getElem hq, Graph.positions, h.size_eq, List.getElem?_range hq]
    show some ([] ++ _) = some _
    rw [List.nil_append, Graph.dependents, Graph.positions, h.size_eq]
    exact congrArg some (List.map_id _)
  · rw [List.getElem?_eq_none hq, Graph.positions, h.size_eq,
      List.getElem?_eq_none (by rwa [List.length_range])]
    rfl

/-- **One pass over the columns** gives the links of the graph that is made of them, or the
same error. -/
theorem build_eq (columns : List Column) :
    build columns = (Graph.build columns).map Graph.linked := by
  have henter := foldlM_enter_eq columns 0 []
  rw [List.map_nil, List.append_nil] at henter
  rw [build, Graph.build, henter]
  cases hrep : firstRepeat? (columns.map (·.name)) with
  | some name =>
      rw [firstRepeat?] at hrep
      rw [hrep]
      rfl
  | none =>
      have hnodup := firstRepeat?_eq_none.1 hrep
      have hlink := foldlM_linkColumn_eq (lookup_reverse_zipIdx hnodup) columns 0
        ([], columns.map fun _ => [])
      rw [firstRepeat?] at hrep
      rw [hrep]
      show (List.foldlM _ _ _ >>= _) = Except.map _ (List.mapM _ _ >>= _)
      rw [hlink]
      cases hdirect : columns.mapM (Graph.resolve (columns.map (·.name))) with
      | error e => rfl
      | ok direct =>
          have hg : Graph.Resolves ⟨columns.map (·.name), direct⟩ columns :=
            ⟨rfl, hnodup, hdirect⟩
          have hlinked :
              (⟨columns.map (·.name), (columns.map (·.name)).zipIdx.reverse, [] ++ direct,
              direct.zipIdx.foldl addDependents (columns.map fun _ => [])⟩ : LinkedGraph) =
              Graph.linked ⟨columns.map (·.name), direct⟩ := by
            rw [Graph.linked, ← foldl_addDependents_eq hg, List.nil_append]
          have hcycle :=
            Graph.findCycle?_linked fun _ _ hq => (hg.lt_of_mem_dependencies hq).2
          rw [← hlinked] at hcycle
          dsimp only [bind, Except.bind, Except.map]
          rw [hcycle]
          cases Graph.findCycle? ⟨columns.map (·.name), direct⟩ with
          | some path => rfl
          | none => exact congrArg Except.ok hlinked

end LinkedGraph

end FormulaTable
