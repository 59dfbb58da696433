import FormulaTable.Proofs.Dependency.Change
import FormulaTable.Proofs.Dependency.Linking

/-!
# Which columns make a graph

Columns are refused for the first of three reasons: two of them share a name, a dependency
names no column, or something depends on itself through others. What depends on what is said
here by name, as the columns themselves say it; under distinct names this is what the
positions of a graph say.

* `Graph.outcome_build` — what can come of columns.
* `Graph.Resolves.transGen_iff` — dependence through others, by name and by position.
* `LinkedGraph.judged_build` — each outcome by what is wrong with the columns, and the links
  of a graph.
-/

namespace FormulaTable

/-- A column depends on what its computation reads. A computation in place of a stored
column reads that column under its own name, which is no dependency. -/
def Column.DependsOn (c : Column) (name : String) : Prop :=
  name ∈ c.inputs ∧ ¬ (c.source?.isSome ∧ name = c.name)

/-- What a column depends on is what its content reads. -/
theorem Column.mem_dependencies_iff {c : Column} {name : String} :
    name ∈ c.dependencies ↔ c.DependsOn name := by
  obtain ⟨own, content⟩ := c
  cases content <;> simp [dependencies, DependsOn, inputs, computation?, source?]

namespace Columns

/-- A name depends on another one directly: a column of the one reads the other. -/
def DependsOn (columns : List Column) (a b : String) : Prop :=
  ∃ c ∈ columns, c.name = a ∧ c.DependsOn b

/-- Every dependency names a column. -/
def Named (columns : List Column) : Prop :=
  ∀ c ∈ columns, ∀ name, c.DependsOn name → name ∈ columns.map (·.name)

/-- Names that return to the first one, each of which depends directly on the next. No other
name comes twice. -/
def IsCycle (columns : List Column) (path : List String) : Prop :=
  ∃ name rest, path = name :: rest ++ [name] ∧ (name :: rest).Nodup ∧
    path.IsChain (DependsOn columns)

end Columns

open Columns

namespace Graph

variable {g : Graph} {columns : List Column}

/-! ### By name -/

namespace Resolves

variable (h : g.Resolves columns)

include h

/-- Dependence between columns at known positions. -/
theorem reads_iff {p q : Nat} {c d : Column} (hc : columns[p]? = some c)
    (hd : columns[q]? = some d) :
    g.Reads p q ↔ c.DependsOn d.name := by
  rw [Reads, h.mem_dependencies hc, ← Column.mem_dependencies_iff]
  constructor
  · rintro ⟨d', hd', hdep⟩
    obtain rfl := Option.some.inj (hd.symm.trans hd')
    exact hdep
  · intro hdep
    exact ⟨d, hd, hdep⟩

/-- A graph is made only of columns whose dependencies are columns as well. -/
theorem named : Named columns := fun _ hc _ hdep =>
  h.mem_of_mem_dependencies hc (Column.mem_dependencies_iff.2 hdep)

/-- What a position reads, its name depends on. -/
theorem dependsOn_name {p q : Nat} (hpq : g.Reads p q) :
    DependsOn columns (g.name p) (g.name q) := by
  obtain ⟨hp, hq⟩ := h.lt_of_mem_dependencies hpq
  rw [h.size_eq] at hp hq
  have hc := List.getElem?_eq_getElem hp
  have hd := List.getElem?_eq_getElem hq
  rw [h.name_eq hc, h.name_eq hd]
  exact ⟨columns[p], List.getElem_mem hp, rfl, (h.reads_iff hc hd).1 hpq⟩

/-- What the name of a position depends on is the name of a position that it reads. -/
theorem exists_reads {p : Nat} (hp : p < g.size) {name : String}
    (hdep : DependsOn columns (g.name p) name) :
    ∃ q, g.Reads p q ∧ g.name q = name := by
  obtain ⟨c, hmem, hname, hdep⟩ := hdep
  obtain ⟨r, hc⟩ := List.mem_iff_getElem?.1 hmem
  obtain ⟨q, d, hd, rfl, hq⟩ :=
    h.exists_of_mem_dependencies hc (Column.mem_dependencies_iff.2 hdep)
  have hc' := List.getElem?_eq_getElem (h.size_eq ▸ hp)
  obtain rfl : p = r := h.eq_of_name_eq hc' hc (by rw [← h.name_eq hc', hname])
  exact ⟨q, hq, h.name_eq hd⟩

/-- **Dependence through others** is the same by name and by position. -/
theorem transGen_iff {p : Nat} (hp : p < g.size) {name : String} :
    Relation.TransGen (DependsOn columns) (g.name p) name ↔
      ∃ q, Relation.TransGen g.Reads p q ∧ g.name q = name := by
  constructor
  · intro hpath
    induction hpath with
    | single hdep =>
        obtain ⟨q, hq, hname⟩ := h.exists_reads hp hdep
        exact ⟨q, .single hq, hname⟩
    | tail _ hdep ih =>
        obtain ⟨q, hpq, rfl⟩ := ih
        obtain ⟨r, hpr, hrq⟩ := Relation.TransGen.tail'_iff.1 hpq
        obtain ⟨s, hqs, hname⟩ := h.exists_reads (h.lt_of_mem_dependencies hrq).2 hdep
        exact ⟨s, hpq.tail hqs, hname⟩
  · rintro ⟨q, hpq, rfl⟩
    exact hpq.lift g.name fun _ _ hdep => h.dependsOn_name hdep

/-- Names are distinct where positions are. -/
theorem name_inj {p q : Nat} (hp : p < g.size) (hq : q < g.size)
    (heq : g.name p = g.name q) : p = q := by
  rw [h.size_eq] at hp hq
  have hc := List.getElem?_eq_getElem hp
  have hd := List.getElem?_eq_getElem hq
  exact h.eq_of_name_eq hc hd (by rw [← h.name_eq hc, heq, h.name_eq hd])

/-- Something depends on itself by name exactly if a position does. -/
theorem exists_loop_iff_name : (∃ name, Relation.TransGen (DependsOn columns) name name) ↔
    ∃ p, Relation.TransGen g.Reads p p := by
  constructor
  · rintro ⟨name, hloop⟩
    obtain ⟨-, ⟨c, hc, rfl, -⟩, -⟩ := Relation.TransGen.head'_iff.1 hloop
    obtain ⟨p, hp⟩ := List.mem_iff_getElem?.1 hc
    have hlt : p < g.size := h.size_eq ▸ (List.getElem?_eq_some_iff.1 hp).1
    rw [← h.name_eq hp, h.transGen_iff hlt] at hloop
    obtain ⟨q, hpq, hname⟩ := hloop
    obtain ⟨r, -, hrq⟩ := Relation.TransGen.tail'_iff.1 hpq
    exact ⟨p, h.name_inj (h.lt_of_mem_dependencies hrq).2 hlt hname ▸ hpq⟩
  · rintro ⟨p, hloop⟩
    exact ⟨g.name p, hloop.lift g.name fun _ _ hdep => h.dependsOn_name hdep⟩

/-- The names on a cycle of positions are one. -/
theorem isCycle_namesAt {path : List Nat} (hpath : g.IsCycle path) :
    Columns.IsCycle columns (g.namesAt path) := by
  obtain ⟨p, rest, rfl, hchain, hnodup⟩ := hpath
  -- Every position on the path but the last reads the next one, and the last one is the
  -- first.
  have hlt : ∀ q ∈ p :: rest, q < g.size := by
    intro q hq
    obtain ⟨before, after, hsplit⟩ := List.append_of_mem hq
    rw [hsplit, List.append_assoc, List.cons_append] at hchain
    cases after with
    | nil =>
        exact (h.lt_of_mem_dependencies
            (List.isChain_cons_cons.1 hchain.right_of_append).1).1
    | cons r after =>
        exact (h.lt_of_mem_dependencies
            (List.isChain_cons_cons.1 hchain.right_of_append).1).1
  refine ⟨g.name p, rest.map g.name, ?_, ?_, ?_⟩
  · rw [namesAt, List.map_append, List.map_cons, List.map_singleton]
  · rw [← List.map_cons]
    exact hnodup.map_on fun q hq r hr heq => h.name_inj (hlt q hq) (hlt r hr) heq
  · rw [namesAt, List.isChain_map]
    exact hchain.imp fun _ _ hdep => h.dependsOn_name hdep

end Resolves

/-! ### What comes of columns -/

/-- What can come of columns, and why. -/
inductive Outcome (columns : List Column) : Except Error Graph → Prop
  | duplicate {name : String} : ¬ (columns.map (·.name)).Nodup →
      Outcome columns (.error (.duplicateColumn name))
  | unknown {name : String} : (columns.map (·.name)).Nodup → ¬ Named columns →
      Outcome columns (.error (.unknownColumn name))
  | cycle {g : Graph} {path : List Nat} : g.Resolves columns → g.IsCycle path →
      Outcome columns (.error (.cycle (g.namesAt path)))
  | graph {g : Graph} : g.Describes columns → Outcome columns (.ok g)

/-- A dependency that is no column is the fault of columns with distinct names. -/
theorem exists_build_eq_unknownColumn (hnodup : (columns.map (·.name)).Nodup)
    (hnamed : ¬ Named columns) :
    ∃ name, build columns = .error (.unknownColumn name) := by
  cases hmap : columns.mapM (resolve (columns.map (·.name))) with
  | ok direct =>
      have hg : Resolves ⟨columns.map (·.name), direct⟩ columns := ⟨rfl, hnodup, hmap⟩
      exact absurd hg.named hnamed
  | error e =>
      obtain ⟨c, -, hresolve⟩ := exists_of_mapM_eq_error hmap
      obtain ⟨name, rfl⟩ := eq_unknownColumn_of_resolve hresolve
      refine ⟨name, ?_⟩
      rw [build, firstRepeat?_eq_none.2 hnodup]
      exact bind_eq_error.2 (.inl hmap)

/-- **One of four things comes of columns.** -/
theorem outcome_build (columns : List Column) : Outcome columns (build columns) := by
  by_cases hnodup : (columns.map (·.name)).Nodup
  case neg =>
    obtain ⟨name, hname⟩ := Option.ne_none_iff_exists'.1 (mt firstRepeat?_eq_none.1 hnodup)
    rw [build, hname]
    exact .duplicate hnodup
  case pos =>
    by_cases hnamed : Named columns
    case neg =>
      obtain ⟨name, hbuild⟩ := exists_build_eq_unknownColumn hnodup hnamed
      rw [hbuild]
      exact .unknown hnodup hnamed
    case pos =>
      obtain ⟨g, hg⟩ := exists_resolves hnodup fun c hc name hname =>
        hnamed c hc name (Column.mem_dependencies_iff.1 hname)
      have hsearch := settled_or_isCycle fun _ _ hq => (hg.lt_of_mem_dependencies hq).2
      rw [hg.build_eq]
      cases hcycle : g.findCycle? with
      | none => exact .graph ⟨hg, hcycle⟩
      | some path =>
          rw [hcycle] at hsearch
          exact .cycle hg hsearch

end Graph

/-! ### Links and judgements -/

namespace LinkedGraph

/-- The links of a graph are those of the columns. Both lists of a position are free of
repetitions, and a position is a dependent of those that it depends on. -/
structure Links (g : LinkedGraph) (columns : List Column) : Prop where
  names_eq : g.names = columns.map (·.name)
  length_dependencies : g.dependencies.length = columns.length
  length_dependents : g.dependents.length = columns.length
  mem_dependenciesAt : ∀ p q, q ∈ g.dependenciesAt p ↔
    ∃ c d, columns[p]? = some c ∧ columns[q]? = some d ∧ c.DependsOn d.name
  mem_dependentsAt : ∀ p q, p ∈ g.dependentsAt q ↔ q ∈ g.dependenciesAt p
  nodup_dependenciesAt : ∀ p, (g.dependenciesAt p).Nodup
  nodup_dependentsAt : ∀ p, (g.dependentsAt p).Nodup

/-- Columns are judged rightly: each outcome comes for its reason, and the reasons are asked
for in turn. -/
structure Judged (columns : List Column) (r : Except Error LinkedGraph) : Prop where
  duplicate : (∃ name, r = .error (.duplicateColumn name)) ↔ ¬ (columns.map (·.name)).Nodup
  unknown : (∃ name, r = .error (.unknownColumn name)) ↔
    (columns.map (·.name)).Nodup ∧ ∃ c ∈ columns, ∃ name, c.DependsOn name ∧
      name ∉ columns.map (·.name)
  cycle : (∃ path, r = .error (.cycle path)) ↔
    (columns.map (·.name)).Nodup ∧ Named columns ∧ ∃ name,
      Relation.TransGen (DependsOn columns) name name
  graph : (∃ g, r = .ok g) ↔
    (columns.map (·.name)).Nodup ∧ Named columns ∧ ¬ ∃ name,
      Relation.TransGen (DependsOn columns) name name
  path : ∀ path, r = .error (.cycle path) → Columns.IsCycle columns path
  links : ∀ g, r = .ok g → g.Links columns

end LinkedGraph

namespace Graph

variable {g : Graph} {columns : List Column}

/-- The links of a graph that resolves columns are those of the columns. -/
theorem Resolves.links (h : g.Resolves columns) : g.linked.Links columns where
  names_eq := h.names_eq
  length_dependencies := h.length_direct
  length_dependents := by
    rw [linked, List.length_map, positions, List.length_range, h.size_eq]
  mem_dependenciesAt p q := by
    rw [dependenciesAt_linked]
    constructor
    · intro hq
      obtain ⟨hp, hlt⟩ := h.lt_of_mem_dependencies hq
      rw [h.size_eq] at hp hlt
      have hc := List.getElem?_eq_getElem hp
      have hd := List.getElem?_eq_getElem hlt
      exact ⟨_, _, hc, hd, (h.reads_iff hc hd).1 hq⟩
    · rintro ⟨c, d, hc, hd, hdep⟩
      exact (h.reads_iff hc hd).2 hdep
  mem_dependentsAt p q := by
    rw [dependenciesAt_linked]
    rcases Nat.lt_or_ge q g.size with hq | hq
    · rw [dependentsAt_linked hq, mem_dependents]
      exact and_iff_right_of_imp fun hdep => (h.lt_of_mem_dependencies hdep).1
    · rw [dependentsAt_linked_of_le hq]
      refine iff_of_false List.not_mem_nil fun hdep => ?_
      exact absurd (h.lt_of_mem_dependencies hdep).2 (Nat.not_lt.2 hq)
  nodup_dependenciesAt := h.nodup_dependencies
  nodup_dependentsAt p := by
    rcases Nat.lt_or_ge p g.size with hp | hp
    · rw [dependentsAt_linked hp]
      exact nodup_dependents p
    · rw [dependentsAt_linked_of_le hp]
      exact .nil

end Graph

namespace LinkedGraph

/-- Columns are not all named exactly if one of them depends on a name that no column has.
-/
theorem not_named_iff {columns : List Column} : ¬ Named columns ↔
    ∃ c ∈ columns, ∃ name, c.DependsOn name ∧ name ∉ columns.map (·.name) := by
  simp only [Named, not_forall, exists_prop]

/-- The graph of an outcome is linked where the outcome is judged. -/
theorem judged_of_outcome {columns : List Column} {r : Except Error Graph}
    (h : Graph.Outcome columns r) :
    Judged columns (r.map Graph.linked) := by
  cases h with
  | duplicate hshared =>
      exact {
        duplicate := iff_of_true ⟨_, rfl⟩ hshared
        unknown := iff_of_false (fun ⟨_, h⟩ => nomatch h) fun h => hshared h.1
        cycle := iff_of_false (fun ⟨_, h⟩ => nomatch h) fun h => hshared h.1
        graph := iff_of_false (fun ⟨_, h⟩ => nomatch h) fun h => hshared h.1
        path := fun _ h => nomatch h
        links := fun _ h => nomatch h }
  | unknown hnodup hunnamed =>
      exact {
        duplicate := iff_of_false (fun ⟨_, h⟩ => nomatch h) fun h => h hnodup
        unknown := iff_of_true ⟨_, rfl⟩ ⟨hnodup, not_named_iff.1 hunnamed⟩
        cycle := iff_of_false (fun ⟨_, h⟩ => nomatch h) fun h => hunnamed h.2.1
        graph := iff_of_false (fun ⟨_, h⟩ => nomatch h) fun h => hunnamed h.2.1
        path := fun _ h => nomatch h
        links := fun _ h => nomatch h }
  | @cycle g path hg hpath =>
      have hloop : ∃ p, Relation.TransGen g.Reads p p := by
        obtain ⟨p, rest, rfl, hchain, -⟩ := hpath
        exact ⟨p, Graph.transGen_of_isChain hchain⟩
      rw [← hg.exists_loop_iff_name] at hloop
      exact {
        duplicate := iff_of_false (fun ⟨_, h⟩ => nomatch h) fun h => h hg.nodup
        unknown :=
          iff_of_false (fun ⟨_, h⟩ => nomatch h) fun h => not_named_iff.2 h.2 hg.named
        cycle := iff_of_true ⟨_, rfl⟩ ⟨hg.nodup, hg.named, hloop⟩
        graph := iff_of_false (fun ⟨_, h⟩ => nomatch h) fun h => h.2.2 hloop
        path := by
          rintro _ ⟨⟩
          exact hg.isCycle_namesAt hpath
        links := fun _ h => nomatch h }
  | @graph g hg =>
      have hloop : ¬ ∃ name, Relation.TransGen (DependsOn columns) name name := by
        rw [hg.exists_loop_iff_name]
        rintro ⟨p, hp⟩
        exact hg.not_transGen_self p hp
      exact {
        duplicate := iff_of_false (fun ⟨_, h⟩ => nomatch h) fun h => h hg.nodup
        unknown :=
          iff_of_false (fun ⟨_, h⟩ => nomatch h) fun h => not_named_iff.2 h.2 hg.named
        cycle := iff_of_false (fun ⟨_, h⟩ => nomatch h) fun h => hloop h.2.2
        graph := iff_of_true ⟨_, rfl⟩ ⟨hg.nodup, hg.named, hloop⟩
        path := fun _ h => nomatch h
        links := by
          rintro _ ⟨⟩
          exact hg.links }

/-- **Columns make a graph exactly if** their names are distinct, every dependency is a
column and nothing depends on itself; otherwise the first of these that fails is reported, a
cycle by the names along it. Both ways to make the graph agree, and its links in one
direction are the converse of those in the other. -/
theorem judged_build (columns : List Column) :
    LinkedGraph.build columns = (Graph.build columns).map Graph.linked ∧
      Judged columns (LinkedGraph.build columns) := by
  rw [build_eq]
  exact ⟨rfl, judged_of_outcome (Graph.outcome_build columns)⟩

end LinkedGraph

end FormulaTable
