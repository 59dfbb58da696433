import FormulaTable.Dependency.Graph
import FormulaTable.Proofs.Result
import Mathlib.Data.List.Nodup

/-!
# What a graph says about its columns

A graph is built from columns with distinct names, each of whose dependencies names one of
them. The positions of the graph are those of the columns, and one position directly depends
on another exactly when the column there lists the name of the other column.

* `exists_resolves` — the names of columns can be resolved if they are distinct and all are
  there.
* `build_eq_ok` — when columns make a graph, and which one.
* `Resolves.mem_dependencies` — direct dependencies by position, read off the columns.
* `Resolves.position_eq_ok` — the position of a name is that of the column of the name.
-/

namespace FormulaTable

/-- In a list without duplicates a member is found where it stands. -/
theorem idxOf?_eq_some_of_nodup {α : Type} [BEq α] [LawfulBEq α] {l : List α} (h : l.Nodup)
    {a : α} {i : Nat} : l.idxOf? a = some i ↔ l[i]? = some a := by
  rw [List.idxOf?_eq_some_iff]
  constructor
  · rintro ⟨hi, ha, -⟩
    rw [List.getElem?_eq_getElem hi, ha]
  · intro ha
    obtain ⟨hi, ha⟩ := List.getElem?_eq_some_iff.1 ha
    refine ⟨hi, ha, fun j hj hja => ?_⟩
    have := (List.Nodup.getElem_inj_iff h).1 (hja.trans ha.symm)
    omega

namespace Graph

/-- The graph has the names of the columns, which are distinct, and the positions of their
dependencies. -/
structure Resolves (g : Graph) (columns : List Column) : Prop where
  names_eq : g.names = columns.map (·.name)
  nodup : (columns.map (·.name)).Nodup
  direct_eq : columns.mapM (resolve (columns.map (·.name))) = .ok g.direct

/-- The graph of a list of columns: their names are resolved, and the search finds no
cycle. -/
structure Describes (g : Graph) (columns : List Column) :
    Prop extends g.Resolves columns where
  noCycle : g.findCycle? = none

/-- Columns make exactly the graph that describes them. -/
theorem build_eq_ok {columns : List Column} {g : Graph} :
    build columns = .ok g ↔ g.Describes columns := by
  cases hrep : firstRepeat? (columns.map (·.name)) with
  | some name =>
      simp only [build, hrep]
      constructor
      · rintro ⟨⟩
      · intro h
        rw [firstRepeat?_eq_none.2 h.nodup] at hrep
        cases hrep
  | none =>
      simp only [build, hrep, bind_eq_ok]
      constructor
      · rintro ⟨direct, hdirect, h⟩
        cases hcyc : findCycle? ⟨columns.map (·.name), direct⟩ with
        | some path =>
            rw [hcyc] at h
            cases h
        | none =>
            rw [hcyc] at h
            cases h
            exact ⟨⟨rfl, firstRepeat?_eq_none.1 hrep, hdirect⟩, hcyc⟩
      · intro h
        have hg : (⟨columns.map (·.name), g.direct⟩ : Graph) = g := by rw [← h.names_eq]
        refine ⟨g.direct, h.direct_eq, ?_⟩
        rw [hg, h.noCycle]
        rfl

/-- What comes of columns whose names are resolved. -/
theorem Resolves.build_eq {columns : List Column} {g : Graph} (h : g.Resolves columns) :
    build columns =
      match g.findCycle? with
      | some path => .error (.cycle (g.namesAt path))
      | none => .ok g := by
  have hg : (⟨columns.map (·.name), g.direct⟩ : Graph) = g := by rw [← h.names_eq]
  rw [build, firstRepeat?_eq_none.2 h.nodup]
  show (List.mapM _ _ >>= _) = _
  rw [h.direct_eq]
  show (match findCycle? ⟨columns.map (·.name), g.direct⟩ with
    | some path => _
    | none => _) = _
  rw [hg]
  cases g.findCycle? <;> rfl

/-- Columns make one graph. -/
theorem Describes.graph_eq {columns : List Column} {g g' : Graph} (h : g.Describes columns)
    (h' : g'.Describes columns) : g = g' := by
  have hbuild := build_eq_ok.2 h
  rw [build_eq_ok.2 h'] at hbuild
  exact (Except.ok.inj hbuild).symm

/-- The place of a name is where it occurs first. -/
theorem placeOf_eq_ok {names : List String} {name : String} {p : Nat} :
    placeOf names name = .ok p ↔ names.idxOf? name = some p := by
  rw [placeOf]
  cases names.idxOf? name with
  | none =>
      constructor
      · rintro ⟨⟩
      · rintro ⟨⟩
  | some q =>
      constructor
      · rintro ⟨⟩
        rfl
      · rintro ⟨⟩
        rfl

/-- The dependencies of a column can be resolved if all of them are among the names. -/
theorem exists_resolve_eq_ok {names : List String} {c : Column}
    (h : ∀ name ∈ c.dependencies, name ∈ names) : ∃ found, resolve names c = .ok found := by
  obtain ⟨positions, hpos⟩ := exists_mapM_eq_ok fun name hname => by
    obtain ⟨p, hp⟩ := Option.isSome_iff_exists.1 (List.isSome_idxOf?.2 (h name hname))
    exact ⟨p, placeOf_eq_ok.2 hp⟩
  exact ⟨positions.eraseDups, bind_eq_ok.2 ⟨positions, hpos, rfl⟩⟩

/-- The names of columns resolve if they are distinct and every dependency is a column. -/
theorem exists_resolves {columns : List Column} (hnodup : (columns.map (·.name)).Nodup)
    (hnamed : ∀ c ∈ columns, ∀ name ∈ c.dependencies, name ∈ columns.map (·.name)) :
    ∃ g : Graph, g.Resolves columns := by
  obtain ⟨direct, hdirect⟩ :=
    exists_mapM_eq_ok fun c hc => exists_resolve_eq_ok (hnamed c hc)
  exact ⟨⟨columns.map (·.name), direct⟩, rfl, hnodup, hdirect⟩

/-- The dependencies of a column resolve to the positions of columns with these names. -/
theorem resolve_eq_ok {names : List String} {c : Column} {found : List Nat}
    (h : resolve names c = .ok found) :
    (∀ name ∈ c.dependencies, ∃ p ∈ found, names.idxOf? name = some p) ∧
      ∀ p ∈ found, ∃ name ∈ c.dependencies, names.idxOf? name = some p := by
  rw [resolve] at h
  obtain ⟨positions, hpos, heq⟩ := bind_eq_ok.1 h
  cases heq
  have hall := mapM_eq_ok.1 hpos
  constructor
  · intro name hname
    obtain ⟨i, hi, rfl⟩ := List.getElem_of_mem hname
    have hlen : i < positions.length := hall.length_eq ▸ hi
    exact ⟨positions[i], List.mem_eraseDups.2 (List.getElem_mem hlen),
      placeOf_eq_ok.1 (List.forall₂_iff_get.1 hall |>.2 i hi hlen)⟩
  · intro p hp
    obtain ⟨i, hi, rfl⟩ := List.getElem_of_mem (List.mem_eraseDups.1 hp)
    have hlen : i < c.dependencies.length := hall.length_eq ▸ hi
    exact ⟨c.dependencies[i], List.getElem_mem hlen,
      placeOf_eq_ok.1 (List.forall₂_iff_get.1 hall |>.2 i hlen hi)⟩

namespace Resolves

variable {g : Graph} {columns : List Column} (h : g.Resolves columns)

include h

/-- A graph has one position for each column. -/
theorem size_eq : g.size = columns.length := by
  rw [size, h.names_eq, List.length_map]

/-- A column of the graph is known by its name. -/
theorem position_eq_ok {name : String} {p : Nat} :
    g.position name = .ok p ↔ ∃ c, columns[p]? = some c ∧ c.name = name := by
  rw [position, placeOf_eq_ok, h.names_eq, idxOf?_eq_some_of_nodup h.nodup,
    List.getElem?_map, Option.map_eq_some_iff]

/-- No two columns share a name. -/
theorem eq_of_name_eq {p q : Nat} {c d : Column} (hc : columns[p]? = some c)
    (hd : columns[q]? = some d) (hname : c.name = d.name) : p = q := by
  have hp := h.position_eq_ok.2 ⟨c, hc, rfl⟩
  have hq := h.position_eq_ok.2 ⟨d, hd, hname.symm⟩
  rw [hp] at hq
  exact Except.ok.inj hq

/-- A graph has one list of dependencies for each column. -/
theorem length_direct : g.direct.length = columns.length :=
  (mapM_eq_ok.1 h.direct_eq).length_eq.symm

/-- The positions of the dependencies of a column are what its dependencies resolve to. -/
theorem resolve_dependencies {p : Nat} {c : Column} (hc : columns[p]? = some c) :
    resolve (columns.map (·.name)) c = .ok (g.dependencies p) := by
  obtain ⟨hp, rfl⟩ := List.getElem?_eq_some_iff.1 hc
  have hlen : p < g.direct.length := h.length_direct ▸ hp
  rw [dependencies, List.getElem?_eq_getElem hlen, Option.getD_some]
  exact (List.forall₂_iff_get.1 (mapM_eq_ok.1 h.direct_eq)).2 p hp hlen

/-- There is nothing beyond the columns that could depend on something. -/
theorem dependencies_eq_nil {p : Nat} (hp : g.size ≤ p) : g.dependencies p = [] := by
  have hlen : g.direct.length ≤ p := by rw [h.length_direct, ← h.size_eq]; exact hp
  rw [dependencies, List.getElem?_eq_none hlen, Option.getD_none]

/-- **Direct dependencies, read off the columns**: a column depends on those that it
names. -/
theorem mem_dependencies {p q : Nat} {c : Column} (hc : columns[p]? = some c) :
    q ∈ g.dependencies p ↔ ∃ d, columns[q]? = some d ∧ d.name ∈ c.dependencies := by
  obtain ⟨hfound, hnamed⟩ := resolve_eq_ok (h.resolve_dependencies hc)
  have hidx : ∀ {name q}, (columns.map (·.name)).idxOf? name = some q ↔
      ∃ d, columns[q]? = some d ∧ d.name = name := by
    intro name q
    rw [idxOf?_eq_some_of_nodup h.nodup, List.getElem?_map, Option.map_eq_some_iff]
  constructor
  · intro hq
    obtain ⟨name, hname, hpos⟩ := hnamed q hq
    obtain ⟨d, hd, rfl⟩ := hidx.1 hpos
    exact ⟨d, hd, hname⟩
  · rintro ⟨d, hd, hname⟩
    obtain ⟨r, hr, hpos⟩ := hfound d.name hname
    obtain ⟨d', hd', hname'⟩ := hidx.1 hpos
    exact h.eq_of_name_eq hd' hd hname' ▸ hr

/-- Every dependency of a column is a column. -/
theorem exists_of_mem_dependencies {p : Nat} {c : Column} (hc : columns[p]? = some c)
    {name : String} (hname : name ∈ c.dependencies) :
    ∃ q d, columns[q]? = some d ∧ d.name = name ∧ q ∈ g.dependencies p := by
  obtain ⟨q, hq, hpos⟩ := (resolve_eq_ok (h.resolve_dependencies hc)).1 name hname
  rw [idxOf?_eq_some_of_nodup h.nodup, List.getElem?_map, Option.map_eq_some_iff] at hpos
  obtain ⟨d, hd, rfl⟩ := hpos
  exact ⟨q, d, hd, rfl, hq⟩

/-- A column reads columns of the table only. -/
theorem mem_of_mem_dependencies {c : Column} (hc : c ∈ columns) {name : String}
    (hname : name ∈ c.dependencies) :
    name ∈ columns.map (·.name) := by
  obtain ⟨p, hp⟩ := List.mem_iff_getElem?.1 hc
  obtain ⟨q, d, hd, rfl, -⟩ := h.exists_of_mem_dependencies hp hname
  exact List.mem_map_of_mem (List.mem_of_getElem? hd)

/-- Dependencies are positions of the graph, and so are the positions that have any. -/
theorem lt_of_mem_dependencies {p q : Nat} (hq : q ∈ g.dependencies p) :
    p < g.size ∧ q < g.size := by
  have hp : p < g.size := by
    by_contra hp
    rw [h.dependencies_eq_nil (by omega)] at hq
    cases hq
  have hlen : p < columns.length := h.size_eq ▸ hp
  obtain ⟨d, hd, -⟩ := (h.mem_dependencies (List.getElem?_eq_getElem hlen)).1 hq
  exact ⟨hp, h.size_eq ▸ (List.getElem?_eq_some_iff.1 hd).1⟩

/-- The name at the position of a column is that of the column. -/
theorem name_eq {p : Nat} {c : Column} (hc : columns[p]? = some c) : g.name p = c.name := by
  rw [name, h.names_eq, List.getElem?_map, hc]
  rfl

/-- The positions are those of the names. -/
theorem namesAt_positions : g.namesAt g.positions = columns.map (·.name) := by
  refine List.ext_getElem? fun p => ?_
  rw [namesAt, positions, List.getElem?_map, List.getElem?_map]
  rcases Nat.lt_or_ge p columns.length with hp | hp
  · have hc := List.getElem?_eq_getElem hp
    rw [List.getElem?_range (h.size_eq ▸ hp), hc, Option.map_some, Option.map_some,
      h.name_eq hc]
  · rw [List.getElem?_eq_none (by rwa [List.length_range, h.size_eq]),
      List.getElem?_eq_none hp]
    rfl

/-- The names of one more column resolve with those of the others if its name is new and all
that it depends on is there, itself included. -/
theorem exists_append {c : Column} (hname : c.name ∉ columns.map (·.name))
    (hdeps : ∀ name ∈ c.dependencies, name ∈ (columns ++ [c]).map (·.name)) :
    ∃ g' : Graph, g'.Resolves (columns ++ [c]) := by
  refine exists_resolves ?_ (List.forall_mem_append.2 ⟨fun d hd name hdep => ?_,
    List.forall_mem_singleton.2 hdeps⟩)
  · rw [List.map_append]
    exact h.nodup.append (List.nodup_singleton _) (by simpa using hname)
  · rw [List.map_append]
    exact List.mem_append_left _ (h.mem_of_mem_dependencies hd hdep)

/-- Positions are found again by their names. -/
theorem mapM_position_namesAt {ps : List Nat} (hps : ∀ p ∈ ps, p < g.size) :
    (g.namesAt ps).mapM g.position = .ok ps := by
  rw [namesAt, mapM_eq_ok, List.forall₂_map_left_iff, List.forall₂_same]
  intro p hp
  have hlen : p < columns.length := h.size_eq ▸ hps p hp
  have hc := List.getElem?_eq_getElem hlen
  exact h.position_eq_ok.2 ⟨_, hc, (h.name_eq hc).symm⟩

end Resolves

end Graph

end FormulaTable
