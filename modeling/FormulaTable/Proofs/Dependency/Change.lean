import FormulaTable.Proofs.Column
import FormulaTable.Proofs.Dependency.Closure

/-!
# Graphs of changed columns

When a column is replaced by another one of its name, only the edges that leave its position
change. The paths that lead to it do not pass through it before their end, so they are the
same in both graphs; and a cycle of the new graph has to pass through it. When a column that
nothing depends on is removed, the positions after it move up and no edge is lost.

* `exists_build_eq_cycle` — when columns are refused because of a cycle.
* `reflTransGen_iff_of_agree`, `exists_loop_iff_of_agree` — relations that agree but for
  what leaves one place.
* `Describes.affected_eq_of_set` — replacing a column does not change which columns depend
  on it.
* `exists_describes_set`, `exists_describes_eraseIdx` — when changed columns make a graph.
-/

namespace FormulaTable

/-! ### Relations that agree but for what leaves one place -/

section

variable {α : Type} {r r' : α → α → Prop} {p : α} (h : ∀ a, a ≠ p → ∀ b, r' a b ↔ r a b)

include h

/-- What leads to a place does not depend on what leaves it. -/
theorem reflTransGen_iff_of_agree {a : α} :
    Relation.ReflTransGen r' a p ↔ Relation.ReflTransGen r a p := by
  constructor
  · intro hpath
    induction hpath using Relation.ReflTransGen.head_induction_on with
    | refl => exact .refl
    | @head a b hab _ ih =>
        rcases eq_or_ne a p with rfl | hap
        · exact .refl
        · exact .head ((h a hap b).1 hab) ih
  · intro hpath
    induction hpath using Relation.ReflTransGen.head_induction_on with
    | refl => exact .refl
    | @head a b hab _ ih =>
        rcases eq_or_ne a p with rfl | hap
        · exact .refl
        · exact .head ((h a hap b).2 hab) ih

/-- A path passes through the place, or is one in both relations. -/
theorem transGen_of_agree {a b : α} (hpath : Relation.TransGen r' a b) :
    Relation.TransGen r a b ∨ Relation.ReflTransGen r' a p ∧ Relation.TransGen r' p b := by
  induction hpath with
  | @single b hab =>
      rcases eq_or_ne a p with rfl | hap
      · exact .inr ⟨.refl, .single hab⟩
      · exact .inl (.single ((h a hap b).1 hab))
  | @tail b c hab hbc ih =>
      rcases eq_or_ne b p with rfl | hbp
      · exact .inr ⟨hab.to_reflTransGen, .single hbc⟩
      · rcases ih with ih | ⟨hap, hpb⟩
        · exact .inl (.tail ih ((h b hbp c).1 hbc))
        · exact .inr ⟨hap, .tail hpb hbc⟩

/-- Where one relation has no loops, the other one has a loop exactly if something that
leaves the place leads back to it. -/
theorem exists_loop_iff_of_agree (hloop : ∀ a, ¬ Relation.TransGen r a a) :
    (∃ a, Relation.TransGen r' a a) ↔ ∃ b, r' p b ∧ Relation.ReflTransGen r b p := by
  constructor
  · rintro ⟨a, ha⟩
    rcases transGen_of_agree h ha with ha | ⟨hap, hpa⟩
    · exact absurd ha (hloop a)
    · obtain ⟨b, hpb, hbp⟩ := Relation.TransGen.head'_iff.1 (hpa.trans_left hap)
      exact ⟨b, hpb, (reflTransGen_iff_of_agree h).1 hbp⟩
  · rintro ⟨b, hpb, hbp⟩
    exact ⟨p, .head' hpb ((reflTransGen_iff_of_agree h).2 hbp)⟩

end

namespace Graph

variable {g g' : Graph} {columns : List Column}

/-! ### Cycles -/

/-- The search finds no cycle exactly where nothing depends on itself. -/
theorem Resolves.noCycle_iff (h : g.Resolves columns) :
    g.findCycle? = none ↔ ∀ p, ¬ Relation.TransGen g.Reads p p := by
  constructor
  · intro hnone
    exact (Describes.mk h hnone).not_transGen_self
  · intro hloop
    have hsearch := settled_or_isCycle fun _ _ hq => (h.lt_of_mem_dependencies hq).2
    cases hcycle : g.findCycle? with
    | none => rfl
    | some path =>
        rw [hcycle] at hsearch
        obtain ⟨p, rest, rfl, hchain, -⟩ := hsearch
        exact absurd (transGen_of_isChain hchain) (hloop p)

/-- Names that are missing are the only thing that can keep dependencies from being
resolved. -/
theorem eq_unknownColumn_of_resolve {names : List String} {c : Column} {e : Error}
    (h : resolve names c = .error e) : ∃ name, e = .unknownColumn name := by
  rcases bind_eq_error.1 h with h | ⟨_, _, ⟨⟩⟩
  obtain ⟨name, -, h⟩ := exists_of_mapM_eq_error h
  rw [placeOf] at h
  split at h
  case h_1 => cases h
  case h_2 =>
    cases h
    exact ⟨name, rfl⟩

/-- **Columns are refused because of a cycle** exactly if their names can be resolved and
something depends on itself. -/
theorem exists_build_eq_cycle : (∃ path, build columns = .error (.cycle path)) ↔
    ∃ g : Graph, g.Resolves columns ∧ ∃ p, Relation.TransGen g.Reads p p := by
  constructor
  · rintro ⟨path, h⟩
    cases hrep : firstRepeat? (columns.map (·.name)) with
    | some name =>
        simp only [build, hrep] at h
        cases h
    | none =>
        simp only [build, hrep] at h
        rcases bind_eq_error.1 h with h | ⟨direct, hdirect, h⟩
        · obtain ⟨c, -, h⟩ := exists_of_mapM_eq_error h
          obtain ⟨name, ⟨⟩⟩ := eq_unknownColumn_of_resolve h
        · have hg : Resolves ⟨columns.map (·.name), direct⟩ columns :=
            ⟨rfl, firstRepeat?_eq_none.1 hrep, hdirect⟩
          refine ⟨_, hg, ?_⟩
          by_contra hloop
          rw [hg.noCycle_iff.2 fun p hp => hloop ⟨p, hp⟩] at h
          cases h
  · rintro ⟨g, hg, p, hp⟩
    cases hcycle : g.findCycle? with
    | none => exact absurd hp (hg.noCycle_iff.1 hcycle p)
    | some path =>
        refine ⟨g.namesAt path, ?_⟩
        rw [hg.build_eq, hcycle]

/-! ### A column replaced by another one of its name -/

/-- A column in place of another one of its name leaves the names as they are. -/
theorem map_name_set {p : Nat} {c c' : Column} (hc : columns[p]? = some c)
    (hname : c'.name = c.name) :
    (columns.set p c').map (·.name) = columns.map (·.name) := by
  obtain ⟨hp, rfl⟩ := List.getElem?_eq_some_iff.1 hc
  rw [List.map_set, hname]
  refine List.ext_getElem? fun q => ?_
  rw [List.getElem?_set]
  split
  case isFalse => rfl
  case isTrue hpq =>
    subst hpq
    rw [if_pos (by rwa [List.length_map]), List.getElem?_map, hc]
    rfl

section

variable {p : Nat} {c c' : Column} (hc : columns[p]? = some c) (hname : c'.name = c.name)

include hc hname

/-- The other columns depend on the same positions as before. -/
theorem Resolves.dependencies_eq_of_set (h : g.Resolves columns)
    (h' : g'.Resolves (columns.set p c')) {q : Nat} (hqp : q ≠ p) :
    g'.dependencies q = g.dependencies q := by
  rcases Nat.lt_or_ge q columns.length with hq | hq
  · have hd := List.getElem?_eq_getElem hq
    have hd' : (columns.set p c')[q]? = some columns[q] := by
      rw [List.getElem?_set_ne hqp.symm, hd]
    have hres := h'.resolve_dependencies hd'
    rw [map_name_set hc hname, h.resolve_dependencies hd] at hres
    exact (Except.ok.inj hres).symm
  · rw [h.dependencies_eq_nil (h.size_eq ▸ hq),
      h'.dependencies_eq_nil (by rwa [h'.size_eq, List.length_set])]

/-- A position other than the changed one reads what it read before. -/
theorem Resolves.reads_iff_of_set (h : g.Resolves columns)
    (h' : g'.Resolves (columns.set p c')) (q : Nat) (hqp : q ≠ p) (r : Nat) :
    g'.Reads q r ↔ g.Reads q r := by
  rw [Reads, Reads, h.dependencies_eq_of_set hc hname h' hqp]

/-- What the new column depends on. -/
theorem Resolves.mem_dependencies_of_set (h' : g'.Resolves (columns.set p c')) {q : Nat} :
    g'.Reads p q ↔ ∃ d, columns[q]? = some d ∧ d.name ∈ c'.dependencies := by
  have hself := List.getElem?_set_self (a := c') (List.getElem?_eq_some_iff.1 hc).1
  rw [Reads, h'.mem_dependencies hself]
  rcases eq_or_ne q p with rfl | hqp
  · rw [hself, hc]
    simp only [Option.some.injEq, exists_eq_left', hname]
  · rw [List.getElem?_set_ne hqp.symm]

/-- **The columns that depend on a column** are the same after it was replaced. -/
theorem Describes.transGen_iff_of_set (h : g.Describes columns)
    (h' : g'.Describes (columns.set p c')) {q : Nat} :
    Relation.TransGen g'.Reads q p ↔ Relation.TransGen g.Reads q p := by
  rcases eq_or_ne q p with rfl | hqp
  · exact iff_of_false (h'.not_transGen_self q) (h.not_transGen_self q)
  · have hpath :=
      reflTransGen_iff_of_agree (h.reads_iff_of_set hc hname h'.toResolves) (a := q)
    rw [Relation.reflTransGen_iff_eq_or_transGen, Relation.reflTransGen_iff_eq_or_transGen]
      at hpath
    simpa only [hqp.symm, false_or] using hpath

/-- They stand at the same positions. -/
theorem Describes.affected_eq_of_set (h : g.Describes columns)
    (h' : g'.Describes (columns.set p c')) :
    g'.affected p = g.affected p := by
  have hpositions : g'.positions = g.positions := by
    rw [positions, positions, h'.size_eq, h.size_eq, List.length_set]
  have hmem : ∀ q, q ∈ g'.affected p ↔ q ∈ g.affected p := fun q => by
    rw [h'.mem_affected, h.mem_affected, h.transGen_iff_of_set hc hname h']
  rw [affected, affected, hpositions]
  refine List.filter_congr fun q hq => ?_
  have hq' := hmem q
  rw [affected, affected, hpositions, List.mem_filter, List.mem_filter, and_iff_right hq,
    and_iff_right hq] at hq'
  exact Bool.eq_iff_iff.2 hq'

/-- Setting a column leaves the names as they are. -/
theorem Resolves.names_eq_of_set (h : g.Resolves columns)
    (h' : g'.Resolves (columns.set p c')) :
    g'.names = g.names := by
  rw [h.names_eq, h'.names_eq, map_name_set hc hname]

/-- Names stand where they stood. -/
theorem Resolves.position_eq_of_set (h : g.Resolves columns)
    (h' : g'.Resolves (columns.set p c')) (name : String) :
    g'.position name = g.position name := by
  rw [position, position, h.names_eq_of_set hc hname h']

/-- They have the same names, in the same order. -/
theorem Describes.transitiveDependents_eq_of_set (h : g.Describes columns)
    (h' : g'.Describes (columns.set p c')) :
    g'.transitiveDependents c.name = g.transitiveDependents c.name := by
  have hp : g.position c.name = .ok p := h.position_eq_ok.2 ⟨c, hc, rfl⟩
  have hnames : g'.name = g.name := by
    funext q
    rw [name, name, h.names_eq_of_set hc hname h'.toResolves]
  rw [transitiveDependents, transitiveDependents,
    h.position_eq_of_set hc hname h'.toResolves, hp]
  show Except.ok (g'.namesAt (g'.affected p)) = Except.ok (g.namesAt (g.affected p))
  rw [namesAt, namesAt, hnames, h.affected_eq_of_set hc hname h']

/-- The columns that rest on the changed one are the same before and after. -/
theorem Describes.isDependentOn_eq_of_set (h : g.Describes columns)
    (h' : g'.Describes (columns.set p c')) (name : String) :
    g'.isDependentOn name c.name = g.isDependentOn name c.name := by
  have hp : g.position c.name = .ok p := h.position_eq_ok.2 ⟨c, hc, rfl⟩
  rw [Bool.eq_iff_iff, h.isDependentOn_iff, h'.isDependentOn_iff]
  refine exists_congr fun q => exists_congr fun r => ?_
  rw [h.position_eq_of_set hc hname h'.toResolves,
    h.position_eq_of_set hc hname h'.toResolves, hp]
  refine and_congr_right fun _ => and_congr_right fun hr => ?_
  rw [← Except.ok.inj hr, h.transGen_iff_of_set hc hname h']

/-- The dependencies of all columns can be resolved if those of the new one can. -/
theorem exists_resolves_set (h : g.Describes columns) :
    (∃ g' : Graph, g'.Resolves (columns.set p c')) ↔
      ∀ name ∈ c'.dependencies, name ∈ columns.map (·.name) := by
  have hp := (List.getElem?_eq_some_iff.1 hc).1
  constructor
  · rintro ⟨g', h'⟩ name hdep
    obtain ⟨q, d, hd, rfl, -⟩ :=
      h'.exists_of_mem_dependencies (List.getElem?_set_self hp) hdep
    rw [← map_name_set hc hname]
    exact List.mem_map_of_mem (List.mem_of_getElem? hd)
  · intro hdeps
    refine exists_resolves ?_ fun d hd name hdep => ?_
    · rw [map_name_set hc hname]
      exact h.nodup
    · rw [map_name_set hc hname]
      rcases List.mem_or_eq_of_mem_set hd with hd | rfl
      · obtain ⟨q, hq⟩ := List.mem_iff_getElem?.1 hd
        obtain ⟨r, e, he, rfl, -⟩ := h.exists_of_mem_dependencies hq hdep
        exact List.mem_map_of_mem (List.mem_of_getElem? he)
      · exact hdeps name hdep

/-- What comes to depend on itself through the new column: it depends on a column that leads
back to it. -/
theorem Resolves.exists_loop_iff (h : g.Describes columns)
    (h' : g'.Resolves (columns.set p c')) :
    (∃ q, Relation.TransGen g'.Reads q q) ↔
      ∃ q d, columns[q]? = some d ∧ d.name ∈ c'.dependencies ∧
        Relation.ReflTransGen g.Reads q p := by
  rw [exists_loop_iff_of_agree (h.reads_iff_of_set hc hname h') h.not_transGen_self]
  refine exists_congr fun q => ?_
  rw [h'.mem_dependencies_of_set hc hname]
  constructor
  · rintro ⟨⟨d, hd, hdep⟩, hpath⟩
    exact ⟨d, hd, hdep, hpath⟩
  · rintro ⟨d, hd, hdep, hpath⟩
    exact ⟨⟨d, hd, hdep⟩, hpath⟩

/-- **A replaced column** makes a graph with the others if its dependencies are columns, and
none of them leads back to it. -/
theorem exists_describes_set (h : g.Describes columns) :
    (∃ g' : Graph, g'.Describes (columns.set p c')) ↔
      (∀ name ∈ c'.dependencies, name ∈ columns.map (·.name)) ∧
        ¬ ∃ q d, columns[q]? = some d ∧ d.name ∈ c'.dependencies ∧
          Relation.ReflTransGen g.Reads q p := by
  rw [← exists_resolves_set hc hname h]
  constructor
  · rintro ⟨g', h'⟩
    refine ⟨⟨g', h'.toResolves⟩, ?_⟩
    rw [← h'.toResolves.exists_loop_iff hc hname h]
    rintro ⟨q, hq⟩
    exact h'.not_transGen_self q hq
  · rintro ⟨⟨g', h'⟩, hno⟩
    rw [← h'.exists_loop_iff hc hname h] at hno
    exact ⟨g', h', h'.noCycle_iff.2 fun q hq => hno ⟨q, hq⟩⟩

/-- **A replaced column closes a cycle** if its dependencies are columns, and one of them
leads back to it. -/
theorem exists_build_set_eq_cycle (h : g.Describes columns) :
    (∃ path, build (columns.set p c') = .error (.cycle path)) ↔
      (∀ name ∈ c'.dependencies, name ∈ columns.map (·.name)) ∧
        ∃ q d, columns[q]? = some d ∧ d.name ∈ c'.dependencies ∧
          Relation.ReflTransGen g.Reads q p := by
  rw [exists_build_eq_cycle, ← exists_resolves_set hc hname h]
  constructor
  · rintro ⟨g', h', hloop⟩
    exact ⟨⟨g', h'⟩, (h'.exists_loop_iff hc hname h).1 hloop⟩
  · rintro ⟨⟨g', h'⟩, hloop⟩
    exact ⟨g', h', (h'.exists_loop_iff hc hname h).2 hloop⟩

end

/-! ### A column added or removed -/

/-- **A further column** makes a graph with the old ones exactly if its name is new and all
that it depends on is among the old ones. -/
theorem exists_describes_append_iff (h : g.Describes columns) {c : Column} :
    (∃ g' : Graph, g'.Describes (columns ++ [c])) ↔
      c.name ∉ columns.map (·.name) ∧ ∀ name ∈ c.dependencies,
        name ∈ columns.map (·.name) := by
  refine ⟨?_, fun hc => exists_describes_append h hc.1 hc.2⟩
  rintro ⟨g', h'⟩
  have hlast : (columns ++ [c])[columns.length]? = some c := by simp
  have hnodup := h'.nodup
  rw [List.map_append, List.map_singleton, List.nodup_append] at hnodup
  have hfresh : c.name ∉ columns.map (·.name) :=
    fun hmem => hnodup.2.2 c.name hmem c.name List.mem_cons_self rfl
  refine ⟨hfresh, fun name hdep => ?_⟩
  obtain ⟨q, d, hd, rfl, hq⟩ := h'.exists_of_mem_dependencies hlast hdep
  rcases List.mem_append.1 (List.mem_of_getElem? hd) with hd' | hd'
  · exact List.mem_map_of_mem hd'
  · -- The column would depend on itself.
    rw [List.mem_singleton.1 hd'] at hd
    rw [h'.eq_of_name_eq hd hlast rfl] at hq
    exact absurd (.single hq) (h'.not_transGen_self columns.length)

/-- Nothing depends on a position exactly if no column names the one there. -/
theorem Describes.dependents_eq_nil_iff (h : g.Describes columns) {p : Nat} {c : Column}
    (hc : columns[p]? = some c) :
    g.dependents p = [] ↔ ∀ d ∈ columns, c.name ∉ d.dependencies := by
  rw [List.eq_nil_iff_forall_not_mem]
  constructor
  · intro hnone d hd hdep
    obtain ⟨q, hq⟩ := List.mem_iff_getElem?.1 hd
    have hreads : g.Reads q p := (h.mem_dependencies hq).2 ⟨c, hc, hdep⟩
    exact hnone q (mem_dependents.2 ⟨(h.lt_of_mem_dependencies hreads).1, hreads⟩)
  · intro hfree q hq
    obtain ⟨hlt, hreads⟩ := mem_dependents.1 hq
    have hd := List.getElem?_eq_getElem (h.size_eq ▸ hlt)
    obtain ⟨e, he, hdep⟩ := (h.mem_dependencies hd).1 hreads
    rw [hc] at he
    cases he
    exact hfree _ (List.mem_of_getElem? hd) hdep

/-- Where a position of a list without the one at `p` stands in the whole list. -/
def unshift (p q : Nat) : Nat := if q < p then q else q + 1

/-- Where another position of a list stands once the one at `p` is gone. -/
def shift (p q : Nat) : Nat := if q < p then q else q - 1

/-- A position that is moved up and down again is where it was. -/
theorem unshift_shift {p q : Nat} (h : q ≠ p) : unshift p (shift p q) = q := by
  rw [shift]
  split
  case isTrue hq => rw [unshift, if_pos hq]
  case isFalse hq =>
    rw [unshift, if_neg (by omega)]
    omega

/-- Moving positions keeps their order. -/
theorem shift_lt_iff {p q r : Nat} (hq : q ≠ p) (hr : r ≠ p) :
    shift p q < shift p r ↔ q < r := by
  rw [shift, shift]
  split <;> split <;> omega

/-- What follows an erased element moves up. -/
theorem eraseIdx_getElem?_eq {α : Type} (l : List α) (p q : Nat) :
    (l.eraseIdx p)[q]? = l[unshift p q]? := by
  rw [List.getElem?_eraseIdx, unshift]
  split <;> rfl

/-- **A column that no other one depends on** can go. -/
theorem exists_describes_eraseIdx (h : g.Describes columns) {p : Nat} {c : Column}
    (hc : columns[p]? = some c) (hfree : ∀ d ∈ columns, c.name ∉ d.dependencies) :
    ∃ g' : Graph, g'.Describes (columns.eraseIdx p) := by
  obtain ⟨g', h'⟩ : ∃ g' : Graph, g'.Resolves (columns.eraseIdx p) := by
    refine exists_resolves ?_ fun d hd name hdep => ?_
    · exact h.nodup.sublist ((List.eraseIdx_sublist columns p).map _)
    · have hmem := List.mem_of_mem_eraseIdx hd
      obtain ⟨q, hq⟩ := List.mem_iff_getElem?.1 hmem
      obtain ⟨r, e, he, rfl, -⟩ := h.exists_of_mem_dependencies hq hdep
      refine List.mem_map_of_mem (List.mem_eraseIdx_iff_getElem?.2 ⟨r, ?_, he⟩)
      rintro rfl
      rw [hc] at he
      cases he
      exact hfree d hmem hdep
  refine ⟨g', h', h'.noCycle_iff.2 fun q hq =>
    h.not_transGen_self (unshift p q) (hq.lift _ fun a b hab => ?_)⟩
  have hd := List.getElem?_eq_getElem (h'.size_eq ▸ (h'.lt_of_mem_dependencies hab).1)
  obtain ⟨e, he, hdep⟩ := (h'.mem_dependencies hd).1 hab
  rw [eraseIdx_getElem?_eq] at hd he
  exact (h.mem_dependencies hd).2 ⟨e, he, hdep⟩

end Graph

end FormulaTable
