import FormulaTable.Proofs.Dependency.Change

/-!
# One more column

What comes of a column that is put behind others depends on their names alone: the faults
are looked for in turn, and only the new column can have one. The only cycle it can close is
the one of itself, because no column before it can read it.

* `Graph.faultOf?` — what is wrong with one more column.
* `Graph.build_append_eq` — the graph with one more column, or its fault.
-/

namespace FormulaTable

/-- A name that is there already is the first repeated one. -/
theorem firstRepeatAfter?_append {names seen : List String} (hnodup : names.Nodup)
    (hseen : ∀ name ∈ names, name ∉ seen) {last : String}
    (hlast : last ∈ names ∨ last ∈ seen) :
    firstRepeatAfter? seen (names ++ [last]) = some last := by
  induction names generalizing seen with
  | nil =>
      have hlast : last ∈ seen := hlast.resolve_left List.not_mem_nil
      rw [List.nil_append, firstRepeatAfter?, if_pos (List.contains_iff_mem.2 hlast)]
  | cons name names ih =>
      obtain ⟨hname, hnodup⟩ := List.nodup_cons.1 hnodup
      obtain ⟨hfresh, hseen⟩ := List.forall_mem_cons.1 hseen
      rw [List.cons_append, firstRepeatAfter?, if_neg (mt List.contains_iff_mem.1 hfresh)]
      refine ih hnodup (fun other hother hmem => ?_) ?_
      · rcases List.mem_cons.1 hmem with rfl | hmem
        · exact hname hother
        · exact hseen other hother hmem
      · rcases hlast with hlast | hlast
        · rcases List.mem_cons.1 hlast with rfl | hlast
          · exact .inr List.mem_cons_self
          · exact .inl hlast
        · exact .inr (List.mem_cons_of_mem name hlast)

namespace Graph

/-- What is wrong with one more column of a name with some dependencies, behind columns of
the given names. -/
def faultOf? (names : List String) (name : String) (dependencies : List String) :
    Option Error :=
  if name ∈ names then some (.duplicateColumn name)
  else
    match dependencies.find? fun dep => dep ∉ names ++ [name] with
    | some dep => some (.unknownColumn dep)
    | none => if name ∈ dependencies then some (.cycle [name, name]) else none

/-- The first name that is missing is reported. -/
theorem mapM_placeOf_eq_error {names deps : List String} {name : String}
    (h : deps.find? (fun dep => dep ∉ names) = some name) :
    deps.mapM (placeOf names) = .error (.unknownColumn name) := by
  induction deps with
  | nil => cases h
  | cons dep deps ih =>
      rw [List.find?_cons] at h
      rw [List.mapM_cons, placeOf]
      by_cases hdep : dep ∈ names
      · obtain ⟨p, hp⟩ := Option.isSome_iff_exists.1 (List.isSome_idxOf?.2 hdep)
        simp only [hdep, not_true_eq_false, decide_false] at h
        rw [hp]
        show (deps.mapM (placeOf names) >>= _) = _
        rw [ih h]
        rfl
      · simp only [hdep, not_false_eq_true, decide_true, Option.some.injEq] at h
        rw [List.idxOf?_eq_none_iff.2 hdep, h]
        rfl

section

variable {g : Graph} {columns : List Column} (h : g.Describes columns) {c : Column}

include h

/-- The columns that were there depend on what they depended on before, and not on the new
one. -/
theorem transGen_of_transGen_append {g' : Graph} (h' : g'.Resolves (columns ++ [c]))
    {p q : Nat} (hp : p < columns.length) (hpq : Relation.TransGen g'.Reads p q) :
    q < columns.length ∧ Relation.TransGen g.Reads p q := by
  induction hpq with
  | single hread =>
      obtain ⟨hq, hread⟩ := h.reads_of_reads_append h' hp hread
      exact ⟨hq, .single hread⟩
  | tail _ hread ih =>
      obtain ⟨hq, hread⟩ := h.reads_of_reads_append h' ih.1 hread
      exact ⟨hq, ih.2.tail hread⟩

/-- A cycle that a new column closes is the one of itself. -/
theorem eq_of_isCycle_append {g' : Graph} (h' : g'.Resolves (columns ++ [c]))
    {path : List Nat} (hpath : g'.IsCycle path) :
    path = [columns.length, columns.length] := by
  obtain ⟨p, rest, rfl, hchain, hnodup⟩ := hpath
  have hloop := transGen_of_isChain hchain
  have hp : p < columns.length + 1 := by
    obtain ⟨q, hq, -⟩ := Relation.TransGen.head'_iff.1 hloop
    have hlt := (h'.lt_of_mem_dependencies hq).1
    rwa [h'.size_eq, List.length_append, List.length_singleton] at hlt
  have hlast : p = columns.length := by
    by_contra hne
    exact h.not_transGen_self p (transGen_of_transGen_append h h' (by omega) hloop).2
  cases rest with
  | nil =>
      rw [hlast]
      rfl
  | cons r rest =>
      -- The next column on the path is an old one, from which no path leads back.
      have hne : p ≠ r := fun heq => (List.nodup_cons.1 hnodup).1 (heq ▸ List.mem_cons_self)
      obtain ⟨hread, hrest⟩ := List.isChain_cons_cons.1 hchain
      have hr : r < columns.length := by
        have hlt := (h'.lt_of_mem_dependencies hread).2
        rw [h'.size_eq, List.length_append, List.length_singleton] at hlt
        omega
      have hback := (transGen_of_transGen_append h h' hr (transGen_of_isChain hrest)).1
      omega

/-- The names of a column that depends on others can be resolved behind these, unless one is
missing. -/
theorem mapM_resolve_append {name : String}
    (hmissing : c.dependencies.find? (fun dep => dep ∉ (columns ++ [c]).map (·.name)) =
        some name) :
    (columns ++ [c]).mapM (resolve ((columns ++ [c]).map (·.name))) =
      .error (.unknownColumn name) := by
  obtain ⟨direct, hdirect⟩ : ∃ direct,
      columns.mapM (resolve ((columns ++ [c]).map (·.name))) = .ok direct := by
    refine exists_mapM_eq_ok fun d hd => exists_resolve_eq_ok fun dep hdep => ?_
    rw [List.map_append]
    exact List.mem_append_left _ (h.mem_of_mem_dependencies hd hdep)
  rw [List.mapM_append, hdirect, List.mapM_cons, resolve, mapM_placeOf_eq_error hmissing]
  rfl

/-- A new column that reads itself is refused with the cycle of itself. -/
theorem build_append_eq_of_self (hname : c.name ∉ columns.map (·.name))
    (hall : ∀ dep ∈ c.dependencies, dep ∈ (columns ++ [c]).map (·.name))
    (hself : c.name ∈ c.dependencies) :
    build (columns ++ [c]) = .error (.cycle [c.name, c.name]) := by
  obtain ⟨g', h'⟩ := h.exists_append hname hall
  have hlast : (columns ++ [c])[columns.length]? = some c := List.getElem?_concat_length ..
  have hloop : Relation.TransGen g'.Reads columns.length columns.length :=
    .single ((h'.mem_dependencies hlast).2 ⟨c, hlast, hself⟩)
  rw [h'.build_eq]
  cases hcycle : g'.findCycle? with
  | none => exact absurd hloop (h'.noCycle_iff.1 hcycle _)
  | some path =>
      have hpath := settled_or_isCycle fun _ _ hq => (h'.lt_of_mem_dependencies hq).2
      rw [hcycle] at hpath
      show (Except.error (.cycle (g'.namesAt path)) : Except Error Graph) = _
      rw [eq_of_isCycle_append h h' hpath, namesAt, List.map_cons, List.map_singleton,
        h'.name_eq hlast]

/-- **The graph with one more column**, or what is wrong with that column. -/
theorem build_append_eq : match faultOf? (columns.map (·.name)) c.name c.dependencies with
    | some e => build (columns ++ [c]) = .error e
    | none => ∃ g' : Graph, g'.Describes (columns ++ [c]) := by
  have hnames : (columns ++ [c]).map (·.name) = columns.map (·.name) ++ [c.name] := by
    rw [List.map_append, List.map_singleton]
  rw [faultOf?]
  by_cases hname : c.name ∈ columns.map (·.name)
  · rw [if_pos hname]
    have hrepeat :=
      firstRepeatAfter?_append h.nodup (fun _ _ => List.not_mem_nil) (.inl hname)
    rw [build, hnames, firstRepeat?, hrepeat]
    rfl
  · rw [if_neg hname]
    have hnodup : ((columns ++ [c]).map (·.name)).Nodup := by
      rw [hnames]
      exact h.nodup.append (List.nodup_singleton _) (by simpa using hname)
    have hrepeat := firstRepeat?_eq_none.2 hnodup
    cases hmissing : c.dependencies.find? fun dep => dep ∉
        columns.map (·.name) ++ [c.name] with
    | some dep =>
        rw [← hnames] at hmissing
        show build (columns ++ [c]) = _
        rw [build, hrepeat]
        show (List.mapM _ _ >>= _) = _
        rw [mapM_resolve_append h hmissing]
        rfl
    | none =>
        have hall : ∀ dep ∈ c.dependencies, dep ∈ columns.map (·.name) ++ [c.name] := by
          intro dep hdep
          simpa only [decide_eq_true_eq, not_not]
            using List.find?_eq_none.1 hmissing dep hdep
        by_cases hself : c.name ∈ c.dependencies
        · dsimp only
          rw [if_pos hself]
          exact build_append_eq_of_self h hname (hnames ▸ hall) hself
        · dsimp only
          rw [if_neg hself]
          refine exists_describes_append h hname fun dep hdep => ?_
          rcases List.mem_append.1 (hall dep hdep) with hmem | hmem
          · exact hmem
          · exact absurd (List.mem_singleton.1 hmem ▸ hdep) hself

end

end Graph

end FormulaTable
