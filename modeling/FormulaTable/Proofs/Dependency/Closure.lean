import FormulaTable.Proofs.Dependency.Acyclic

/-!
# What a column reaches

Growing a set of positions in rounds ends with everything that can be reached, because a
round that finds nothing new is the last one and there are as many rounds as positions.

* `mem_closure` — the closure of some positions is what can be reached from them.
* `Describes.mem_reached`, `Describes.mem_affected` — the columns that a column depends on,
  and those that depend on it, directly or through others; `Describes.isDependentOn_iff` —
  the same by name.
-/

namespace FormulaTable

/-- Dropping repetitions leaves none. -/
theorem nodup_eraseDups {α : Type} [BEq α] [LawfulBEq α] (l : List α) :
    l.eraseDups.Nodup := by
  induction hn : l.length using Nat.strong_induction_on generalizing l with
  | _ n ih =>
      cases l with
      | nil => exact .nil
      | cons a rest =>
          rw [List.eraseDups_cons, List.nodup_cons, List.mem_eraseDups]
          refine ⟨by simp, ih _ ?_ _ rfl⟩
          rw [← hn, List.length_cons]
          exact Nat.lt_succ_of_le (List.length_filter_le _ _)

namespace Graph

variable {next : Nat → List Nat} {seen : List Nat}

/-! ### Rounds -/

/-- A position is fresh if it is next to a seen one and has not been seen itself. -/
theorem mem_fresh {q : Nat} :
    q ∈ fresh next seen ↔ (∃ p ∈ seen, q ∈ next p) ∧ q ∉ seen := by
  simp [fresh, List.mem_eraseDups]

/-- A round adds positions that were not seen before. -/
theorem nodup_append_fresh (h : seen.Nodup) : (seen ++ fresh next seen).Nodup :=
  h.append (nodup_eraseDups _) fun _ hp hfresh => (mem_fresh.1 hfresh).2 hp

/-- With enough rounds the positions that are found lead nowhere else. -/
theorem grow_closed {n rounds : Nat} (hnext : ∀ p, ∀ q ∈ next p, q < n)
    (hnodup : seen.Nodup) (hlt : ∀ p ∈ seen, p < n) (hrounds : n ≤ rounds + seen.length) :
    seen ⊆ grow next rounds seen ∧ ∀ p ∈ grow next rounds seen,
      next p ⊆ grow next rounds seen := by
  induction rounds generalizing seen with
  | zero =>
      -- All positions are seen already.
      have hsub := List.subperm_of_subset hnodup fun p hp => List.mem_range.2 (hlt p hp)
      have hperm := hsub.perm_of_length_le (by rw [List.length_range]; omega)
      exact ⟨fun _ h => h,
        fun p _ q hq => hperm.mem_iff.2 (List.mem_range.2 (hnext p q hq))⟩
  | succ rounds ih =>
      rw [grow]
      split
      case h_1 hnone =>
        refine ⟨fun _ h => h, fun p hp q hq => ?_⟩
        by_contra hnew
        have hfresh := mem_fresh.2 ⟨⟨p, hp, hq⟩, hnew⟩
        rw [hnone] at hfresh
        cases hfresh
      case h_2 found hsome =>
        have hlt' : ∀ p ∈ seen ++ fresh next seen, p < n := by
          refine List.forall_mem_append.2 ⟨hlt, fun q hq => ?_⟩
          obtain ⟨⟨p, -, hp⟩, -⟩ := mem_fresh.1 hq
          exact hnext p q hp
        have hlen : 0 < (fresh next seen).length :=
          List.length_pos_iff.2 fun h => hsome h
        obtain ⟨hsub, hclosed⟩ := ih (nodup_append_fresh hnodup) hlt'
          (by rw [List.length_append]; omega)
        exact ⟨fun p hp => hsub (List.mem_append_left _ hp), hclosed⟩

/-- What is found can be reached. -/
theorem reflTransGen_of_mem_grow {rounds q : Nat} (h : q ∈ grow next rounds seen) :
    ∃ p ∈ seen, Relation.ReflTransGen (fun a b => b ∈ next a) p q := by
  induction rounds generalizing seen with
  | zero => exact ⟨q, h, .refl⟩
  | succ rounds ih =>
      rw [grow] at h
      split at h
      case h_1 => exact ⟨q, h, .refl⟩
      case h_2 =>
        obtain ⟨r, hr, hrq⟩ := ih h
        rcases List.mem_append.1 hr with hr | hr
        · exact ⟨r, hr, hrq⟩
        · obtain ⟨⟨p, hp, hpr⟩, -⟩ := mem_fresh.1 hr
          exact ⟨p, hp, .head hpr hrq⟩

/-- **The closure of some positions is what can be reached from them.** -/
theorem mem_closure {g : Graph} (hnext : ∀ p, ∀ q ∈ next p, q < g.size) {start : List Nat}
    (hnodup : start.Nodup) (hlt : ∀ p ∈ start, p < g.size) {q : Nat} :
    q ∈ g.closure next start ↔
      ∃ p ∈ start, Relation.ReflTransGen (fun a b => b ∈ next a) p q := by
  refine ⟨reflTransGen_of_mem_grow, ?_⟩
  rintro ⟨p, hp, hpq⟩
  obtain ⟨hsub, hclosed⟩ :=
    grow_closed hnext hnodup hlt (Nat.le_add_right g.size start.length)
  induction hpq with
  | refl => exact hsub hp
  | tail _ hstep ih => exact hclosed _ ih hstep

/-! ### Dependencies and dependents -/

variable {g : Graph}

/-- The dependents of a position are the positions that read it. -/
theorem mem_dependents {p q : Nat} : q ∈ g.dependents p ↔ q < g.size ∧ g.Reads q p := by
  simp [dependents, positions, Reads]

/-- Dependents are listed once. -/
theorem nodup_dependents (p : Nat) : (g.dependents p).Nodup := List.nodup_range.filter _

/-- A dependency is listed once. -/
theorem Resolves.nodup_dependencies {columns : List Column} (h : g.Resolves columns)
    (p : Nat) :
    (g.dependencies p).Nodup := by
  by_cases hp : p < columns.length
  · have hres := h.resolve_dependencies (List.getElem?_eq_getElem hp)
    rw [resolve] at hres
    obtain ⟨positions, -, heq⟩ := bind_eq_ok.1 hres
    rw [← Except.ok.inj heq]
    exact nodup_eraseDups positions
  · rw [h.dependencies_eq_nil (by rw [h.size_eq]; omega)]
    exact .nil

namespace Describes

variable {columns : List Column} (h : g.Describes columns)

include h

/-- The columns that a column depends on, directly or through others. -/
theorem mem_reached {p q : Nat} : q ∈ g.reached p ↔ Relation.TransGen g.Reads p q := by
  rw [reached, mem_closure h.closed (h.nodup_dependencies p) (h.closed p),
    Relation.TransGen.head'_iff]
  rfl

/-- Dependence is asked for by name. Names that are missing are not dependent. -/
theorem isDependentOn_iff {name other : String} : g.isDependentOn name other = true ↔
    ∃ p q, g.position name = .ok p ∧ g.position other = .ok q ∧
      Relation.TransGen g.Reads p q := by
  have hposition : ∀ {name p}, g.position? name = some p ↔ g.position name = .ok p :=
    placeOf_eq_ok.symm
  rw [isDependentOn]
  constructor
  · intro hdep
    split at hdep
    case h_1 p q hp hq =>
      exact ⟨p, q, hposition.1 hp, hposition.1 hq,
        h.mem_reached.1 (List.contains_iff_mem.1 hdep)⟩
    case h_2 => cases hdep
  · rintro ⟨p, q, hp, hq, hpath⟩
    simp only [hposition.2 hp, hposition.2 hq]
    exact List.contains_iff_mem.2 (h.mem_reached.2 hpath)

/-- The columns that depend on a column, directly or through others. -/
theorem mem_affected {p q : Nat} : q ∈ g.affected p ↔ Relation.TransGen g.Reads q p := by
  have hdependents : ∀ p, ∀ q ∈ g.dependents p,
      q < g.size := fun p q hq => (mem_dependents.1 hq).1
  have hrel : (fun a b => b ∈ g.dependents a) = Function.swap g.Reads := by
    funext a b
    refine propext ⟨fun hb => (mem_dependents.1 hb).2, fun hb => ?_⟩
    exact mem_dependents.2 ⟨(h.lt_of_mem_dependencies hb).1, hb⟩
  have hclosure : q ∈ g.closure g.dependents (g.dependents p) ↔
      Relation.TransGen g.Reads q p := by
    rw [mem_closure hdependents (nodup_dependents p) (hdependents p),
      ← Relation.transGen_swap, Relation.TransGen.head'_iff, hrel]
    exact exists_congr fun r => and_congr_left fun _ => by rw [← hrel]
  rw [affected, List.mem_filter, List.contains_iff_mem, hclosure, positions, List.mem_range]
  refine and_iff_right_of_imp fun hq => ?_
  obtain ⟨r, hr, -⟩ := Relation.TransGen.head'_iff.1 hq
  exact (h.lt_of_mem_dependencies hr).1

/-- What has to be known for a column: itself and what it depends on. -/
theorem mem_closure_singleton {p q : Nat} (hp : p < g.size) :
    q ∈ g.closure g.dependencies [p] ↔ Relation.ReflTransGen g.Reads p q := by
  rw [mem_closure h.closed (List.nodup_singleton p) (List.forall_mem_singleton.2 hp)]
  constructor
  · rintro ⟨r, hr, hrq⟩
    rw [List.mem_singleton.1 hr] at hrq
    exact hrq
  · intro hpq
    exact ⟨p, List.mem_singleton_self p, hpq⟩

end Describes

end Graph

end FormulaTable
