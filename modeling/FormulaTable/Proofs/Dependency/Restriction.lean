import FormulaTable.Proofs.Dependency.Least

/-!
# The order for what is needed

What one column needs is gathered with a stack of the positions that are still to be looked
at. Columns that have all their dependencies with them are put in order in the same way
among themselves as among all: where the order of all columns places one of them, it is also
the lowest ready one of them, and in between no other of them becomes ready.

* `wantedBy_gather` — what the stack gathers.
* `place_filter`, `Describes.orderOf_eq_filter` — the order of some columns is that of all,
  without the others.
* `Describes.getLast?_orderFor` — what a column needs comes before it.
* `evaluationOrderFor_eq_filter` — the order for one column, by name.
-/

namespace FormulaTable

open Columns LinkedGraph

/-! ### Gathering -/

/-- Including a position makes it wanted, and leaves the others as they are. -/
theorem LinkedGraph.wantedBy_set {included : List Bool} {p : Nat} (hp : p < included.length)
    {q : Nat} :
    wantedBy (included.set p true) q ↔ q = p ∨ wantedBy included q := by
  rw [wantedBy, wantedBy, List.getElem?_set]
  by_cases hpq : p = q
  · subst hpq
    simp [hp]
  · simp [hpq, Ne.symm hpq]

/-- Nothing is wanted where nothing is included. -/
theorem LinkedGraph.not_wantedBy_map_false {α : Type} {l : List α} (p : Nat) :
    ¬ wantedBy (l.map fun _ => false) p := by
  rw [wantedBy, List.getElem?_map]
  cases l[p]? <;> simp

/-- What is not known to be left out is included. -/
theorem LinkedGraph.wantedBy_of_ne_some_false {included : List Bool} {p : Nat}
    (hp : p < included.length) (h : included[p]? ≠ some false) : wantedBy included p := by
  cases hget : included[p] with
  | false => exact absurd ((List.getElem?_eq_getElem hp).trans (congrArg some hget)) h
  | true => rw [wantedBy, List.getElem?_eq_getElem hp, hget, Option.getD_some]

/-- Only positions of the list are wanted. -/
theorem LinkedGraph.lt_of_wantedBy {included : List Bool} {p : Nat}
    (h : wantedBy included p) :
    p < included.length := by
  by_contra hp
  rw [wantedBy, List.getElem?_eq_none (Nat.not_lt.1 hp)] at h
  cases h

namespace Graph

variable {g : Graph} {columns : List Column} {wanted : Nat → Bool}

/-- What is included has its dependencies with it or on the stack. -/
def Covers (g : Graph) (included : List Bool) (pending : List Nat) : Prop :=
  ∀ p, wantedBy included p → ∀ q, g.Reads p q → wantedBy included q ∨ q ∈ pending

/-- A position is included, and its dependencies are put on the stack. -/
theorem Covers.add {included : List Bool} {p : Nat} {pending : List Nat}
    (h : g.Covers included (p :: pending)) (hp : p < included.length) :
    g.Covers (included.set p true) (g.dependencies p ++ pending) := by
  intro r hr q hrq
  rw [wantedBy_set hp, List.mem_append]
  rcases (wantedBy_set hp).1 hr with rfl | hr
  · exact .inr (.inl hrq)
  · rcases h r hr q hrq with hq | hq
    · exact .inl (.inr hq)
    · rcases List.mem_cons.1 hq with rfl | hq
      · exact .inl (.inl rfl)
      · exact .inr (.inr hq)

/-- A position that is included already is taken from the stack. -/
theorem Covers.skip {included : List Bool} {p : Nat} {pending : List Nat}
    (h : g.Covers included (p :: pending)) (hp : wantedBy included p) :
    g.Covers included pending := by
  intro r hr q hrq
  rcases h r hr q hrq with hq | hq
  · exact .inl hq
  · rcases List.mem_cons.1 hq with rfl | hq
    · exact .inl hp
    · exact .inr hq

/-- What is reached from an included position is included, or is reached from the stack. -/
theorem Covers.reaches {included : List Bool} {pending : List Nat}
    (h : g.Covers included pending) {p q : Nat} (hp : wantedBy included p)
    (hpq : Relation.ReflTransGen g.Reads p q) :
    wantedBy included q ∨ ∃ r ∈ pending, Relation.ReflTransGen g.Reads r q := by
  induction hpq with
  | refl => exact .inl hp
  | @tail s t _ hst ih =>
      rcases ih with hs | ⟨r, hr, hrs⟩
      · rcases h s hs t hst with ht | ht
        · exact .inl ht
        · exact .inr ⟨t, ht, .refl⟩
      · exact .inr ⟨r, hr, hrs.tail hst⟩

/-- What a position reaches is itself, or is reached from its dependencies. -/
theorem exists_reaches_cons {p q : Nat} {pending : List Nat} :
    (∃ r ∈ p :: pending, Relation.ReflTransGen g.Reads r q) ↔
      q = p ∨ ∃ r ∈ g.dependencies p ++ pending, Relation.ReflTransGen g.Reads r q := by
  constructor
  · rintro ⟨r, hr, hrq⟩
    rcases List.mem_cons.1 hr with rfl | hr
    · rcases Relation.ReflTransGen.cases_head hrq with rfl | ⟨s, hrs, hsq⟩
      · exact .inl rfl
      · exact .inr ⟨s, List.mem_append_left _ hrs, hsq⟩
    · exact .inr ⟨r, List.mem_append_right _ hr, hrq⟩
  · rintro (rfl | ⟨r, hr, hrq⟩)
    · exact ⟨q, List.mem_cons_self, .refl⟩
    · rcases List.mem_append.1 hr with hr | hr
      · exact ⟨p, List.mem_cons_self, .head hr hrq⟩
      · exact ⟨r, List.mem_cons_of_mem p hr, hrq⟩

/-- **What is gathered**: what is included, and what can be reached from the stack. -/
theorem wantedBy_gather (hg : g.Closed) {included : List Bool} {pending : List Nat}
    (hlength : included.length = g.size) (hpending : ∀ p ∈ pending, p < g.size)
    (hcovers : g.Covers included pending) (q : Nat) :
    wantedBy (g.linked.gather included pending) q ↔
      wantedBy included q ∨ ∃ p ∈ pending, Relation.ReflTransGen g.Reads p q := by
  fun_induction LinkedGraph.gather g.linked included pending with
  | case1 included => simp
  | case2 included p pending hunseen ih =>
      obtain ⟨hp, hpending⟩ := List.forall_mem_cons.1 hpending
      have hlt : p < included.length := hlength ▸ hp
      have hreverse : ∀ {r}, r ∈ (g.linked.dependenciesAt p).reverse ++ pending ↔
          r ∈ g.dependencies p ++ pending := by
        intro r
        rw [List.mem_append, List.mem_reverse, List.mem_append, dependenciesAt_linked]
      have hbelow : ∀ r ∈ (g.linked.dependenciesAt p).reverse ++ pending, r < g.size := by
        intro r hr
        rcases List.mem_append.1 (hreverse.1 hr) with hr | hr
        · exact hg p r hr
        · exact hpending r hr
      have hcovers' : g.Covers (included.set p true)
          ((g.linked.dependenciesAt p).reverse ++ pending) :=
        fun r hr s hrs => (hcovers.add hlt r hr s hrs).imp_right hreverse.2
      rw [ih (by rwa [List.length_set]) hbelow hcovers', wantedBy_set hlt,
        exists_reaches_cons]
      simp only [hreverse, or_assoc, or_left_comm]
  | case3 included p pending hseen ih =>
      obtain ⟨hp, hpending⟩ := List.forall_mem_cons.1 hpending
      have hwanted : wantedBy included p := wantedBy_of_ne_some_false (hlength ▸ hp) hseen
      have hskip := hcovers.skip hwanted
      rw [ih hlength hpending hskip]
      constructor
      · rintro (hq | ⟨r, hr, hrq⟩)
        · exact .inl hq
        · exact .inr ⟨r, List.mem_cons_of_mem p hr, hrq⟩
      · rintro (hq | ⟨r, hr, hrq⟩)
        · exact .inl hq
        · rcases List.mem_cons.1 hr with rfl | hr
          · exact hskip.reaches hwanted hrq
          · exact .inr ⟨r, hr, hrq⟩

/-! ### Orders of some positions -/

/-- **Step by step** the order of all positions places those of some that have their
dependencies with them in the same order as these are placed alone. The induction is on the
steps of the order of all. -/
theorem place_filter (hwanted : ∀ p, wanted p → ∀ q ∈ g.dependencies p, wanted q)
    (count : Nat) (placed : List Nat) :
    ∃ steps ≤ count, g.place wanted steps (placed.filter wanted) =
      (g.place (fun _ => true) count placed).filter wanted := by
  induction count generalizing placed with
  | zero => exact ⟨0, Nat.le_refl 0, rfl⟩
  | succ count ih =>
      cases hnext : g.nextReady? (fun _ => true) placed with
      | none => exact ⟨0, Nat.zero_le _, by rw [place_of_nextReady?_eq_none hnext, place]⟩
      | some p =>
          obtain ⟨⟨hp, -, hnew, hdeps⟩, hfirst⟩ := nextReady?_eq_some_iff.1 hnext
          obtain ⟨steps, hsteps, hplace⟩ := ih (placed ++ [p])
          rw [place, hnext]
          rw [List.filter_append] at hplace
          cases hp' : wanted p with
          | false =>
              rw [List.filter_singleton, hp', cond_false, List.append_nil] at hplace
              exact ⟨steps, Nat.le_succ_of_le hsteps, hplace⟩
          | true =>
              rw [List.filter_singleton, hp', cond_true] at hplace
              have hready : g.Ready wanted (placed.filter wanted) p :=
                ⟨hp, hp', fun hmem => hnew (List.mem_filter.1 hmem).1,
                  fun q hq hwq => List.mem_filter.2 ⟨hdeps q hq rfl, hwq⟩⟩
              have hlowest : ∀ q < p, ¬ g.Ready wanted (placed.filter wanted) q := by
                rintro q hqp ⟨hq, hwq, hnewq, hdepsq⟩
                exact hfirst q hqp
                  ⟨hq, rfl, fun hmem => hnewq (List.mem_filter.2 ⟨hmem, hwq⟩),
                  fun r hr _ => (List.mem_filter.1 (hdepsq r hr (hwanted q hwq r hr))).1⟩
              refine ⟨steps + 1, Nat.succ_le_succ hsteps, ?_⟩
              rw [place, nextReady?_eq_some_iff.2 ⟨hready, hlowest⟩]
              exact hplace

/-- What is placed is read only by what comes later. -/
theorem ReadyAfter.placedAfter {placed ps : List Nat} (h : g.ReadyAfter wanted placed ps)
    (hplaced : g.PlacedAfter wanted placed) : g.PlacedAfter wanted (placed ++ ps) := by
  induction ps generalizing placed with
  | nil => rwa [List.append_nil]
  | cons p ps ih =>
      have hrest := ih h.2 (hplaced.append h.1)
      rwa [List.append_assoc, List.singleton_append] at hrest

/-- The beginning of an order is one itself. -/
theorem ReadyAfter.of_append {placed before rest : List Nat}
    (h : g.ReadyAfter wanted placed (before ++ rest)) :
    g.ReadyAfter wanted placed before := by
  induction before generalizing placed with
  | nil => trivial
  | cons p before ih => exact ⟨h.1, ih h.2⟩

/-- All that a position depends on comes before it. -/
theorem ReadyAfter.mem_of_transGen {before rest : List Nat} {p q : Nat}
    (h : g.ReadyAfter (fun _ => true) [] (before ++ p :: rest))
    (hpq : Relation.TransGen g.Reads p q) :
    q ∈ before := by
  have hready : g.Ready (fun _ => true) before p := h.ready
  have hbefore : g.PlacedAfter (fun _ => true) before :=
    h.of_append.placedAfter (List.forall_mem_nil _)
  induction hpq with
  | single hread => exact hready.2.2.2 _ hread rfl
  | tail _ hread ih => exact hbefore _ ih _ hread rfl

namespace Describes

variable (h : g.Describes columns)

include h

/-- **The order of some columns** that have their dependencies with them is that of all,
without the others. -/
theorem orderOf_eq_filter (hwanted : ∀ p, wanted p → ∀ q ∈ g.dependencies p, wanted q) :
    g.orderOf wanted = g.order.filter wanted := by
  obtain ⟨steps, hsteps, hplace⟩ := place_filter hwanted g.size []
  have hplace : g.place wanted steps [] = g.order.filter wanted := hplace
  obtain ⟨more, hmore⟩ := Nat.exists_eq_add_of_le hsteps
  rw [orderOf, hmore, place_add, hplace]
  refine place_of_nextReady?_eq_none (nextReady?_eq_none_iff.2 ?_) more
  rintro p ⟨hp, hwp, hnew, -⟩
  exact hnew (List.mem_filter.2 ⟨h.order_perm.mem_iff.2 (List.mem_range.2 hp), hwp⟩)

/-- The same by name. -/
theorem namesAt_orderOf_eq_filter
    (hwanted : ∀ p, wanted p → ∀ q ∈ g.dependencies p, wanted q) :
    g.namesAt (g.orderOf wanted) =
      g.evaluationOrder.filter fun name => wanted ((columns.map (·.name)).idxOf name) := by
  rw [h.orderOf_eq_filter hwanted, evaluationOrder, namesAt, namesAt, List.filter_map]
  refine congrArg (List.map g.name) (List.filter_congr fun p hp => ?_)
  rw [Function.comp_apply, h.idxOf_name (List.mem_range.1 (h.order_perm.mem_iff.1 hp))]

/-- **What a column needs comes before it**, so that it is the last one. -/
theorem getLast?_orderFor {p : Nat} (hp : p < g.size) :
    (g.orderFor p).getLast? = some p := by
  have hneeded : ∀ {q}, (g.closure g.dependencies [p]).contains q ↔
      Relation.ReflTransGen g.Reads p q := by
    intro q
    rw [List.contains_iff_mem, h.mem_closure_singleton hp]
  obtain ⟨before, rest, hsplit⟩ :=
    List.append_of_mem (h.order_perm.mem_iff.2 (List.mem_range.2 hp))
  have hready : g.ReadyAfter (fun _ => true) [] (before ++ p :: rest) :=
    hsplit ▸ readyAfter_orderOf
  have hrest : rest.filter (g.closure g.dependencies [p]).contains = [] := by
    refine List.filter_eq_nil_iff.2 fun q hq hqneeded => ?_
    obtain ⟨-, hnodup, hapart⟩ := List.nodup_append.1 hready.nodup
    rcases Relation.reflTransGen_iff_eq_or_transGen.1 (hneeded.1 hqneeded) with rfl | hpq
    · exact (List.nodup_cons.1 hnodup).1 hq
    · exact hapart q (hready.mem_of_transGen hpq) q (List.mem_cons_of_mem p hq) rfl
  rw [orderFor, h.orderOf_eq_filter fun q hq r hr =>
    h.contains_closure_of_mem_dependencies hp hq hr, hsplit, List.filter_append,
    List.filter_cons_of_pos (hneeded.2 .refl), hrest, List.getLast?_concat]

/-- The order for one column is the order of all, without those that it does not need. -/
theorem exists_needed {name : String} (hname : name ∈ columns.map (·.name)) :
    ∃ needed : String → Bool,
    (∀ other, needed other ↔
        other = name ∨ Relation.TransGen (DependsOn columns) name other) ∧
      g.evaluationOrderFor name = .ok (g.evaluationOrder.filter needed) ∧
      (g.evaluationOrder.filter needed).getLast? = some name := by
  obtain ⟨p, hp⟩ : ∃ p, (columns.map (·.name)).idxOf name = p := ⟨_, rfl⟩
  have hlt : p < g.size := hp ▸ h.idxOf_lt hname
  have hnameAt : g.name p = name := hp ▸ h.name_idxOf hname
  have horder := h.namesAt_orderOf_eq_filter fun q hq r hr =>
    h.contains_closure_of_mem_dependencies hlt hq hr
  refine ⟨fun other => (g.closure g.dependencies [p]).contains
    ((columns.map (·.name)).idxOf other), fun other => ?_, ?_, ?_⟩
  · rw [List.contains_iff_mem, h.mem_closure_singleton hlt,
      Relation.reflTransGen_iff_eq_or_transGen, ← hnameAt, h.transGen_iff hlt, hnameAt]
    refine or_congr ?_ ?_
    · rw [← hp, eq_comm, List.idxOf_inj hname, eq_comm]
    · constructor
      · intro hpath
        obtain ⟨r, -, hread⟩ := Relation.TransGen.tail'_iff.1 hpath
        have hother := (h.lt_of_mem_dependencies hread).2
        rw [h.size_eq, ← List.length_map (·.name), List.idxOf_lt_length_iff] at hother
        exact ⟨_, hpath, h.name_idxOf hother⟩
      · rintro ⟨q, hpath, rfl⟩
        obtain ⟨r, -, hread⟩ := Relation.TransGen.tail'_iff.1 hpath
        rwa [h.idxOf_name (h.lt_of_mem_dependencies hread).2]
  · have hposition : g.position name = .ok p := by
      have hc := List.getElem?_eq_getElem (h.size_eq ▸ hlt)
      exact h.position_eq_ok.2 ⟨_, hc, (h.name_eq hc).symm.trans hnameAt⟩
    rw [evaluationOrderFor, hposition, ← horder]
    rfl
  · rw [← horder, namesAt, List.getLast?_map]
    exact (congrArg (Option.map g.name) (h.getLast?_orderFor hlt)).trans
      (congrArg some hnameAt)

/-- A name is found in the index where it stands. -/
theorem position_linked (name : String) : g.linked.position name = g.position name := by
  have hlookup : g.linked.index.lookup name = g.names.idxOf? name :=
    lookup_reverse_zipIdx (h.names_eq ▸ h.nodup) name
  cases hidx : g.names.idxOf? name <;>
    simp only [LinkedGraph.position, position, placeOf, hlookup, hidx]

/-- Both orders for one column agree. -/
theorem evaluationOrderFor_linked (name : String) :
    g.linked.evaluationOrderFor name = g.evaluationOrderFor name := by
  rw [LinkedGraph.evaluationOrderFor, evaluationOrderFor, h.position_linked]
  cases hname : g.position name with
  | error e => rfl
  | ok p =>
      obtain ⟨c, hc, -⟩ := h.position_eq_ok.1 hname
      have hp : p < g.size := h.size_eq ▸ (List.getElem?_eq_some_iff.1 hc).1
      refine congrArg Except.ok ((h.kahn_eq _).trans (congrArg g.namesAt ?_))
      refine place_congr h.closed (fun q hq => Bool.eq_iff_iff.2 ?_) g.size []
      have hlength : (g.names.map fun _ => false).length = g.size := List.length_map _
      have hnone : ∀ q, ¬ wantedBy (g.names.map fun _ => false) q := not_wantedBy_map_false
      rw [List.contains_iff_mem, h.mem_closure_singleton hp]
      refine (wantedBy_gather h.closed hlength (List.forall_mem_singleton.2 hp)
        (fun r hr => absurd hr (hnone r)) q).trans ?_
      rw [or_iff_right (hnone q)]
      simp only [List.mem_singleton, exists_eq_left]

end Describes

end Graph

/-- **The order for one column** is the order of all, without those that it does not need,
and it comes last. The same holds for any columns that have their dependencies with them. -/
theorem Graph.evaluationOrderFor_eq_filter {columns : List Column} {g : Graph}
    (h : Graph.build columns = .ok g) :
    (∀ name ∈ columns.map (·.name),
        g.linked.evaluationOrderFor name = g.evaluationOrderFor name ∧
      ∃ needed : String → Bool,
        (∀ other, needed other ↔
            other = name ∨ Relation.TransGen (DependsOn columns) name other) ∧
        g.linked.evaluationOrderFor name = .ok (g.linked.evaluationOrder.filter needed) ∧
        (g.linked.evaluationOrder.filter needed).getLast? = some name) ∧
      ∀ included : List Bool,
        (∀ p, wantedBy included p → ∀ q ∈ g.linked.dependenciesAt p, wantedBy included q) →
        g.linked.kahn included = g.linked.evaluationOrder.filter fun name =>
          wantedBy included ((columns.map (·.name)).idxOf name) := by
  have hg := build_eq_ok.1 h
  rw [hg.evaluationOrder_linked]
  refine ⟨fun name hname => ?_, fun included hincluded => ?_⟩
  · rw [hg.evaluationOrderFor_linked]
    exact ⟨rfl, hg.exists_needed hname⟩
  · rw [hg.kahn_eq]
    exact hg.namesAt_orderOf_eq_filter hincluded

/-- A column that reads a later one needs it first; and two of four columns have their
dependencies with them. -/
theorem Graph.evaluationOrderFor_eq_filter_backward :
    Graph.build Columns.backward = .ok backward ∧ "b" ∈ Columns.backward.map (·.name) ∧
      (∀ p, wantedBy [true, false, true, false] p → ∀ q ∈ backward.linked.dependenciesAt p,
        wantedBy [true, false, true, false] q) ∧
      backward.linked.evaluationOrderFor "b" = .ok ["a", "d", "b"] ∧
      backward.linked.kahn [true, false, true, false] = ["a", "c"] := by
  have hg : Graph.build Columns.backward = .ok backward := rfl
  have hname : "b" ∈ Columns.backward.map (·.name) := by decide
  have hwanted : ∀ p, wantedBy [true, false, true, false] p →
      ∀ q ∈ backward.linked.dependenciesAt p, wantedBy [true, false, true, false] q := by
    have hall : ∀ p < 4, wantedBy [true, false, true, false] p →
      ∀ q ∈ backward.linked.dependenciesAt p,
      wantedBy [true, false, true, false] q := by decide
    exact fun p hp => hall p (lt_of_wantedBy hp) hp
  have hfor : backward.evaluationOrderFor "b" = .ok ["a", "d", "b"] := rfl
  have hkahn : (backward.linked.evaluationOrder.filter fun name =>
        wantedBy [true, false, true, false]
      ((Columns.backward.map (·.name)).idxOf name)) = ["a", "c"] := by decide
  have hall := evaluationOrderFor_eq_filter hg
  exact ⟨hg, hname, hwanted, (hall.1 "b" hname).1.trans hfor,
    (hall.2 _ hwanted).trans hkahn⟩

end FormulaTable
