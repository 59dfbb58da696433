import FormulaTable.Proofs.Dependency.Order

/-!
# Orders in another graph

Some positions of a graph stand at other positions of another graph, in the same order and
with the same dependencies between them. Columns are then evaluated in the same order in
both graphs: at each step the lowest position that is ready in one graph corresponds to the
lowest one that is ready in the other.

* `place_eq_orderOf` — more steps than positions place nothing more.
* `Embeds.orderFor_eq` — the order of evaluation for a column in the other graph.
-/

namespace FormulaTable.Graph

/-- A wanted position that is to be placed, and whose turn it can be: what it depends on is
placed. -/
def Ready (g : Graph) (wanted : Nat → Bool) (placed : List Nat) (p : Nat) : Prop :=
  p < g.size ∧ wanted p ∧ p ∉ placed ∧ ∀ q ∈ g.dependencies p, wanted q → q ∈ placed

section

variable {g : Graph} {wanted : Nat → Bool} {placed : List Nat}

/-- Nothing is placed next exactly if nothing is ready. -/
theorem nextReady?_eq_none_iff :
    g.nextReady? wanted placed = none ↔ ∀ p, ¬ g.Ready wanted placed p := by
  constructor
  · rintro h p ⟨hp, hwanted, hnew, hdeps⟩
    exact hnew (nextReady?_eq_none h hp hwanted hdeps)
  · intro h
    cases hnext : g.nextReady? wanted placed with
    | none => rfl
    | some p => exact absurd (nextReady?_eq_some hnext) (h p)

/-- The lowest position that is ready is placed next. -/
theorem nextReady?_eq_some_iff {p : Nat} : g.nextReady? wanted placed = some p ↔
    g.Ready wanted placed p ∧ ∀ q < p, ¬ g.Ready wanted placed q := by
  have hlowest : ∀ {p}, g.nextReady? wanted placed = some p →
      ∀ q < p, ¬ g.Ready wanted placed q := by
    rintro p hnext q hqp ⟨hq, hwanted, hnew, hdeps⟩
    have hnot := (List.find?_range_eq_some.1 hnext).2.2 q hqp
    simp only [hwanted, Bool.true_and, Bool.not_eq_true', Bool.and_eq_false_iff,
      Bool.not_eq_false', List.contains_iff_mem, List.all_eq_false,
      Bool.not_eq_true] at hnot
    rcases hnot with hnot | ⟨r, hr, hnot⟩
    · exact hnew hnot
    · cases hwr : wanted r with
      | false => simp [hwr] at hnot
      | true => simp [hwr, hdeps r hr hwr] at hnot
  constructor
  · intro hnext
    exact ⟨nextReady?_eq_some hnext, hlowest hnext⟩
  · rintro ⟨hready, hfirst⟩
    cases hnext : g.nextReady? wanted placed with
    | none => exact absurd hready (nextReady?_eq_none_iff.1 hnext p)
    | some q =>
        rcases Nat.lt_trichotomy p q with hpq | rfl | hqp
        · exact absurd hready (hlowest hnext p hpq)
        · rfl
        · exact absurd (nextReady?_eq_some hnext) (hfirst q hqp)

/-- What is placed depends on which positions of the graph are wanted. -/
theorem place_congr {wanted' : Nat → Bool} (hg : g.Closed)
    (h : ∀ p < g.size, wanted p = wanted' p) (count : Nat) (placed : List Nat) :
    g.place wanted count placed = g.place wanted' count placed := by
  have hready : ∀ placed p, g.Ready wanted placed p ↔ g.Ready wanted' placed p := by
    intro placed p
    refine and_congr_right fun hp => ?_
    rw [h p hp]
    refine and_congr_right' (and_congr_right' (forall₂_congr fun q hq => ?_))
    rw [h q (hg p q hq)]
  have hnext : ∀ placed, g.nextReady? wanted placed = g.nextReady? wanted' placed := by
    intro placed
    refine Option.ext fun p => ?_
    simp only [nextReady?_eq_some_iff, hready]
  induction count generalizing placed with
  | zero => rfl
  | succ count ih =>
      rw [place, place, hnext]
      cases g.nextReady? wanted' placed with
      | none => rfl
      | some p => exact ih (placed ++ [p])

/-- Where nothing is ready nothing is placed. -/
theorem place_of_nextReady?_eq_none (h : g.nextReady? wanted placed = none) (count : Nat) :
    g.place wanted count placed = placed := by
  cases count with
  | zero => rfl
  | succ count => rw [place, h]

/-- Placing can be interrupted. -/
theorem place_add (count more : Nat) (placed : List Nat) :
    g.place wanted (count + more) placed = g.place wanted more
      (g.place wanted count placed) := by
  induction count generalizing placed with
  | zero => rw [Nat.zero_add, place]
  | succ count ih =>
      rw [Nat.succ_add]
      cases hnext : g.nextReady? wanted placed with
      | none =>
          rw [place_of_nextReady?_eq_none hnext, place_of_nextReady?_eq_none hnext,
            place_of_nextReady?_eq_none hnext]
      | some p =>
          rw [place, place, hnext]
          exact ih (placed ++ [p])

/-- **More steps than positions** place nothing more. -/
theorem Describes.place_eq_orderOf {columns : List Column} (h : g.Describes columns)
    {count : Nat} (hcount : g.size ≤ count) :
    g.place wanted count [] = g.orderOf wanted := by
  obtain ⟨more, rfl⟩ := Nat.exists_eq_add_of_le hcount
  rw [place_add]
  refine place_of_nextReady?_eq_none (nextReady?_eq_none_iff.2 ?_) more
  rintro p ⟨hp, hwanted, hnew, -⟩
  exact hnew (h.mem_orderOf.2 ⟨hp, hwanted⟩)

end

/-- Positions `U` of a graph correspond to positions of another one, in the same order and
with the same dependencies. -/
structure Embeds (f : Nat → Nat) (U : Nat → Prop) (g g' : Graph) : Prop where
  lt_iff : ∀ p q, U p → U q → (f p < f q ↔ p < q)
  lt_size : ∀ p, U p → p < g.size ∧ f p < g'.size
  closed : ∀ p, U p → ∀ q ∈ g.dependencies p, U q
  mem_dependencies : ∀ p, U p → ∀ q, q ∈ g'.dependencies (f p) ↔
    ∃ r ∈ g.dependencies p, f r = q

namespace Embeds

variable {f : Nat → Nat} {U : Nat → Prop} {g g' : Graph} (h : g.Embeds f U g')

include h

/-- Embedded positions are apart if they were apart. -/
theorem eq_of_eq {p q : Nat} (hp : U p) (hq : U q) (hpq : f p = f q) : p = q := by
  have hlt := h.lt_iff p q hp hq
  have hgt := h.lt_iff q p hq hp
  omega

/-- What a position reaches is carried over. -/
theorem reflTransGen_iff {p q : Nat} (hp : U p) : Relation.ReflTransGen g'.Reads (f p) q ↔
    ∃ r, U r ∧ Relation.ReflTransGen g.Reads p r ∧ f r = q := by
  constructor
  · intro hpath
    induction hpath with
    | refl => exact ⟨p, hp, .refl, rfl⟩
    | tail _ hstep ih =>
        obtain ⟨r, hr, hpr, rfl⟩ := ih
        obtain ⟨s, hs, rfl⟩ := (h.mem_dependencies r hr _).1 hstep
        exact ⟨s, h.closed r hr s hs, hpr.tail hs, rfl⟩
  · rintro ⟨r, -, hpr, rfl⟩
    -- All positions on the path correspond to others.
    have hall : ∀ s, Relation.ReflTransGen g.Reads p s →
        U s ∧ Relation.ReflTransGen g'.Reads (f p) (f s) := by
      intro s hps
      induction hps with
      | refl => exact ⟨hp, .refl⟩
      | tail _ hstep ih =>
          exact ⟨h.closed _ ih.1 _ hstep,
            ih.2.tail ((h.mem_dependencies _ ih.1 _).2 ⟨_, hstep, rfl⟩)⟩
    exact (hall r hpr).2

variable {wanted wanted' : Nat → Bool} (hU : ∀ p, wanted p → U p)
  (hwanted : ∀ q, wanted' q ↔ ∃ p, wanted p ∧ f p = q)

include hU hwanted

/-- An embedded position is wanted exactly if it was wanted. -/
theorem wanted_iff {p : Nat} (hp : U p) : wanted' (f p) ↔ wanted p := by
  rw [hwanted]
  constructor
  · rintro ⟨q, hq, hqp⟩
    exact h.eq_of_eq (hU q hq) hp hqp ▸ hq
  · intro hp
    exact ⟨p, hp, rfl⟩

/-- Positions that are ready are carried over. -/
theorem ready_iff {placed : List Nat} (hplaced : ∀ p ∈ placed, U p) {p : Nat} (hp : U p) :
    g'.Ready wanted' (placed.map f) (f p) ↔ g.Ready wanted placed p := by
  have hmem : ∀ {q}, U q → (f q ∈ placed.map f ↔ q ∈ placed) := by
    intro q hq
    rw [List.mem_map]
    constructor
    · rintro ⟨r, hr, hrq⟩
      exact h.eq_of_eq (hplaced r hr) hq hrq ▸ hr
    · intro hq
      exact ⟨q, hq, rfl⟩
  have hdeps : (∀ q ∈ g'.dependencies (f p), wanted' q → q ∈ placed.map f) ↔
      ∀ q ∈ g.dependencies p, wanted q → q ∈ placed := by
    constructor
    · intro hall q hq hwq
      have hUq := h.closed p hp q hq
      exact (hmem hUq).1 (hall (f q) ((h.mem_dependencies p hp _).2 ⟨q, hq, rfl⟩)
        ((h.wanted_iff hU hwanted hUq).2 hwq))
    · intro hall q hq hwq
      obtain ⟨r, hr, rfl⟩ := (h.mem_dependencies p hp q).1 hq
      have hUr := h.closed p hp r hr
      exact (hmem hUr).2 (hall r hr ((h.wanted_iff hU hwanted hUr).1 hwq))
  have hsize := h.lt_size p hp
  rw [Ready, Ready, h.wanted_iff hU hwanted hp, hmem hp, hdeps, iff_true_intro hsize.1,
    iff_true_intro hsize.2]

/-- What is placed next is carried over. -/
theorem nextReady?_map {placed : List Nat} (hplaced : ∀ p ∈ placed, U p) :
    g'.nextReady? wanted' (placed.map f) = (g.nextReady? wanted placed).map f := by
  have hback : ∀ {q}, g'.Ready wanted' (placed.map f) q →
      ∃ p, U p ∧ g.Ready wanted placed p ∧ f p = q := by
    intro q hq
    obtain ⟨p, hp, rfl⟩ := (hwanted q).1 hq.2.1
    exact ⟨p, hU p hp, (h.ready_iff hU hwanted hplaced (hU p hp)).1 hq, rfl⟩
  cases hnext : g.nextReady? wanted placed with
  | none =>
      refine nextReady?_eq_none_iff.2 fun q hq => ?_
      obtain ⟨p, -, hp, -⟩ := hback hq
      exact nextReady?_eq_none_iff.1 hnext p hp
  | some p =>
      obtain ⟨hready, hfirst⟩ := nextReady?_eq_some_iff.1 hnext
      have hp := hU p hready.2.1
      refine nextReady?_eq_some_iff.2
        ⟨(h.ready_iff hU hwanted hplaced hp).2 hready, fun q hqp hq => ?_⟩
      obtain ⟨r, hr, hready', rfl⟩ := hback hq
      exact hfirst r ((h.lt_iff r p hr hp).1 hqp) hready'

/-- What is placed is carried over, step by step. -/
theorem place_map (count : Nat) {placed : List Nat} (hplaced : ∀ p ∈ placed, U p) :
    g'.place wanted' count (placed.map f) = (g.place wanted count placed).map f := by
  induction count generalizing placed with
  | zero => rfl
  | succ count ih =>
      rw [place, place, h.nextReady?_map hU hwanted hplaced]
      cases hnext : g.nextReady? wanted placed with
      | none => rfl
      | some p =>
          have hp := hU p (nextReady?_eq_some hnext).2.1
          have hmap : placed.map f ++ [f p] = (placed ++ [p]).map f := by
            rw [List.map_append, List.map_singleton]
          show g'.place wanted' count (placed.map f ++ [f p]) = _
          rw [hmap]
          exact ih (List.forall_mem_append.2 ⟨hplaced, List.forall_mem_singleton.2 hp⟩)

end Embeds

/-- **The order of evaluation for a column** is the same in the other graph. -/
theorem Embeds.orderFor_eq {f : Nat → Nat} {U : Nat → Prop} {g g' : Graph}
    (h : g.Embeds f U g') {columns columns' : List Column} (hg : g.Describes columns)
    (hg' : g'.Describes columns') {p : Nat} (hp : U p) :
    g'.orderFor (f p) = (g.orderFor p).map f := by
  obtain ⟨hlt, hlt'⟩ := h.lt_size p hp
  have hU : ∀ q, (g.closure g.dependencies [p]).contains q → U q := by
    intro q hq
    rw [List.contains_iff_mem, hg.mem_closure_singleton hlt] at hq
    induction hq with
    | refl => exact hp
    | tail _ hstep ih => exact h.closed _ ih _ hstep
  have hwanted : ∀ q, (g'.closure g'.dependencies [f p]).contains q ↔
      ∃ r, (g.closure g.dependencies [p]).contains r ∧ f r = q := by
    intro q
    rw [List.contains_iff_mem, hg'.mem_closure_singleton hlt', h.reflTransGen_iff hp]
    refine exists_congr fun r => ?_
    rw [List.contains_iff_mem, hg.mem_closure_singleton hlt]
    refine ⟨fun hr => hr.2, fun hr => ⟨hU r ?_, hr⟩⟩
    rw [List.contains_iff_mem, hg.mem_closure_singleton hlt]
    exact hr.1
  rw [orderFor, orderFor, ← hg.place_eq_orderOf (Nat.le_max_left g.size g'.size),
    ← hg'.place_eq_orderOf (Nat.le_max_right g.size g'.size)]
  exact h.place_map hU hwanted _ (List.forall_mem_nil U)

end FormulaTable.Graph
