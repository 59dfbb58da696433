import FormulaTable.Proofs.Dependency.Closure

/-!
# Orders of evaluation

Positions are placed one after the other, each after the wanted positions that it depends
on. On a built graph placing does not get stuck: what is not placed waits for something that
is not placed either, and dependencies end.

* `Describes.mem_orderOf`, `readyAfter_orderOf` — all wanted positions are placed, and each
  when it is ready.
* `Describes.mem_orderFor` — what is placed for one column.
-/

namespace FormulaTable.Graph

/-- Positions in an order in which each one is wanted, new, and ready when its turn comes:
those that it depends on are placed, as far as they are wanted. -/
def ReadyAfter (g : Graph) (wanted : Nat → Bool) : List Nat → List Nat → Prop
  | _, [] => True
  | placed, p :: rest =>
    (p < g.size ∧ wanted p ∧ p ∉ placed ∧ ∀ q ∈ g.dependencies p, wanted q → q ∈ placed) ∧
      g.ReadyAfter wanted (placed ++ [p]) rest

variable {g : Graph} {wanted : Nat → Bool}

/-- What is placed next is wanted, new, and has its wanted dependencies placed. -/
theorem nextReady?_eq_some {placed : List Nat} {p : Nat}
    (h : g.nextReady? wanted placed = some p) :
    p < g.size ∧ wanted p ∧ p ∉ placed ∧ ∀ q ∈ g.dependencies p, wanted q → q ∈ placed := by
  have hp := List.mem_of_find?_eq_some h
  have hready := List.find?_some h
  rw [positions, List.mem_range] at hp
  simp only [Bool.and_eq_true, Bool.not_eq_true', List.contains_eq_mem,
    decide_eq_false_iff_not, List.all_eq_true, Bool.or_eq_true, decide_eq_true_eq] at hready
  obtain ⟨⟨hwanted, hnew⟩, hdeps⟩ := hready
  refine ⟨hp, hwanted, hnew, fun q hq hwq => ?_⟩
  rcases hdeps q hq with h | h
  · rw [hwq] at h
    cases h
  · exact h

/-- If nothing is placed next, what has its wanted dependencies placed has been placed
itself. -/
theorem nextReady?_eq_none {placed : List Nat} (h : g.nextReady? wanted placed = none)
    {p : Nat} (hp : p < g.size) (hwanted : wanted p)
    (hdeps : ∀ q ∈ g.dependencies p, wanted q → q ∈ placed) :
    p ∈ placed := by
  by_contra hnew
  have hnot := List.find?_eq_none.1 h p (List.mem_range.2 hp)
  refine hnot ?_
  simp only [Bool.and_eq_true, Bool.not_eq_true', List.contains_eq_mem,
    decide_eq_false_iff_not, List.all_eq_true, Bool.or_eq_true, decide_eq_true_eq]
  refine ⟨⟨hwanted, hnew⟩, fun q hq => ?_⟩
  cases hwq : wanted q with
  | false => exact .inl rfl
  | true => exact .inr (hdeps q hq hwq)

/-- What is placed is placed when it is ready. -/
theorem exists_place_eq (g : Graph) (wanted : Nat → Bool) (count : Nat)
    (placed : List Nat) :
    ∃ ps, g.place wanted count placed = placed ++ ps ∧ g.ReadyAfter wanted placed ps := by
  induction count generalizing placed with
  | zero => exact ⟨[], (List.append_nil placed).symm, trivial⟩
  | succ count ih =>
      rw [place]
      split
      case h_1 p hnext =>
        obtain ⟨ps, hps, hready⟩ := ih (placed ++ [p])
        refine ⟨p :: ps, ?_, nextReady?_eq_some hnext, hready⟩
        rw [hps, List.append_assoc, List.singleton_append]
      case h_2 => exact ⟨[], (List.append_nil placed).symm, trivial⟩

/-- The wanted positions come in an order in which each one is ready. -/
theorem readyAfter_orderOf : g.ReadyAfter wanted [] (g.orderOf wanted) := by
  obtain ⟨ps, hps, hready⟩ := exists_place_eq g wanted g.size []
  rw [orderOf, hps]
  exact hready

/-- Only wanted positions are placed. -/
theorem ReadyAfter.wanted_of_mem {placed ps : List Nat} (h : g.ReadyAfter wanted placed ps)
    {p : Nat} (hp : p ∈ ps) : p < g.size ∧ wanted p := by
  induction ps generalizing placed with
  | nil => cases hp
  | cons q ps ih =>
      obtain ⟨⟨hq, hwanted, -, -⟩, hrest⟩ := h
      rcases List.mem_cons.1 hp with rfl | hp
      · exact ⟨hq, hwanted⟩
      · exact ih hrest hp

/-- What is placed was not placed before. -/
theorem ReadyAfter.not_mem {placed ps : List Nat} (h : g.ReadyAfter wanted placed ps)
    {p : Nat} (hp : p ∈ ps) :
    p ∉ placed := by
  induction ps generalizing placed with
  | nil => cases hp
  | cons q ps ih =>
      obtain ⟨⟨-, -, hnew, -⟩, hrest⟩ := h
      rcases List.mem_cons.1 hp with rfl | hp
      · exact hnew
      · exact fun hmem => ih hrest hp (List.mem_append_left _ hmem)

/-- Nothing is placed twice. -/
theorem ReadyAfter.nodup {placed ps : List Nat} (h : g.ReadyAfter wanted placed ps) :
    ps.Nodup := by
  induction ps generalizing placed with
  | nil => exact .nil
  | cons p ps ih =>
      refine List.nodup_cons.2 ⟨fun hp => ?_, ih h.2⟩
      exact h.2.not_mem hp (List.mem_append_right _ (List.mem_singleton_self p))

namespace Describes

variable {columns : List Column} (h : g.Describes columns)

include h

/-- **Placing does not get stuck**: with enough steps every wanted position is placed. -/
theorem mem_place {count : Nat} {placed : List Nat} (hnodup : placed.Nodup)
    (hlt : ∀ p ∈ placed, p < g.size) (hcount : g.size ≤ count + placed.length) {p : Nat}
    (hp : p < g.size) (hwanted : wanted p) : p ∈ g.place wanted count placed := by
  induction count generalizing placed with
  | zero =>
      have hsub := List.subperm_of_subset hnodup fun p hp => List.mem_range.2 (hlt p hp)
      have hperm := hsub.perm_of_length_le (by rw [List.length_range]; omega)
      exact hperm.mem_iff.2 (List.mem_range.2 hp)
  | succ count ih =>
      rw [place]
      split
      case h_1 q hnext =>
        obtain ⟨hq, -, hnew, -⟩ := nextReady?_eq_some hnext
        refine ih ?_ ?_ (by rw [List.length_append, List.length_singleton]; omega)
        · exact hnodup.append (List.nodup_singleton q) (by simpa using hnew)
        · exact List.forall_mem_append.2 ⟨hlt, List.forall_mem_singleton.2 hq⟩
      case h_2 hstuck =>
        -- The induction is on what the position depends on.
        clear ih
        induction p using h.wellFounded.induction with
        | _ p ihp =>
            refine nextReady?_eq_none hstuck hp hwanted fun q hq hwq => ?_
            exact ihp q hq (h.closed p q hq) hwq

/-- All wanted positions are placed, and nothing else is. -/
theorem mem_orderOf {p : Nat} : p ∈ g.orderOf wanted ↔ p < g.size ∧ wanted p := by
  constructor
  · exact readyAfter_orderOf.wanted_of_mem
  · rintro ⟨hp, hwanted⟩
    exact h.mem_place .nil (fun q hq => nomatch hq) (Nat.le_add_right _ _) hp hwanted

/-- For one column it is placed, and what it depends on. -/
theorem mem_orderFor {p q : Nat} (hp : p < g.size) :
    q ∈ g.orderFor p ↔ Relation.ReflTransGen g.Reads p q := by
  rw [orderFor, h.mem_orderOf, List.contains_iff_mem, h.mem_closure_singleton hp]
  refine and_iff_right_of_imp fun hpq => ?_
  cases hpq with
  | refl => exact hp
  | tail _ hstep => exact h.closed _ _ hstep

/-- What is placed for one column has its dependencies with it. -/
theorem contains_closure_of_mem_dependencies {p : Nat} (hp : p < g.size) {q r : Nat}
    (hq : (g.closure g.dependencies [p]).contains q) (hr : r ∈ g.dependencies q) :
    (g.closure g.dependencies [p]).contains r := by
  rw [List.contains_iff_mem, h.mem_closure_singleton hp] at hq ⊢
  exact hq.tail hr

end Describes

end FormulaTable.Graph
