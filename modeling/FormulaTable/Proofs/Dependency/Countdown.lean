import FormulaTable.Proofs.Dependency.Linking
import FormulaTable.Proofs.Dependency.Transport

/-!
# Counting down

Positions are placed in the order of `Graph.orderOf` by counting down how many dependencies
each of them still waits for. The counts say at each step what the placed positions say: a
position waits for as many as it has wanted dependencies that are not placed, and those are
kept as ready that wait for none. So the lowest of these is what `Graph.nextReady?` finds,
and what is placed is the same.

* `Counts` — what the counts say when some positions are placed; `counts_countdown` and
  `Counts.next` — they say so at the start, and still do when the lowest ready position is
  placed.
* `Resolves.kahn_eq` — both ways to put positions in order agree.
* `Describes.evaluationOrder_linked` — the order of all columns.
-/

namespace FormulaTable

open LinkedGraph

/-! ### Numbers in ascending order -/

namespace LinkedGraph

/-- Inserting a number keeps the ascending order. -/
theorem pairwise_insertAscending {n : Nat} {l : List Nat} (h : l.Pairwise (· < ·)) :
    (insertAscending n l).Pairwise (· < ·) := by
  induction l with
  | nil => exact List.pairwise_singleton _ n
  | cons k l ih =>
      obtain ⟨hk, hl⟩ := List.pairwise_cons.1 h
      rw [insertAscending]
      split
      case isTrue hnk =>
        exact List.pairwise_cons.2
          ⟨List.forall_mem_cons.2 ⟨hnk, fun m hm => hnk.trans (hk m hm)⟩, h⟩
      case isFalse hnk =>
        split
        case isTrue => exact h
        case isFalse hne =>
          refine List.pairwise_cons.2 ⟨fun m hm => ?_, ih hl⟩
          rcases mem_insertAscending.1 hm with rfl | hm
          · omega
          · exact hk m hm

/-! ### Steps -/

/-- The positions that are included. -/
def wantedBy (included : List Bool) (p : Nat) : Bool := included[p]?.getD false

namespace Countdown

variable {included : List Bool}

/-- A step counts down at its position, if that is included. -/
theorem waiting_step (c : Countdown) (p r : Nat) : (c.step included p).waiting[r]? =
    c.waiting[r]?.map fun n => if p = r ∧ wantedBy included r then n - 1 else n := by
  rw [step, wantedBy]
  by_cases hpr : p = r
  · subst hpr
    cases included[p]?.getD false <;> simp
  · cases included[p]?.getD false <;> simp [hpr]

/-- A position becomes ready when its count reaches zero. -/
theorem mem_ready_step {c : Countdown} {p r : Nat} : r ∈ (c.step included p).ready ↔
    r ∈ c.ready ∨ p = r ∧ wantedBy included r ∧
      (c.step included p).waiting[r]? = some 0 := by
  rw [step]
  by_cases hp : included[p]?.getD false
  · rw [if_pos hp]
    dsimp only
    split
    case isTrue hzero =>
      rw [mem_insertAscending, or_comm]
      refine or_congr_right ⟨?_, fun h => h.1.symm⟩
      rintro rfl
      exact ⟨rfl, hp, hzero⟩
    case isFalse hzero =>
      refine (or_iff_left ?_).symm
      rintro ⟨rfl, -, h⟩
      exact hzero h
  · rw [if_neg hp]
    refine (or_iff_left ?_).symm
    rintro ⟨rfl, h, -⟩
    exact hp h

/-- A step keeps the ready positions in order. -/
theorem pairwise_ready_step {c : Countdown} (h : c.ready.Pairwise (· < ·)) (p : Nat) :
    (c.step included p).ready.Pairwise (· < ·) := by
  rw [step]
  split
  case isTrue =>
    dsimp only
    split
    case isTrue => exact pairwise_insertAscending h
    case isFalse => exact h
  case isFalse => exact h

/-- Each of several positions is counted down once. -/
theorem waiting_foldl_step {ps : List Nat} (h : ps.Nodup) (c : Countdown) (r : Nat) :
    (ps.foldl (step included) c).waiting[r]? =
      c.waiting[r]?.map fun n => if r ∈ ps ∧ wantedBy included r then n - 1 else n := by
  induction ps generalizing c with
  | nil => simp
  | cons p ps ih =>
      obtain ⟨hp, hps⟩ := List.nodup_cons.1 h
      rw [List.foldl_cons, ih hps, waiting_step, Option.map_map]
      refine congrArg (fun f => Option.map f c.waiting[r]?) (funext fun n => ?_)
      by_cases hpr : p = r
      · subst hpr
        simp [hp]
      · simp [hpr, Ne.symm hpr]

/-- Those of several positions become ready whose count reaches zero. -/
theorem mem_ready_foldl_step {ps : List Nat} (h : ps.Nodup) {c : Countdown} {r : Nat} :
    r ∈ (ps.foldl (step included) c).ready ↔ r ∈ c.ready ∨
      r ∈ ps ∧ wantedBy included r ∧ (ps.foldl (step included) c).waiting[r]? = some 0 := by
  induction ps generalizing c with
  | nil => simp
  | cons p ps ih =>
      obtain ⟨hp, hps⟩ := List.nodup_cons.1 h
      rw [List.foldl_cons, ih hps, mem_ready_step, List.mem_cons, or_assoc]
      refine or_congr_right ?_
      by_cases hpr : p = r
      · -- The count of the first position does not change again.
        subst hpr
        have hsame : (ps.foldl (step included) (c.step included p)).waiting[p]? =
            (c.step included p).waiting[p]? := by
          rw [waiting_foldl_step hps]
          simp [hp]
        simp [hp, hsame]
      · simp [hpr, Ne.symm hpr]

/-- Several steps keep the ready positions in order. -/
theorem pairwise_ready_foldl_step {c : Countdown} (h : c.ready.Pairwise (· < ·))
    (ps : List Nat) :
    (ps.foldl (step included) c).ready.Pairwise (· < ·) := by
  induction ps generalizing c with
  | nil => exact h
  | cons p ps ih => exact ih (pairwise_ready_step h p)

end Countdown

end LinkedGraph

/-! ### What the counts say -/

namespace Graph

variable {g : Graph} {columns : List Column} {included : List Bool} {placed : List Nat}
  {c : Countdown}

/-- How many wanted dependencies of a position are not placed. -/
def missing (g : Graph) (wanted : Nat → Bool) (placed : List Nat) (p : Nat) : Nat :=
  (g.dependencies p).countP fun q => wanted q && !placed.contains q

/-- A position misses nothing if all its wanted dependencies are placed. -/
theorem missing_eq_zero {wanted : Nat → Bool} {p : Nat} :
    g.missing wanted placed p = 0 ↔ ∀ q ∈ g.dependencies p, wanted q → q ∈ placed := by
  rw [missing, List.countP_eq_zero]
  refine forall₂_congr fun q _ => ?_
  cases wanted q <;> simp

/-- Placing a position changes what those that read it wait for, by one. -/
theorem missing_append {wanted : Nat → Bool} {p r : Nat} (hnodup : (g.dependencies r).Nodup)
    (hwanted : wanted p) (hnew : p ∉ placed) : g.missing wanted placed r =
      g.missing wanted (placed ++ [p]) r + if p ∈ g.dependencies r then 1 else 0 := by
  rw [missing, missing]
  revert hnodup
  induction g.dependencies r with
  | nil => exact fun _ => rfl
  | cons q qs ih =>
      intro hnodup
      obtain ⟨hq, hqs⟩ := List.nodup_cons.1 hnodup
      rw [List.countP_cons, List.countP_cons, ih hqs]
      by_cases hqp : q = p
      · subst hqp
        simp [hq, hwanted, hnew]
      · simp only [List.mem_cons, Ne.symm hqp, false_or, List.contains_append,
          List.contains_cons, List.contains_nil, Bool.or_false, beq_eq_false_iff_ne.2 hqp]
        omega

/-- What the counts say when some positions are placed: how many dependencies each wanted
position waits for, and which ones are ready. -/
structure Counts (g : Graph) (included : List Bool) (placed : List Nat) (c : Countdown) :
    Prop where
  waiting : ∀ p < g.size, wantedBy included p →
    c.waiting[p]? = some (g.missing (wantedBy included) placed p)
  ready : ∀ p, p ∈ c.ready ↔ g.Ready (wantedBy included) placed p
  ascending : c.ready.Pairwise (· < ·)

/-- The lowest position that is ready is placed next. -/
theorem Counts.nextReady?_eq (h : g.Counts included placed c) :
    g.nextReady? (wantedBy included) placed = c.ready.head? := by
  cases hready : c.ready with
  | nil =>
      refine nextReady?_eq_none_iff.2 fun p hp => ?_
      rw [← h.ready, hready] at hp
      cases hp
  | cons p rest =>
      have hascending := h.ascending
      rw [hready] at hascending
      refine nextReady?_eq_some_iff.2
        ⟨(h.ready p).1 (hready ▸ List.mem_cons_self), fun q hqp hq => ?_⟩
      rw [← h.ready, hready] at hq
      rcases List.mem_cons.1 hq with rfl | hq
      · exact Nat.lt_irrefl q hqp
      · exact Nat.lt_asymm hqp ((List.pairwise_cons.1 hascending).1 q hq)

/-- What is placed has its wanted dependencies placed. -/
def PlacedAfter (g : Graph) (wanted : Nat → Bool) (placed : List Nat) : Prop :=
  ∀ p ∈ placed, ∀ q ∈ g.dependencies p, wanted q → q ∈ placed

/-- A ready position may be placed next. -/
theorem PlacedAfter.append {wanted : Nat → Bool} (h : g.PlacedAfter wanted placed) {p : Nat}
    (hp : g.Ready wanted placed p) : g.PlacedAfter wanted (placed ++ [p]) := by
  refine List.forall_mem_append.2
    ⟨fun r hr q hq hwanted => ?_, List.forall_mem_singleton.2 fun q hq hwanted => ?_⟩
  · exact List.mem_append_left _ (h r hr q hq hwanted)
  · exact List.mem_append_left _ (hp.2.2.2 q hq hwanted)

/-- When a ready position is placed, those are ready that were before, without it, and those
for which it was the last one missing. -/
theorem PlacedAfter.ready_append {wanted : Nat → Bool} (h : g.PlacedAfter wanted placed)
    {p r : Nat} (hp : g.Ready wanted placed p) : g.Ready wanted (placed ++ [p]) r ↔
      g.Ready wanted placed r ∧ r ≠ p ∨
        r < g.size ∧ p ∈ g.dependencies r ∧ wanted r ∧
          g.missing wanted (placed ++ [p]) r = 0 := by
  rw [missing_eq_zero]
  constructor
  · rintro ⟨hlt, hwanted, hnew, hdeps⟩
    rw [List.mem_append, not_or, List.mem_singleton] at hnew
    by_cases hdep : p ∈ g.dependencies r
    · exact .inr ⟨hlt, hdep, hwanted, hdeps⟩
    · refine .inl ⟨⟨hlt, hwanted, hnew.1, fun q hq hwq => ?_⟩, hnew.2⟩
      rcases List.mem_append.1 (hdeps q hq hwq) with hmem | hmem
      · exact hmem
      · exact absurd (List.mem_singleton.1 hmem ▸ hq) hdep
  · rintro (⟨⟨hlt, hwanted, hnew, hdeps⟩, hne⟩ | ⟨hlt, hdep, hwanted, hdeps⟩)
    · exact ⟨hlt, hwanted, by simp [hnew, hne],
        fun q hq hwq => List.mem_append_left _ (hdeps q hq hwq)⟩
    · refine ⟨hlt, hwanted, fun hmem => ?_, hdeps⟩
      -- It would have been placed before the position that it waits for.
      rcases List.mem_append.1 hmem with hmem | hmem
      · exact hp.2.2.1 (h r hmem p hdep hp.2.1)
      · obtain rfl := List.mem_singleton.1 hmem
        exact hp.2.2.1 (hp.2.2.2 r hdep hwanted)

namespace Resolves

variable (h : g.Resolves columns)

include h

/-- **At the start** the counts are those of all wanted dependencies. -/
theorem counts_countdown (included : List Bool) :
    g.Counts included [] (g.linked.countdown included) := by
  have hwaiting : ∀ p < g.size, (g.linked.countdown included).waiting[p]? =
      some (g.missing (wantedBy included) [] p) := by
    intro p hp
    have hlt : p < g.direct.length := by rwa [h.length_direct, ← h.size_eq]
    show (g.direct.map _)[p]? = _
    rw [List.getElem?_map, List.getElem?_eq_getElem hlt, missing, dependencies,
      List.getElem?_eq_getElem hlt]
    simp [wantedBy]
  refine ⟨fun p hp _ => hwaiting p hp, fun p => ?_, List.pairwise_lt_range.filter _⟩
  show p ∈ (List.range g.size).filter (fun p => wantedBy included p &&
    (g.linked.countdown included).waiting[p]? == some 0) ↔ _
  rw [List.mem_filter, List.mem_range, Ready, ← missing_eq_zero]
  refine and_congr_right fun hp => ?_
  rw [hwaiting p hp]
  simp

/-- **One step**: the counts still say what is placed when the lowest ready position is
placed, and those that depend on it are counted down. -/
theorem counts_next (hc : g.Counts included placed c)
    (hplaced : g.PlacedAfter (wantedBy included) placed) {p : Nat} {ready : List Nat}
    (hready : c.ready = p :: ready) :
    g.Counts included (placed ++ [p])
      ((g.linked.dependentsAt p).foldl (Countdown.step included) ⟨c.waiting, ready⟩) := by
  have hp : g.Ready (wantedBy included) placed p :=
    (hc.ready p).1 (hready ▸ List.mem_cons_self)
  have hascending := hc.ascending
  rw [hready] at hascending
  rw [dependentsAt_linked hp.1]
  have hwaiting : ∀ r < g.size, wantedBy included r →
      ((g.dependents p).foldl (Countdown.step included) ⟨c.waiting, ready⟩).waiting[r]? =
        some (g.missing (wantedBy included) (placed ++ [p]) r) := by
    intro r hr hwanted
    rw [Countdown.waiting_foldl_step (nodup_dependents p), hc.waiting r hr hwanted,
      missing_append (h.nodup_dependencies r) hp.2.1 hp.2.2.1, Option.map_some]
    by_cases hdep : p ∈ g.dependencies r
    · rw [if_pos hdep, if_pos ⟨mem_dependents.2 ⟨hr, hdep⟩, hwanted⟩, Nat.add_sub_cancel]
    · rw [if_neg hdep, if_neg fun hr => hdep (mem_dependents.1 hr.1).2, Nat.add_zero]
  refine ⟨hwaiting, fun r => ?_,
    Countdown.pairwise_ready_foldl_step (List.pairwise_cons.1 hascending).2 _⟩
  have hrest : r ∈ ready ↔ g.Ready (wantedBy included) placed r ∧ r ≠ p := by
    rw [← hc.ready, hready, List.mem_cons]
    constructor
    · intro hr
      exact ⟨.inr hr, Nat.ne_of_gt ((List.pairwise_cons.1 hascending).1 r hr)⟩
    · rintro ⟨hr, hne⟩
      exact hr.resolve_left hne
  rw [Countdown.mem_ready_foldl_step (nodup_dependents p), hplaced.ready_append hp, hrest,
    mem_dependents, and_assoc]
  refine or_congr_right
    (and_congr_right fun hlt => and_congr_right fun _ => and_congr_right fun hwanted => ?_)
  rw [hwaiting r hlt hwanted, Option.some.injEq]

/-- **A whole run** places what `Graph.place` places. -/
theorem placeReady_eq (count : Nat) (hc : g.Counts included placed c)
    (hplaced : g.PlacedAfter (wantedBy included) placed) :
    g.linked.placeReady included count c placed =
      g.place (wantedBy included) count placed := by
  induction count generalizing placed c with
  | zero => rfl
  | succ count ih =>
      rw [LinkedGraph.placeReady, place, hc.nextReady?_eq]
      cases hready : c.ready with
      | nil => rfl
      | cons p ready =>
          have hp : g.Ready (wantedBy included) placed p :=
            (hc.ready p).1 (hready ▸ List.mem_cons_self)
          exact ih (h.counts_next hc hplaced hready) (hplaced.append hp)

/-- **Both ways to put positions in order** agree. -/
theorem kahn_eq (included : List Bool) :
    g.linked.kahn included = g.namesAt (g.orderOf (wantedBy included)) := by
  have hplace :=
    h.placeReady_eq g.size (h.counts_countdown included) (List.forall_mem_nil _)
  exact congrArg g.namesAt hplace

end Resolves

/-- All positions are put in the same order. -/
theorem Describes.evaluationOrder_linked (h : g.Describes columns) :
    g.linked.evaluationOrder = g.evaluationOrder := by
  have hwanted : ∀ p < g.size, wantedBy (g.names.map fun _ => true) p = true := by
    intro p hp
    rw [wantedBy, List.getElem?_map, List.getElem?_eq_getElem hp]
    rfl
  refine (h.kahn_eq _).trans ?_
  exact congrArg g.namesAt (place_congr h.closed hwanted g.size [])

end Graph

end FormulaTable
