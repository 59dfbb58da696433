import FormulaTable.Dependency.Linked

/-!
# Traversals

What a column depends on, and what depends on it, is found with a stack of positions that
are still to be looked at: a turn takes the top one, and may put others in its place. A turn
that marks a position leaves fewer of them unmarked, and one that does not leaves a smaller
stack, so that there is a last turn.

There are three such loops. One includes a column and all that it depends on. One stops when
it meets a given position, which it looks for before it looks at the marks. One goes along
the dependents, and marks a position when it is put on the stack instead of when it is
taken.

* `Loop.ends` — a loop is over after some turns.
* `Loop.run_induction` — what every turn keeps, a run keeps.
-/

namespace FormulaTable

/-- A loop: what a turn makes of a state, unless the loop is over, and a size that each turn
makes smaller. -/
structure Loop (σ : Type) where
  turn : σ → Option σ
  size : σ → Nat × Nat
  size_lt : ∀ s s', turn s = some s' → Prod.Lex (· < ·) (· < ·) (size s') (size s)

namespace Loop

variable {σ : Type}

/-- The state in which the loop is over. -/
def run (l : Loop σ) (s : σ) : σ :=
  match _next : l.turn s with
  | none => s
  | some s' => l.run s'
termination_by l.size s
decreasing_by exact l.size_lt s s' _next

/-- A loop that has no turn left stays where it is. -/
theorem run_of_none {l : Loop σ} {s : σ} (h : l.turn s = none) : l.run s = s := by
  rw [run]
  split
  · rfl
  · next hnext =>
    rw [h] at hnext
    cases hnext

/-- A turn of a loop is the beginning of its run. -/
theorem run_of_some {l : Loop σ} {s s' : σ} (h : l.turn s = some s') :
    l.run s = l.run s' := by
  rw [run]
  split
  · next hnone =>
    rw [h] at hnone
    cases hnone
  · next hnext =>
    rw [h] at hnext
    rw [Option.some.inj hnext]

/-- The state after a number of turns, if the loop is not over before. -/
def after (l : Loop σ) : Nat → σ → Option σ
  | 0, s => some s
  | turns + 1, s => (l.turn s).bind (l.after turns)

/-- What a turn keeps, a whole run keeps. -/
theorem run_induction (l : Loop σ) {P : σ → Prop}
    (hturn : ∀ s s', P s → l.turn s = some s' → P s') {s : σ} (h : P s) : P (l.run s) := by
  fun_induction Loop.run l s with
  | case1 s _ => exact h
  | case2 s s' hnext ih => exact ih (hturn s s' h hnext)

/-- A loop ends where it runs to, if that state is reached in some turns and there is no
next one. -/
def Ends (l : Loop σ) (s : σ) : Prop :=
  ∃ turns, l.after turns s = some (l.run s) ∧ l.turn (l.run s) = none

/-- **A loop comes to an end**, from every state. -/
theorem ends (l : Loop σ) (s : σ) : l.Ends s := by
  rw [Ends]
  fun_induction Loop.run l s with
  | case1 s hnone => exact ⟨0, rfl, hnone⟩
  | case2 s s' hnext ih =>
      obtain ⟨turns, hafter, hnone⟩ := ih
      refine ⟨turns + 1, ?_, hnone⟩
      rw [after, hnext, Option.bind_some, hafter]

/-- A run ends where no turn is left. -/
theorem turn_run (l : Loop σ) (s : σ) : l.turn (l.run s) = none :=
  (l.ends s).elim fun _ h => h.2

end Loop

namespace LinkedGraph

/-- What is marked, and the stack. -/
structure Traversal (μ : Type) where
  marked : μ
  pending : List Nat

/-! ### Along dependencies -/

/-- Includes the top of the stack and puts what it depends on in its place, unless it is
included already. -/
def gatherTurn (g : LinkedGraph) : Traversal (List Bool) → Option (Traversal (List Bool))
  | ⟨_, []⟩ => none
  | ⟨included, p :: pending⟩ =>
    if included[p]? = some false then
      some ⟨included.set p true, (g.dependenciesAt p).reverse ++ pending⟩
    else some ⟨included, pending⟩

/-- The same, but the loop is over when the target is on top of the stack. -/
def seekTurn (g : LinkedGraph) (target : Nat) (t : Traversal (List Bool)) :
    Option (Traversal (List Bool)) :=
  if t.pending.head? = some target then none else g.gatherTurn t

/-- How many positions are not included, and how many are on the stack. -/
def sizeAlong (t : Traversal (List Bool)) : Nat × Nat :=
  (t.marked.count false, t.pending.length)

/-- A turn of gathering marks something new, or shortens what is pending. -/
theorem sizeAlong_lt (g : LinkedGraph) (t t' : Traversal (List Bool))
    (h : g.gatherTurn t = some t') :
    Prod.Lex (· < ·) (· < ·) (sizeAlong t') (sizeAlong t) := by
  obtain ⟨included, pending⟩ := t
  cases pending with
  | nil => cases h
  | cons p pending =>
      rw [gatherTurn] at h
      split at h
      · next hunseen =>
        obtain rfl := Option.some.inj h
        exact Prod.Lex.left _ _ (count_set_lt hunseen (by decide))
      · obtain rfl := Option.some.inj h
        exact Prod.Lex.right _ (Nat.lt_succ_self _)

/-- Includes all that the positions on the stack depend on. -/
def gathering (g : LinkedGraph) : Loop (Traversal (List Bool)) :=
  ⟨g.gatherTurn, sizeAlong, g.sizeAlong_lt⟩

/-- Looks for a position among those that the positions on the stack depend on. -/
def seeking (g : LinkedGraph) (target : Nat) : Loop (Traversal (List Bool)) where
  turn := g.seekTurn target
  size := sizeAlong
  size_lt t t' h := by
    rw [seekTurn] at h
    split at h
    · cases h
    · exact g.sizeAlong_lt t t' h

/-- Does a column depend on another one, directly or through others? Names that are missing
do not. -/
def isDependentOn (g : LinkedGraph) (name other : String) : Bool :=
  match g.position name, g.position other with
  | .ok p, .ok target =>
    !((g.seeking target).run ⟨g.names.map fun _ => false,
        (g.dependenciesAt p).reverse⟩).pending.isEmpty
  | _, _ => false

/-! ### Along dependents -/

/-- Marks a position, in ascending order, and puts it on the stack, unless it is marked
already. -/
def note (t : Traversal (List Nat)) (p : Nat) : Traversal (List Nat) :=
  if t.marked.contains p then t else ⟨insertAscending p t.marked, p :: t.pending⟩

/-- Takes the top of the stack, and notes what depends on it. -/
def spreadTurn (g : LinkedGraph) : Traversal (List Nat) → Option (Traversal (List Nat))
  | ⟨_, []⟩ => none
  | ⟨seen, p :: pending⟩ => some ((g.dependentsAt p).foldl note ⟨seen, pending⟩)

/-- How often a position that is not marked is a dependent. -/
def unmarked (g : LinkedGraph) (seen : List Nat) : Nat :=
  g.dependents.flatten.countP fun p => !seen.contains p

/-- A dependent that is marked is one less. -/
theorem unmarked_insertAscending_lt {g : LinkedGraph} {seen : List Nat} {p : Nat}
    (hp : p ∉ seen) (hmem : p ∈ g.dependents.flatten) :
    g.unmarked (insertAscending p seen) < g.unmarked seen := by
  obtain ⟨before, after, hsplit⟩ := List.append_of_mem hmem
  have hle (l : List Nat) : l.countP (fun q => !(insertAscending p seen).contains q) ≤
      l.countP fun q => !seen.contains q := by
    refine List.countP_mono_left fun q _ hq => ?_
    simp only [Bool.not_eq_true', List.contains_eq_mem, decide_eq_false_iff_not,
      mem_insertAscending, not_or] at hq ⊢
    exact hq.2
  have hold : (!seen.contains p) = true := by simp [hp]
  have hnew : ¬ (!(insertAscending p seen).contains p) = true := by
    simp [mem_insertAscending]
  rw [unmarked, unmarked, hsplit, List.countP_append, List.countP_append,
    List.countP_cons_of_pos (p := fun q => !seen.contains q) hold,
    List.countP_cons_of_neg (p := fun q => !(insertAscending p seen).contains q) hnew]
  have := hle before
  have := hle after
  omega

/-- Noting dependents marks one that was not marked, or changes nothing. -/
theorem foldl_note {g : LinkedGraph} {ps : List Nat}
    (h : ∀ p ∈ ps, p ∈ g.dependents.flatten) (t : Traversal (List Nat)) :
    ps.foldl note t = t ∨ g.unmarked (ps.foldl note t).marked < g.unmarked t.marked := by
  induction ps generalizing t with
  | nil => exact .inl rfl
  | cons p ps ih =>
    obtain ⟨hp, hps⟩ := List.forall_mem_cons.1 h
    rw [List.foldl_cons, note]
    split
    · exact ih hps t
    · next hnew =>
      have hlt := unmarked_insertAscending_lt (mt List.contains_iff_mem.2 hnew) hp
      rcases ih hps ⟨insertAscending p t.marked, p :: t.pending⟩ with hsame | hless
      · rw [hsame]
        exact .inr hlt
      · exact .inr (Nat.lt_trans hless hlt)

/-- Whatever depends on something is one of the linked dependents. -/
theorem mem_flatten_of_mem_dependentsAt {g : LinkedGraph} {p q : Nat}
    (h : q ∈ g.dependentsAt p) :
    q ∈ g.dependents.flatten := by
  rw [dependentsAt] at h
  cases hp : g.dependents[p]? with
  | none =>
    rw [hp] at h
    cases h
  | some ps =>
    rw [hp] at h
    exact List.mem_flatten_of_mem (List.mem_of_getElem? hp) h

/-- Notes all that depends on the positions on the stack. -/
def spreading (g : LinkedGraph) : Loop (Traversal (List Nat)) where
  turn := g.spreadTurn
  size t := (g.unmarked t.marked, t.pending.length)
  size_lt t t' h := by
    obtain ⟨seen, pending⟩ := t
    cases pending with
    | nil => cases h
    | cons p pending =>
      obtain rfl := Option.some.inj h
      rcases foldl_note (fun _ => mem_flatten_of_mem_dependentsAt (p := p))
        ⟨seen, pending⟩ with hsame | hless
      · rw [hsame]
        exact Prod.Lex.right _ (Nat.lt_succ_self _)
      · exact Prod.Lex.left _ _ hless

/-- The columns that depend on a column, directly or through others, in the order of their
positions. -/
def transitiveDependents (g : LinkedGraph) (name : String) : Except Error (List String) :=
  do
  let p ← g.position name
  return g.namesAt (g.spreading.run ⟨[], [p]⟩).marked

end LinkedGraph

end FormulaTable
