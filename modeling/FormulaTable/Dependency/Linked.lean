import FormulaTable.Dependency.Graph

/-!
# Graphs with links both ways

A graph as a table keeps it: an index of the names, and for each position the positions that
it depends on and those that depend on it. It is put together in one pass over the columns.
The search for a cycle keeps a mark for each position and a stack of frames, one for each
position of the path that it follows. Positions are put in order by counting down how many
dependencies each of them still waits for.
-/

namespace FormulaTable

/-- A graph with all that is kept of it. -/
structure LinkedGraph where
  names : List String
  /-- The positions of the names. -/
  index : List (String × Nat)
  /-- For each position those that it directly depends on, in the order in which they are
  first mentioned. -/
  dependencies : List (List Nat)
  /-- For each position those that directly depend on it, in ascending order. -/
  dependents : List (List Nat)
deriving DecidableEq

namespace LinkedGraph

/-- The positions that a position directly depends on. -/
def dependenciesAt (g : LinkedGraph) (p : Nat) : List Nat := g.dependencies[p]?.getD []

/-- The positions that directly depend on a position. -/
def dependentsAt (g : LinkedGraph) (p : Nat) : List Nat := g.dependents[p]?.getD []

/-- The position of a name, or an error. -/
def position (g : LinkedGraph) (name : String) : Except Error Nat :=
  match g.index.lookup name with
  | some p => .ok p
  | none => .error (.unknownColumn name)

/-- The names at several positions. -/
def namesAt (g : LinkedGraph) (ps : List Nat) : List String :=
  ps.map fun p => g.names[p]?.getD ""

/-! ### Cycles -/

/-- How far the search has come with a position. -/
inductive Mark where
  | unseen
  | onPath
  | done
deriving DecidableEq

/-- A position of the path, and how many of its dependencies were followed. -/
structure Frame where
  position : Nat
  followed : Nat

/-- The marks of all positions, and the path that is followed. -/
structure Trail where
  marks : List Mark
  path : List Nat

/-- What is still to be done for the frames: each of their dependencies that are left, and
the frames. -/
def remaining (g : LinkedGraph) : List Frame → Nat
  | [] => 0
  | f :: below => (g.dependenciesAt f.position).length - f.followed + 1 + g.remaining below

/-- Putting another element in the place of one lowers the count of the latter. -/
theorem count_set_lt {α : Type} [BEq α] [LawfulBEq α] {l : List α} {i : Nat} {a b : α}
    (h : l[i]? = some b) (hab : a ≠ b) : (l.set i a).count b < l.count b := by
  obtain ⟨hlt, hget⟩ := List.getElem?_eq_some_iff.1 h
  have hpos : 0 < l.count b := List.count_pos_iff.2 (List.mem_of_getElem? h)
  rw [List.count_set hlt, hget]
  simp only [beq_self_eq_true, if_true, beq_iff_eq, hab, if_false]
  omega

/-- Setting an element does not raise the count of another one. -/
theorem count_set_le {α : Type} [BEq α] [LawfulBEq α] (l : List α) (i : Nat) {a b : α}
    (hab : a ≠ b) :
    (l.set i a).count b ≤ l.count b := by
  by_cases hi : i < l.length
  · rw [List.count_set hi]
    simp [hab]
  · exact Nat.le_of_eq
      (congrArg (List.count b) (List.set_eq_of_length_le (Nat.le_of_not_lt hi)))

/-- Follows dependencies from the top frame, until no frame is left or a position of the
path is met again: then the result is the part of the path from that position on, and the
position. -/
def search (g : LinkedGraph) (t : Trail) (frames : List Frame) : Except (List Nat) Trail :=
  match frames with
  | [] => .ok t
  | f :: below =>
    match _next : (g.dependenciesAt f.position)[f.followed]? with
    | none => g.search ⟨t.marks.set f.position .done, t.path.dropLast⟩ below
    | some q =>
      match mark : t.marks[q]? with
      | some .unseen =>
        g.search ⟨t.marks.set q .onPath, t.path ++ [q]⟩
          (⟨q, 0⟩ :: ⟨f.position, f.followed + 1⟩ :: below)
      | some .onPath => .error (t.path.drop ((t.path.idxOf? q).getD 0) ++ [q])
      | _ => g.search t (⟨f.position, f.followed + 1⟩ :: below)
termination_by (t.marks.count .unseen, g.remaining frames)
decreasing_by
  · -- The frame is given up, and no position becomes unseen.
    rw [remaining]
    rcases Nat.lt_or_eq_of_le
      (count_set_le t.marks f.position (show Mark.done ≠ .unseen by decide)) with h | h
    · exact Prod.Lex.left _ _ h
    · rw [h]
      exact Prod.Lex.right _ (by omega)
  · exact Prod.Lex.left _ _ (count_set_lt mark (by decide))
  · -- One more dependency of the frame was followed.
    have hlt := (List.getElem?_eq_some_iff.1 _next).1
    refine Prod.Lex.right _ ?_
    rw [remaining, remaining]
    dsimp only
    omega

/-- Starts a search at a position, unless it was seen. -/
def searchFrom (g : LinkedGraph) (t : Trail) (p : Nat) : Except (List Nat) Trail :=
  if t.marks[p]? = some .unseen then
    g.search ⟨t.marks.set p .onPath, t.path ++ [p]⟩ [⟨p, 0⟩] else .ok t

/-- The names on the first cycle that is met. -/
def findCycle? (g : LinkedGraph) : Option (List String) :=
  match (List.range g.names.length).foldlM g.searchFrom
    ⟨g.names.map fun _ => .unseen, []⟩ with
  | .ok _ => none
  | .error path => some (g.namesAt path)

/-! ### Construction -/

/-- The index with the name of one more column, which has to be new. -/
def enter (index : List (String × Nat)) : Column × Nat → Except Error (List (String × Nat))
  | (c, p) =>
    if (index.lookup c.name).isSome then .error (.duplicateColumn c.name)
      else .ok ((c.name, p) :: index)

/-- The dependencies of the column at `p` with one more, by its name, unless it is listed;
and the dependents of all columns with it. -/
def link (index : List (String × Nat)) (p : Nat) :
    List Nat × List (List Nat) → String → Except Error (List Nat × List (List Nat))
  | (direct, dependents), name =>
    match index.lookup name with
    | none => .error (.unknownColumn name)
    | some q =>
      if direct.contains q then .ok (direct, dependents)
      else .ok (direct ++ [q], dependents.modify q (· ++ [p]))

/-- The dependencies and dependents of all columns with those of one more. -/
def linkColumn (index : List (String × Nat)) :
    List (List Nat) × List (List Nat) → Column × Nat →
      Except Error (List (List Nat) × List (List Nat))
  | (dependencies, dependents), (c, p) => do
    let (direct, dependents) ← c.dependencies.foldlM (link index p) ([], dependents)
    return (dependencies ++ [direct], dependents)

/-- The graph of a list of columns. -/
def build (columns : List Column) : Except Error LinkedGraph := do
  let index ← columns.zipIdx.foldlM enter []
  let (dependencies, dependents) ← columns.zipIdx.foldlM (linkColumn index)
      ([], columns.map fun _ => [])
  let g : LinkedGraph := ⟨columns.map (·.name), index, dependencies, dependents⟩
  match g.findCycle? with
  | some path => throw (.cycle path)
  | none => return g

/-! ### Orders -/

/-- A number put into its place among others in ascending order, unless it is there. -/
def insertAscending (n : Nat) : List Nat → List Nat
  | [] => [n]
  | m :: rest => if n < m then n :: m :: rest else if n = m then m :: rest
    else m :: insertAscending n rest

/-- Inserting a number adds it and nothing else. -/
theorem mem_insertAscending {n m : Nat} {l : List Nat} :
    m ∈ insertAscending n l ↔ m = n ∨ m ∈ l := by
  induction l with
  | nil => simp [insertAscending]
  | cons k l ih =>
    rw [insertAscending]
    split
    case isTrue => rw [List.mem_cons]
    case isFalse =>
      split
      case isTrue heq => simp [heq]
      case isFalse => rw [List.mem_cons, ih, List.mem_cons, or_left_comm]

/-- How many dependencies each position waits for, and the positions that wait for none and
are not placed, in ascending order. -/
structure Countdown where
  waiting : List Nat
  ready : List Nat

/-- A position, if it is included, waits for one dependency less. -/
def Countdown.step (included : List Bool) (c : Countdown) (p : Nat) : Countdown :=
  if included[p]?.getD false then
    let waiting := c.waiting.modify p (· - 1)
    ⟨waiting, if waiting[p]? = some 0 then insertAscending p c.ready else c.ready⟩
  else c

/-- The counts before anything is placed. -/
def countdown (g : LinkedGraph) (included : List Bool) : Countdown :=
  let waiting := g.dependencies.map fun ps => ps.countP fun p => included[p]?.getD false
  ⟨waiting, (List.range g.names.length).filter fun p => included[p]?.getD false &&
    waiting[p]? == some 0⟩

/-- Places the lowest position that is ready, up to a number of times. -/
def placeReady (g : LinkedGraph) (included : List Bool) :
    Nat → Countdown → List Nat → List Nat
  | 0, _, placed => placed
  | count + 1, c, placed =>
    match c.ready with
    | [] => placed
    | p :: ready =>
      placeReady g included count
        ((g.dependentsAt p).foldl (Countdown.step included) ⟨c.waiting, ready⟩)
        (placed ++ [p])

/-- The included columns, each after those it depends on. Every position is placed at most
once. -/
def kahn (g : LinkedGraph) (included : List Bool) : List String :=
  g.namesAt (g.placeReady included g.names.length (g.countdown included) [])

/-- All columns in an order of evaluation. -/
def evaluationOrder (g : LinkedGraph) : List String := g.kahn (g.names.map fun _ => true)

/-- Includes the positions on a stack, and all that they depend on. -/
def gather (g : LinkedGraph) (included : List Bool) (pending : List Nat) : List Bool :=
  match pending with
  | [] => included
  | p :: pending =>
    match _unseen : included[p]? with
    | some false => g.gather (included.set p true) ((g.dependenciesAt p).reverse ++ pending)
    | _ => g.gather included pending
termination_by (included.count false, pending.length)
decreasing_by
  · exact Prod.Lex.left _ _ (count_set_lt _unseen (by decide))
  · exact Prod.Lex.right _ (Nat.lt_succ_self _)

/-- A column and those that it depends on, in the order of evaluation. -/
def evaluationOrderFor (g : LinkedGraph) (name : String) : Except Error (List String) := do
  let p ← g.position name
  return g.kahn (g.gather (g.names.map fun _ => false) [p])

end LinkedGraph

/-- The graph with its index, and with links both ways. -/
def Graph.linked (g : Graph) : LinkedGraph :=
  ⟨g.names, g.names.zipIdx.reverse, g.direct, g.positions.map g.dependents⟩

end FormulaTable
