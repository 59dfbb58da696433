import FormulaTable.Column
import FormulaTable.Names

/-!
# Dependencies between columns

Columns are known by their positions, and a column depends on those that its computation
reads. A graph is only made of columns with distinct names, all of whose dependencies are
columns, and none of which depends on itself through others: `Graph.build` reports the first
fault it finds.

What a column reaches is found in rounds: each round adds what the columns found so far lead
to.
-/

namespace FormulaTable

/-- The names of columns, and for each the positions it directly depends on, in the order in
which they are first mentioned. -/
structure Graph where
  names : List String
  direct : List (List Nat)
deriving DecidableEq

namespace Graph

/-- No columns. -/
def empty : Graph := ⟨[], []⟩

/-- The number of columns. -/
def size (g : Graph) : Nat := g.names.length

/-- The positions. -/
def positions (g : Graph) : List Nat := List.range g.size

/-- The positions that a position directly depends on. -/
def dependencies (g : Graph) (p : Nat) : List Nat := g.direct[p]?.getD []

/-- The positions that directly depend on a position, in ascending order. -/
def dependents (g : Graph) (p : Nat) : List Nat :=
  g.positions.filter fun q => (g.dependencies q).contains p

/-- The position of a name. -/
def position? (g : Graph) (name : String) : Option Nat := g.names.idxOf? name

/-- The place of a name in a list, or an error. -/
def placeOf (names : List String) (name : String) : Except Error Nat :=
  match names.idxOf? name with
  | some p => .ok p
  | none => .error (.unknownColumn name)

/-- The position of a name, or an error. -/
def position (g : Graph) (name : String) : Except Error Nat := placeOf g.names name

/-- Is there a column of this name? -/
def contains (g : Graph) (name : String) : Bool := (g.position? name).isSome

/-- The name at a position. -/
def name (g : Graph) (p : Nat) : String := g.names[p]?.getD ""

/-- The names at several positions. -/
def namesAt (g : Graph) (ps : List Nat) : List String := ps.map g.name

/-! ### What a column reaches -/

/-- The positions that `next` leads to from those seen so far, without the latter. -/
def fresh (next : Nat → List Nat) (seen : List Nat) : List Nat :=
  ((seen.flatMap next).filter (!seen.contains ·)).eraseDups

/-- The positions found after a number of rounds. -/
def grow (next : Nat → List Nat) : Nat → List Nat → List Nat
  | 0, seen => seen
  | rounds + 1, seen =>
    match fresh next seen with
    | [] => seen
    | found => grow next rounds (seen ++ found)

/-- All positions that are reached from the given ones, themselves included. A round that is
not the last one finds a position, so that there are at most as many rounds as positions. -/
def closure (g : Graph) (next : Nat → List Nat) (start : List Nat) : List Nat :=
  grow next g.size start

/-- The positions that a position depends on, directly or through others. -/
def reached (g : Graph) (p : Nat) : List Nat := g.closure g.dependencies (g.dependencies p)

/-- The positions that depend on a position, directly or through others, in ascending
order. -/
def affected (g : Graph) (p : Nat) : List Nat :=
  let found := g.closure g.dependents (g.dependents p)
  g.positions.filter found.contains

/-! ### Cycles -/

/-- Follows the dependencies of a position. `path` leads to it and `done` are the positions
known to be on no cycle; the result is the new `done`, or a cycle as a path whose last
position is also its first. The first argument exceeds the number of positions that are not
on the path. -/
def explore (g : Graph) : Nat → List Nat → List Nat → Nat → Except (List Nat) (List Nat)
  | 0, _, done, _ => .ok done
  | budget + 1, path, done, p =>
    if done.contains p then .ok done
    else if path.contains p then .error (path.dropWhile (· ≠ p) ++ [p])
    else do
      let done ← (g.dependencies p).foldlM
          (fun done q => explore g budget (path ++ [p]) done q) done
      return p :: done

/-- The first cycle that is found from the positions in their order. -/
def findCycle? (g : Graph) : Option (List Nat) :=
  match g.positions.foldlM (fun done p => g.explore (g.size + 1) [] done p) [] with
  | .ok _ => none
  | .error path => some path

/-! ### Construction -/

/-- The positions of the dependencies of a column, or the first one that is no column. -/
def resolve (names : List String) (c : Column) : Except Error (List Nat) := do
  return (← c.dependencies.mapM (placeOf names)).eraseDups

/-- The graph of a list of columns. -/
def build (columns : List Column) : Except Error Graph := do
  let names := columns.map (·.name)
  match firstRepeat? names with
  | some name => throw (.duplicateColumn name)
  | none =>
    let g : Graph := ⟨names, ← columns.mapM (resolve names)⟩
    match g.findCycle? with
    | some path => throw (.cycle (g.namesAt path))
    | none => return g

/-! ### Orders -/

/-- The first position to be placed next: one that is wanted and not yet placed, all of
whose wanted dependencies are placed. -/
def nextReady? (g : Graph) (wanted : Nat → Bool) (placed : List Nat) : Option Nat :=
  g.positions.find? fun p =>
    wanted p && !placed.contains p && (g.dependencies p).all fun q => !wanted q ||
      placed.contains q

/-- Places up to a number of positions after those that are placed. -/
def place (g : Graph) (wanted : Nat → Bool) : Nat → List Nat → List Nat
  | 0, placed => placed
  | count + 1, placed =>
    match g.nextReady? wanted placed with
    | some p => place g wanted count (placed ++ [p])
    | none => placed

/-- The wanted positions, each after those it depends on; of the positions that could come
next the lowest does. -/
def orderOf (g : Graph) (wanted : Nat → Bool) : List Nat := g.place wanted g.size []

/-- All positions in an order of evaluation. -/
def order (g : Graph) : List Nat := g.orderOf fun _ => true

/-- A position and those that it depends on, in the order of evaluation. -/
def orderFor (g : Graph) (p : Nat) : List Nat :=
  let needed := g.closure g.dependencies [p]
  g.orderOf needed.contains

/-! ### Questions by name -/

/-- The columns that a column directly depends on. -/
def dependenciesOf (g : Graph) (name : String) : Except Error (List String) := do
  return g.namesAt (g.dependencies (← g.position name))

/-- The columns that directly depend on a column, in the order of their positions. -/
def dependentsOf (g : Graph) (name : String) : Except Error (List String) := do
  return g.namesAt (g.dependents (← g.position name))

/-- The columns that depend on a column, directly or through others, in the order of their
positions. -/
def transitiveDependents (g : Graph) (name : String) : Except Error (List String) := do
  return g.namesAt (g.affected (← g.position name))

/-- Does a column depend on another one, directly or through others? -/
def isDependentOn (g : Graph) (name other : String) : Bool :=
  match g.position? name, g.position? other with
  | some p, some q => (g.reached p).contains q
  | _, _ => false

/-- All columns in the order of evaluation. -/
def evaluationOrder (g : Graph) : List String := g.namesAt g.order

/-- A column and those that it depends on, in the order of evaluation. -/
def evaluationOrderFor (g : Graph) (name : String) : Except Error (List String) := do
  return g.namesAt (g.orderFor (← g.position name))

end Graph

end FormulaTable
