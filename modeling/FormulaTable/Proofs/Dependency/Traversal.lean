import FormulaTable.Dependency.Traversal
import FormulaTable.Proofs.Dependency.Restriction
import Mathlib.Data.List.Sort

/-!
# Traversals agree

Whether a column depends on another one, which columns depend on it, and in which order it
is evaluated with those that it depends on are three traversals, written in three ways. For
each of them an invariant says what is marked and what is still on the stack: every turn
keeps it, and when the loop is over it says that the paths of dependencies were found. So
the three agree with these paths, and with each other.

* `Seeks.turn`, `seeking_iff` — the target is met exactly when a path leads to it.
* `Spreads.turn`, `spreading_eq` — the positions from which a path leads to a position, in
  ascending order.
* `gather_eq` — what a column is evaluated with is gathered turn by turn.
* `Graph.traversals_agree` — what the three say by name, and that each of them comes to an
  end.
-/

namespace FormulaTable

open Columns LinkedGraph Relation

namespace LinkedGraph

/-! ### Gathering -/

/-- What is gathered is what is included when the loop is over. -/
theorem gather_eq (g : LinkedGraph) (included : List Bool) (pending : List Nat) :
    g.gather included pending = (g.gathering.run ⟨included, pending⟩).marked := by
  fun_induction LinkedGraph.gather g included pending with
  | case1 included => rw [Loop.run_of_none rfl]
  | case2 included p pending hunseen ih =>
      have hturn : g.gathering.turn ⟨included, p :: pending⟩ = some _ := if_pos hunseen
      rw [ih, Loop.run_of_some hturn]
  | case3 included p pending hseen ih =>
      have hturn : g.gathering.turn ⟨included, p :: pending⟩ = some _ := if_neg hseen
      rw [ih, Loop.run_of_some hturn]

/-! ### Notes -/

/-- Noting a position marks it and no other. -/
theorem mem_marked_note {t : Traversal (List Nat)} {p q : Nat} :
    q ∈ (note t p).marked ↔ q = p ∨ q ∈ t.marked := by
  rw [note]
  split
  case isTrue hp =>
    refine (or_iff_right_of_imp ?_).symm
    rintro rfl
    exact List.contains_iff_mem.1 hp
  case isFalse => exact mem_insertAscending

/-- Noting a position makes it pending, unless it was marked. -/
theorem mem_pending_note {t : Traversal (List Nat)} {p q : Nat} :
    q ∈ (note t p).pending ↔ q ∈ t.pending ∨ q = p ∧ q ∉ t.marked := by
  rw [note]
  split
  case isTrue hp =>
    refine (or_iff_left ?_).symm
    rintro ⟨rfl, hnew⟩
    exact hnew (List.contains_iff_mem.1 hp)
  case isFalse hp =>
    rw [List.contains_iff_mem] at hp
    rw [List.mem_cons, or_comm]
    refine or_congr_right ⟨?_, And.left⟩
    rintro rfl
    exact ⟨rfl, hp⟩

/-- Noting a position keeps the marks in order. -/
theorem pairwise_marked_note {t : Traversal (List Nat)} (h : t.marked.Pairwise (· < ·))
    (p : Nat) :
    (note t p).marked.Pairwise (· < ·) := by
  rw [note]
  split
  case isTrue => exact h
  case isFalse => exact pairwise_insertAscending h

/-- All positions that are noted are marked. -/
theorem mem_marked_foldl_note {ps : List Nat} {t : Traversal (List Nat)} {q : Nat} :
    q ∈ (ps.foldl note t).marked ↔ q ∈ ps ∨ q ∈ t.marked := by
  induction ps generalizing t with
  | nil => simp
  | cons p ps ih =>
      rw [List.foldl_cons, ih, mem_marked_note, List.mem_cons, or_left_comm, or_assoc]

/-- Those that were not marked are put on the stack. -/
theorem mem_pending_foldl_note {ps : List Nat} {t : Traversal (List Nat)} {q : Nat} :
    q ∈ (ps.foldl note t).pending ↔ q ∈ t.pending ∨ q ∈ ps ∧ q ∉ t.marked := by
  induction ps generalizing t with
  | nil => simp
  | cons p ps ih =>
      rw [List.foldl_cons, ih, mem_pending_note, mem_marked_note, List.mem_cons]
      by_cases hqp : q = p <;> simp [hqp]

/-- Noting several positions keeps the marks in order. -/
theorem pairwise_marked_foldl_note {t : Traversal (List Nat)}
    (h : t.marked.Pairwise (· < ·)) (ps : List Nat) :
    (ps.foldl note t).marked.Pairwise (· < ·) := by
  induction ps generalizing t with
  | nil => exact h
  | cons p ps ih => exact ih (pairwise_marked_note h p)

end LinkedGraph

namespace Graph

variable {g : Graph} {columns : List Column}

/-! ### Looking for a position -/

/-- What is known while a target is looked for among what `p` depends on. -/
structure Seeks (g : Graph) (p target : Nat) (t : Traversal (List Bool)) : Prop where
  length : t.marked.length = g.size
  reached : ∀ q ∈ t.pending, TransGen g.Reads p q
  covers : g.Covers t.marked t.pending
  started : ∀ q ∈ g.dependencies p, wantedBy t.marked q ∨ q ∈ t.pending
  missed : ¬ wantedBy t.marked target

/-- At the start the dependencies are on the stack. -/
theorem seeks_start (g : Graph) (p target : Nat) :
    g.Seeks p target ⟨g.names.map fun _ => false, (g.linked.dependenciesAt p).reverse⟩ where
  length := List.length_map _
  reached _ hq := .single (List.mem_reverse.1 hq)
  covers q hq := absurd hq (not_wantedBy_map_false q)
  started _ hq := .inr (List.mem_reverse.2 hq)
  missed := not_wantedBy_map_false target

/-- **One turn** of the search keeps what is known. -/
theorem Seeks.turn (hg : g.Closed) {p target : Nat} {t t' : Traversal (List Bool)}
    (h : g.Seeks p target t) (hturn : (g.linked.seeking target).turn t = some t') :
    g.Seeks p target t' := by
  obtain ⟨included, pending⟩ := t
  replace hturn : g.linked.seekTurn target ⟨included, pending⟩ = some t' := hturn
  rw [seekTurn] at hturn
  split at hturn
  case isTrue => cases hturn
  case isFalse htop =>
    cases pending with
    | nil => cases hturn
    | cons q pending =>
        obtain ⟨hq, hpending⟩ := List.forall_mem_cons.1 h.reached
        have hlt : q < included.length := by
          obtain ⟨r, -, hrq⟩ := TransGen.tail'_iff.1 hq
          exact h.length ▸ hg r q hrq
        have hne : target ≠ q := fun heq => htop (congrArg some heq.symm)
        rw [gatherTurn] at hturn
        split at hturn
        case isTrue hunseen =>
          -- The position is marked, and all that it depends on is put on the stack.
          obtain rfl := Option.some.inj hturn
          have hmem : ∀ {r}, r ∈ (g.linked.dependenciesAt q).reverse ++ pending ↔
              r ∈ g.dependencies q ++ pending := fun {r} => by
            rw [List.mem_append, List.mem_reverse, dependenciesAt_linked, List.mem_append]
          refine ⟨List.length_set.trans h.length, fun r hr => ?_,
            fun r hr s hrs => (h.covers.add hlt r hr s hrs).imp_right hmem.2,
            fun r hr => ?_, fun hwanted => ?_⟩
          · rcases List.mem_append.1 (hmem.1 hr) with hr | hr
            · exact hq.tail hr
            · exact hpending r hr
          · rw [wantedBy_set hlt]
            rcases h.started r hr with hr | hr
            · exact .inl (.inr hr)
            · rcases List.mem_cons.1 hr with rfl | hr
              · exact .inl (.inl rfl)
              · exact .inr (List.mem_append_right _ hr)
          · exact ((wantedBy_set hlt).1 hwanted).elim hne h.missed
        case isFalse hseen =>
          obtain rfl := Option.some.inj hturn
          have hwanted := wantedBy_of_ne_some_false hlt hseen
          refine ⟨h.length, hpending, h.covers.skip hwanted, fun r hr => ?_, h.missed⟩
          rcases h.started r hr with hr | hr
          · exact .inl hr
          · rcases List.mem_cons.1 hr with rfl | hr
            · exact .inl hwanted
            · exact .inr hr

/-- **A whole search**: something is left on the stack exactly if a path leads to the
target. -/
theorem seeking_iff (hg : g.Closed) (p target : Nat) :
    (((g.linked.seeking target).run ⟨g.names.map fun _ => false,
      (g.linked.dependenciesAt p).reverse⟩).pending ≠ []) ↔ TransGen g.Reads p target := by
  have hend := (g.linked.seeking target).run_induction (fun _ _ ht => ht.turn hg)
    (g.seeks_start p target)
  have hlast := (g.linked.seeking target).turn_run
    ⟨g.names.map fun _ => false, (g.linked.dependenciesAt p).reverse⟩
  revert hend hlast
  generalize (g.linked.seeking target).run _ = t
  intro hend hlast
  obtain ⟨included, pending⟩ := t
  replace hlast : g.linked.seekTurn target ⟨included, pending⟩ = none := hlast
  rw [seekTurn] at hlast
  cases pending with
  | nil =>
      refine iff_of_false (fun hne => hne rfl) fun hpath => ?_
      -- Nothing is on the stack, so that all that is reached is marked; the target is not.
      obtain ⟨q, hq, hpath⟩ := TransGen.head'_iff.1 hpath
      have hwanted : wantedBy included q :=
        (hend.started q hq).resolve_right List.not_mem_nil
      rcases hend.covers.reaches hwanted hpath with htarget | ⟨r, hr, -⟩
      · exact hend.missed htarget
      · cases hr
  | cons q pending =>
      refine iff_of_true (List.cons_ne_nil q pending) ?_
      split at hlast
      case isTrue htop => exact Option.some.inj htop ▸ hend.reached q List.mem_cons_self
      case isFalse =>
        rw [gatherTurn] at hlast
        split at hlast <;> cases hlast

/-! ### Noting what depends on a position -/

/-- What is known while all that depends on `p` is noted: what is marked depends on it, and
what is marked and not on the stack has all its dependents marked. -/
structure Spreads (g : Graph) (p : Nat) (t : Traversal (List Nat)) : Prop where
  ascending : t.marked.Pairwise (· < ·)
  dependent : ∀ q ∈ t.marked, TransGen g.Reads q p
  noted : ∀ q ∈ t.pending, q = p ∨ q ∈ t.marked
  settled : ∀ q, q = p ∨ q ∈ t.marked → q ∈ t.pending ∨ ∀ r, g.Reads r q → r ∈ t.marked

/-- At the start nothing is marked, and the position is on the stack. -/
theorem spreads_start (g : Graph) (p : Nat) : g.Spreads p ⟨[], [p]⟩ where
  ascending := .nil
  dependent := List.forall_mem_nil _
  noted := List.forall_mem_singleton.2 (.inl rfl)
  settled _ hq := .inl (List.mem_singleton.2 (hq.resolve_right List.not_mem_nil))

/-- **One turn** keeps what is known. -/
theorem Spreads.turn (hg : g.Resolves columns) {p : Nat} (hp : p < g.size)
    {t t' : Traversal (List Nat)} (h : g.Spreads p t)
    (hturn : g.linked.spreading.turn t = some t') : g.Spreads p t' := by
  obtain ⟨seen, pending⟩ := t
  replace hturn : g.linked.spreadTurn ⟨seen, pending⟩ = some t' := hturn
  cases pending with
  | nil => cases hturn
  | cons q pending =>
      obtain rfl := Option.some.inj hturn
      obtain ⟨hq, hpending⟩ := List.forall_mem_cons.1 h.noted
      have hlt : q < g.size := by
        rcases hq with rfl | hq
        · exact hp
        · obtain ⟨r, hqr, -⟩ := TransGen.head'_iff.1 (h.dependent q hq)
          exact (hg.lt_of_mem_dependencies hqr).1
      have hmem : ∀ {r}, r ∈ g.linked.dependentsAt q ↔ g.Reads r q := fun {r} => by
        rw [dependentsAt_linked hlt, mem_dependents]
        exact and_iff_right_of_imp fun hrq => (hg.lt_of_mem_dependencies hrq).1
      refine ⟨pairwise_marked_foldl_note (t := ⟨seen, pending⟩) h.ascending _,
        fun r hr => ?_, fun r hr => ?_, fun r hr => ?_⟩
      · rcases mem_marked_foldl_note.1 hr with hr | hr
        · rcases hq with rfl | hq
          · exact .single (hmem.1 hr)
          · exact .head (hmem.1 hr) (h.dependent q hq)
        · exact h.dependent r hr
      · rw [mem_marked_foldl_note]
        rcases mem_pending_foldl_note.1 hr with hr | ⟨hr, -⟩
        · exact (hpending r hr).imp_right .inr
        · exact .inr (.inl hr)
      · rw [mem_pending_foldl_note]
        simp only [mem_marked_foldl_note] at hr ⊢
        have hold : r = p ∨ r ∈ seen →
            (r ∈ pending ∨ r ∈ g.linked.dependentsAt q ∧ r ∉ seen) ∨
            ∀ s, g.Reads s r → s ∈ g.linked.dependentsAt q ∨ s ∈ seen := by
          intro hr
          rcases h.settled r hr with hr | hr
          · rcases List.mem_cons.1 hr with rfl | hr
            · exact .inr fun s hs => .inl (hmem.2 hs)
            · exact .inl (.inl hr)
          · exact .inr fun s hs => .inr (hr s hs)
        rcases hr with hr | hr | hr
        · exact hold (.inl hr)
        · -- A dependent that is new is on the stack.
          by_cases hseen : r ∈ seen
          · exact hold (.inr hseen)
          · exact .inl (.inr ⟨hr, hseen⟩)
        · exact hold (.inr hr)

/-- **A whole run** marks what depends on the position, in ascending order. -/
theorem Describes.spreading_eq (h : g.Describes columns) {p : Nat} (hp : p < g.size) :
    (g.linked.spreading.run ⟨[], [p]⟩).marked = g.affected p := by
  have hend := g.linked.spreading.run_induction (fun _ _ ht => ht.turn h.toResolves hp)
    (g.spreads_start p)
  have hlast := g.linked.spreading.turn_run ⟨[], [p]⟩
  revert hend hlast
  generalize g.linked.spreading.run _ = t
  intro hend hlast
  obtain ⟨seen, pending⟩ := t
  cases pending with
  | cons => cases hlast
  | nil =>
      have hclosed : ∀ q, q = p ∨ q ∈ seen → ∀ r, g.Reads r q → r ∈ seen :=
        fun q hq => (hend.settled q hq).resolve_left List.not_mem_nil
      have hall : ∀ q, TransGen g.Reads q p → q ∈ seen := by
        intro q hq
        induction hq using TransGen.head_induction_on with
        | single hread => exact hclosed p (.inl rfl) _ hread
        | head hread _ ih => exact hclosed _ (.inr ih) _ hread
      refine hend.ascending.eq_of_mem_iff (List.pairwise_lt_range.filter _) fun q => ?_
      exact (⟨hend.dependent q, hall q⟩ : q ∈ seen ↔ _).trans h.mem_affected.symm

/-! ### By name -/

/-- A name is found at the position that has it. -/
theorem Resolves.position_eq_ok_iff (h : g.Resolves columns) {name : String} {p : Nat} :
    g.position name = .ok p ↔ p < g.size ∧ g.name p = name := by
  rw [h.position_eq_ok, h.size_eq]
  constructor
  · rintro ⟨c, hc, rfl⟩
    exact ⟨(List.getElem?_eq_some_iff.1 hc).1, h.name_eq hc⟩
  · rintro ⟨hp, hname⟩
    have hc := List.getElem?_eq_getElem hp
    exact ⟨columns[p], hc, (h.name_eq hc).symm.trans hname⟩

namespace Describes

variable (h : g.Describes columns)

include h

/-- The search for a position answers as the set of what is reached does. -/
theorem isDependentOn_linked (a b : String) :
    g.linked.isDependentOn a b = g.isDependentOn a b := by
  refine Bool.eq_iff_iff.2 ?_
  rw [h.isDependentOn_iff, LinkedGraph.isDependentOn, h.position_linked, h.position_linked]
  cases g.position a with
  | error e => exact iff_of_false Bool.false_ne_true fun ⟨p, _, hp, _⟩ => nomatch hp
  | ok p =>
      cases g.position b with
      | error e => exact iff_of_false Bool.false_ne_true fun ⟨_, q, _, hq, _⟩ => nomatch hq
      | ok q =>
          have hsearch := seeking_iff h.closed p q
          rw [Ne, ← List.isEmpty_iff, Bool.not_eq_true, ← Bool.not_eq_true'] at hsearch
          refine hsearch.trans ⟨fun hpath => ⟨p, q, rfl, rfl, hpath⟩, ?_⟩
          rintro ⟨_, _, hp, hq, hpath⟩
          cases hp
          cases hq
          exact hpath

/-- A column depends on another one exactly if a path of dependencies leads there. -/
theorem isDependentOn_iff_transGen {a b : String} :
    g.isDependentOn a b = true ↔ TransGen (DependsOn columns) a b := by
  rw [h.isDependentOn_iff]
  constructor
  · rintro ⟨p, q, hp, hq, hpath⟩
    obtain ⟨hlt, rfl⟩ := h.position_eq_ok_iff.1 hp
    obtain ⟨-, rfl⟩ := h.position_eq_ok_iff.1 hq
    exact (h.transGen_iff hlt).2 ⟨q, hpath, rfl⟩
  · intro hpath
    obtain ⟨-, ⟨c, hc, rfl, -⟩, -⟩ := TransGen.head'_iff.1 hpath
    obtain ⟨p, hp⟩ := List.mem_iff_getElem?.1 hc
    have hposition : g.position c.name = .ok p := h.position_eq_ok.2 ⟨c, hp, rfl⟩
    obtain ⟨hlt, hname⟩ := h.position_eq_ok_iff.1 hposition
    rw [← hname] at hpath
    obtain ⟨q, hpq, rfl⟩ := (h.transGen_iff hlt).1 hpath
    obtain ⟨r, -, hrq⟩ := TransGen.tail'_iff.1 hpq
    exact ⟨p, q, hposition,
      h.position_eq_ok_iff.2 ⟨(h.lt_of_mem_dependencies hrq).2, rfl⟩, hpq⟩

/-- What is noted from a position is what depends on it. -/
theorem transitiveDependents_linked (name : String) :
    g.linked.transitiveDependents name = g.transitiveDependents name := by
  rw [LinkedGraph.transitiveDependents, transitiveDependents, h.position_linked]
  cases hposition : g.position name with
  | error e => rfl
  | ok p =>
      have hp := (h.position_eq_ok_iff.1 hposition).1
      exact congrArg (fun ps => Except.ok (g.namesAt ps)) (h.spreading_eq hp)

/-- The columns that depend on a column are listed once each, in the order of their
positions. -/
theorem transitiveDependents_eq_filter {name : String}
    (hname : name ∈ columns.map (·.name)) :
    g.transitiveDependents name =
      .ok ((columns.map (·.name)).filter (g.isDependentOn · name)) := by
  have hp := h.idxOf_lt hname
  have hnameAt := h.name_idxOf hname
  revert hp hnameAt
  generalize (columns.map (·.name)).idxOf name = p
  intro hp hnameAt
  have haffected : g.affected p = g.positions.filter fun q =>
      g.isDependentOn (g.name q) name := by
    rw [affected]
    refine List.filter_congr fun q hq => Bool.eq_iff_iff.2 ?_
    have hlt := List.mem_range.1 hq
    have hmem : q ∈ g.affected p ↔ _ := h.mem_affected
    rw [affected, List.mem_filter, and_iff_right hq] at hmem
    rw [hmem, h.isDependentOn_iff_transGen, h.transGen_iff hlt]
    constructor
    · exact fun hpath => ⟨p, hpath, hnameAt⟩
    · rintro ⟨r, hpath, hr⟩
      obtain ⟨s, -, hsr⟩ := TransGen.tail'_iff.1 hpath
      rwa [← h.name_inj (h.lt_of_mem_dependencies hsr).2 hp (hr.trans hnameAt.symm)]
  have hposition : g.position name = .ok p := h.position_eq_ok_iff.2 ⟨hp, hnameAt⟩
  rw [transitiveDependents, hposition, ← h.namesAt_positions, namesAt, List.filter_map]
  exact congrArg (fun ps => Except.ok (g.namesAt ps)) haffected

/-- What a column is evaluated with is itself and what it depends on. -/
theorem exists_evaluationOrderFor_eq {name : String} (hname : name ∈ columns.map (·.name)) :
    ∃ order, g.evaluationOrderFor name = .ok order ∧ order.Nodup ∧
      ∀ other, g.isDependentOn name other = true ↔ other ≠ name ∧ other ∈ order := by
  obtain ⟨needed, hneeded, hfor, -⟩ := h.exists_needed hname
  have horder := h.isOrder_evaluationOrder.perm
  refine ⟨_, hfor, (horder.nodup_iff.2 h.nodup).filter _, fun other => ?_⟩
  rw [h.isDependentOn_iff_transGen, List.mem_filter, hneeded, horder.mem_iff]
  constructor
  · intro hpath
    have hne : other ≠ name := by
      rintro rfl
      obtain ⟨p, hloop⟩ := h.exists_loop_iff_name.1 ⟨other, hpath⟩
      exact h.not_transGen_self p hloop
    obtain ⟨_, -, ⟨c, hc, -, hdep⟩⟩ := TransGen.tail'_iff.1 hpath
    exact ⟨hne, h.named c hc other hdep, .inr hpath⟩
  · rintro ⟨hne, -, heq | hpath⟩
    · exact absurd heq hne
    · exact hpath

end Describes

end Graph

/-! ### Agreement -/

/-- What the traversals of a graph say of its columns. -/
structure Graph.Traversed (g : Graph) (columns : List Column) : Prop where
  /-- No name is there twice. -/
  distinct : (columns.map (·.name)).Nodup
  /-- A column depends on another one if there is a path of direct dependencies. -/
  dependent : ∀ a b, g.linked.isDependentOn a b = true ↔ TransGen (DependsOn columns) a b
  /-- Then it is one of the columns that depend on that one, in the order of their
  positions, -/
  dependents : ∀ b ∈ columns.map (·.name),
    g.linked.transitiveDependents b =
      .ok ((columns.map (·.name)).filter (g.linked.isDependentOn · b))
  /-- and that one is another one of those that the column is evaluated with. -/
  evaluated : ∀ a ∈ columns.map (·.name), ∃ order,
    g.linked.evaluationOrderFor a = .ok order ∧ order.Nodup ∧
    ∀ b, g.linked.isDependentOn a b = true ↔ b ≠ a ∧ b ∈ order
  irreflexive : ∀ a, ¬ g.linked.isDependentOn a a
  transitive : ∀ a b c, g.linked.isDependentOn a b → g.linked.isDependentOn b c →
    g.linked.isDependentOn a c
  /-- The three loops come to an end, whatever is marked and on the stack. -/
  seeks : ∀ target t, (g.linked.seeking target).Ends t
  spreads : ∀ t, g.linked.spreading.Ends t
  gathers : ∀ t, g.linked.gathering.Ends t ∧
    g.linked.gather t.marked t.pending = (g.linked.gathering.run t).marked
  /-- Sets of what is reached, found in rounds, give the same answers. -/
  same : (∀ a b, g.linked.isDependentOn a b = g.isDependentOn a b) ∧
    (∀ a, g.linked.transitiveDependents a = g.transitiveDependents a) ∧
    ∀ a, g.linked.evaluationOrderFor a = g.evaluationOrderFor a

/-- **The traversals agree** with the paths of dependencies, and so with each other, and
they come to an end. -/
theorem Graph.traversals_agree {columns : List Column} {g : Graph}
    (h : Graph.build columns = .ok g) :
    LinkedGraph.build columns = .ok g.linked ∧ g.Traversed columns := by
  have hg := build_eq_ok.1 h
  have hpath : ∀ a b, g.linked.isDependentOn a b = true ↔
      TransGen (DependsOn columns) a b := by
    intro a b
    rw [hg.isDependentOn_linked, hg.isDependentOn_iff_transGen]
  refine ⟨by rw [LinkedGraph.build_eq, h]; rfl, ?_⟩
  exact {
    distinct := hg.nodup
    dependent := hpath
    dependents := fun b hb => by
      simp only [hg.transitiveDependents_linked, hg.isDependentOn_linked]
      exact hg.transitiveDependents_eq_filter hb
    evaluated := fun a ha => by
      simp only [hg.evaluationOrderFor_linked, hg.isDependentOn_linked]
      exact hg.exists_evaluationOrderFor_eq ha
    irreflexive := fun a hloop => by
      obtain ⟨p, hloop⟩ := hg.exists_loop_iff_name.1 ⟨a, (hpath a a).1 hloop⟩
      exact hg.not_transGen_self p hloop
    transitive := fun a b c hab hbc =>
      (hpath a c).2 (((hpath a b).1 hab).trans ((hpath b c).1 hbc))
    seeks := fun target t => (g.linked.seeking target).ends t
    spreads := g.linked.spreading.ends
    gathers := fun t => ⟨g.linked.gathering.ends t, gather_eq g.linked t.marked t.pending⟩
    same := ⟨hg.isDependentOn_linked, hg.transitiveDependents_linked,
      hg.evaluationOrderFor_linked⟩ }

/-- The first column of four is read by all others, by one of them through another one. -/
theorem Graph.traversals_agree_backward : Graph.build Columns.backward = .ok backward ∧
    backward.Traversed Columns.backward ∧
    backward.linked.transitiveDependents "a" = .ok ["b", "c", "d"] ∧
      backward.linked.isDependentOn "b" "a" ∧ ¬ backward.linked.isDependentOn "c" "d" := by
  have hg : Graph.build Columns.backward = .ok backward := rfl
  have h := (traversals_agree hg).2
  have hdependents : backward.transitiveDependents "a" = .ok ["b", "c", "d"] := rfl
  have hdependent : backward.isDependentOn "b" "a" := by decide
  have hapart : ¬ backward.isDependentOn "c" "d" := by decide
  obtain ⟨hsame, hsameDependents, -⟩ := h.same
  exact ⟨hg, h, (hsameDependents "a").trans hdependents, (hsame "b" "a").trans hdependent,
    (hsame "c" "d") ▸ hapart⟩

end FormulaTable
