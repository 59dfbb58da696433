import FormulaTable.Proofs.Dependency.Transport
import FormulaTable.Proofs.Table.Structure

/-!
# Tables that correspond

Two tables over the same source correspond in some columns if these columns, with the
results that are kept for them, stand in the second table in the same order, perhaps at
other positions, and read none but columns that correspond too. Such a column is read alike
in both tables: the same columns are evaluated in the same order, with the same results or
the same failure, and the tables still correspond afterwards. Nothing has to be known of the
source; it may fail, or change when it is read.

* `Corresponds.embeds` — the graphs of tables that correspond.
* `Corresponds.matches_materializeAt`, `Corresponds.matches_readCell` — reads of columns
  that correspond.
-/

namespace FormulaTable

namespace Access

variable {σ α β : Type}

/-- Two actions come to the same result, and leave tables that are related. -/
def Matches (R : σ → σ → Prop) (r r' : Except Error α × σ) : Prop := r'.1 = r.1 ∧ R r.2 r'.2

variable {R : σ → σ → Prop} {t t' : σ}

/-- One action after another: the second ones start on related tables with the same
result. -/
theorem Matches.bind {x x' : Access σ α} {f f' : α → Access σ β}
    (hx : Matches R (x.on t) (x'.on t'))
    (hf : ∀ a s s', R s s' → Matches R ((f a).on s) ((f' a).on s')) :
    Matches R ((x >>= f).on t) ((x' >>= f').on t') := by
  rw [on_bind, on_bind]
  cases hon : x.on t with
  | mk r s =>
      cases hon' : x'.on t' with
      | mk r' s' =>
          rw [hon, hon'] at hx
          obtain ⟨hr, hs⟩ := hx
          obtain rfl : r' = r := hr
          cases r' with
          | error e => exact ⟨rfl, hs⟩
          | ok a => exact hf a s s' hs

/-- Steps that match go on to match after the same result. -/
theorem matches_ofExcept_bind {r : Except Error α} {f f' : α → Access σ β} (h : R t t')
    (hf : ∀ a, r = .ok a → Matches R ((f a).on t) ((f' a).on t')) :
    Matches R ((ofExcept r >>= f).on t) ((ofExcept r >>= f').on t') := by
  cases hr : r with
  | error e => exact ⟨rfl, h⟩
  | ok a => exact hf a hr

/-- An action for every member of a list. -/
theorem matches_mapM {γ : Type} {f : α → Access σ β} {f' : γ → Access σ β} {g : α → γ}
    {as : List α}
    (hf : ∀ a ∈ as, ∀ s s', R s s' → Matches R ((f a).on s) ((f' (g a)).on s'))
    (h : R t t') :
    Matches R ((as.mapM f).on t) (((as.map g).mapM f').on t') := by
  induction as generalizing t t' with
  | nil => exact ⟨rfl, h⟩
  | cons a as ih =>
      rw [List.map_cons, List.mapM_cons, List.mapM_cons]
      refine Matches.bind (hf a List.mem_cons_self t t' h) fun b s s' hs => ?_
      refine Matches.bind (ih (fun a' ha' => hf a' (List.mem_cons_of_mem a ha')) hs)
        fun bs s s' hs => ?_
      exact ⟨rfl, hs⟩

end Access

namespace ComputedTable

open Access

variable {σ : Type}

/-- The columns at positions `U` of a table with the given columns correspond to columns of
another table, with their results. -/
structure Corresponds (f : Nat → Nat) (U : Nat → Prop) (columns : List Column)
    (t t' : ComputedTable σ) :
    Prop where
  columns_eq : t.columns = columns
  source_eq : t'.source = t.source
  describes : t.graph.Describes t.columns
  describes' : t'.graph.Describes t'.columns
  lt_length : ∀ p, U p → p < t.slots.length
  slot?_eq : ∀ p, U p → t'.slot? (f p) = t.slot? p
  lt_iff : ∀ p q, U p → U q → (f p < f q ↔ p < q)
  closed : ∀ p, U p → ∀ q ∈ t.graph.dependencies p, U q

namespace Corresponds

variable {f : Nat → Nat} {U : Nat → Prop} {columns : List Column} {t t' : ComputedTable σ}
  (h : t.Corresponds f U columns t')

include h

/-- The slot at a position is the one at the position that it corresponds to. -/
theorem exists_slot? {p : Nat} (hp : U p) :
    ∃ slot, t.slot? p = some slot ∧ t'.slot? (f p) = some slot := by
  obtain ⟨slot, hslot⟩ : ∃ slot, t.slot? p = some slot :=
    ⟨_, List.getElem?_eq_getElem (h.lt_length p hp)⟩
  exact ⟨slot, hslot, (h.slot?_eq p hp).trans hslot⟩

/-- The same results are kept at positions that correspond. -/
theorem cached?_eq {p : Nat} (hp : U p) : t'.cached? (f p) = t.cached? p := by
  rw [cached?, cached?, h.slot?_eq p hp]

/-- Positions that correspond have one name. -/
theorem name_eq {p : Nat} (hp : U p) : t'.graph.name (f p) = t.graph.name p := by
  obtain ⟨slot, hslot, hslot'⟩ := h.exists_slot? hp
  rw [h.describes.name_eq (columns_getElem?_of_slot? hslot),
    h.describes'.name_eq (columns_getElem?_of_slot? hslot')]

/-- Positions that correspond have one column. -/
theorem columns_getElem?_eq {p : Nat} (hp : U p) : t'.columns[f p]? = t.columns[p]? := by
  rw [columns_getElem?, columns_getElem?, h.slot?_eq p hp]

/-- A column that corresponds is known by its name in both tables. -/
theorem position_eq_ok {p : Nat} (hp : U p) {name : String}
    (hname : t.position name = .ok p) :
    t'.position name = .ok (f p) := by
  obtain ⟨c, hc, rfl⟩ := h.describes.position_eq_ok.1 hname
  exact h.describes'.position_eq_ok.2 ⟨c, (h.columns_getElem?_eq hp).trans hc, rfl⟩

/-- The slots under the name of a position are the same. -/
theorem slotNamed_eq {p : Nat} (hp : U p) {name : String}
    (hname : t.position name = .ok p) :
    t'.slotNamed name = t.slotNamed name := by
  obtain ⟨slot, hslot, hslot'⟩ := h.exists_slot? hp
  rw [slotNamed_eq_ok.2 ⟨p, hname, hslot⟩,
    slotNamed_eq_ok.2 ⟨f p, h.position_eq_ok hp hname, hslot'⟩]

/-- Columns that correspond are read by each other. -/
theorem mem_dependencies {p q : Nat} (hp : U p) :
    q ∈ t'.graph.dependencies (f p) ↔ ∃ r ∈ t.graph.dependencies p, f r = q := by
  obtain ⟨slot, hslot, hslot'⟩ := h.exists_slot? hp
  have hc := columns_getElem?_of_slot? hslot
  rw [h.describes'.mem_dependencies (columns_getElem?_of_slot? hslot')]
  constructor
  · rintro ⟨d, hd, hdep⟩
    obtain ⟨r, e, he, hname, hr⟩ := h.describes.exists_of_mem_dependencies hc hdep
    refine ⟨r, hr, h.describes'.eq_of_name_eq ?_ hd hname⟩
    rw [h.columns_getElem?_eq (h.closed p hp r hr), he]
  · rintro ⟨r, hr, rfl⟩
    obtain ⟨d, hd, hdep⟩ := (h.describes.mem_dependencies hc).1 hr
    exact ⟨d, (h.columns_getElem?_eq (h.closed p hp r hr)).trans hd, hdep⟩

/-- **The graphs of tables that correspond.** -/
theorem embeds : t.graph.Embeds f U t'.graph where
  lt_iff := h.lt_iff
  lt_size p hp := by
    obtain ⟨slot, hslot, hslot'⟩ := h.exists_slot? hp
    rw [h.describes.size_eq, h.describes'.size_eq, t.length_columns, t'.length_columns]
    exact ⟨(List.getElem?_eq_some_iff.1 hslot).1, (List.getElem?_eq_some_iff.1 hslot').1⟩
  closed := h.closed
  mem_dependencies _ hp _ := h.mem_dependencies hp

/-- What has to be evaluated for a position corresponds, in order. -/
theorem orderFor_eq {p : Nat} (hp : U p) :
    t'.graph.orderFor (f p) = (t.graph.orderFor p).map f :=
  h.embeds.orderFor_eq h.describes h.describes' hp

/-- What has to be evaluated for a position is among the positions that correspond. -/
theorem forall_mem_orderFor {p : Nat} (hp : U p) : ∀ q ∈ t.graph.orderFor p, U q := by
  intro q hq
  rw [h.describes.mem_orderFor (h.embeds.lt_size p hp).1] at hq
  induction hq with
  | refl => exact hp
  | tail _ hstep ih => exact h.closed _ ih _ hstep

/-! ### Changes of both tables -/

/-- The same columns and results, over another source. -/
theorem withSource (s : σ) :
    Corresponds f U columns { t with source := s } { t' with source := s } where
  columns_eq := h.columns_eq
  source_eq := rfl
  describes := h.describes
  describes' := h.describes'
  lt_length := h.lt_length
  slot?_eq := h.slot?_eq
  lt_iff := h.lt_iff
  closed := h.closed

/-- Counting an evaluation leaves tables in correspondence. -/
theorem countEvaluation : t.countEvaluation.Corresponds f U columns t'.countEvaluation :=
  { h with }

/-- Counting a hit leaves tables in correspondence. -/
theorem countHit : t.countHit.Corresponds f U columns t'.countHit := { h with }

/-- A result that is kept for a column is kept in both tables. -/
theorem keep {p : Nat} (hp : U p) (e : Evaluated) :
    (t.keep p e).Corresponds f U columns (t'.keep (f p) e) where
  columns_eq := (columns_keep t p e).trans h.columns_eq
  source_eq := h.source_eq
  describes := by
    rw [columns_keep]
    exact h.describes
  describes' := by
    rw [columns_keep]
    exact h.describes'
  lt_length q hq := by
    rw [ComputedTable.keep, List.length_modify]
    exact h.lt_length q hq
  slot?_eq q hq := by
    have hpq : f p = f q ↔ p = q := ⟨h.embeds.eq_of_eq hp hq, fun hpq => hpq ▸ rfl⟩
    simp only [keep_slot?, h.slot?_eq q hq, hpq]
  lt_iff := h.lt_iff
  closed := h.closed

/-- The source is the same, so that reading it comes to the same. -/
theorem matches_onSource {α : Type} (x : Access σ α) :
    Matches (Corresponds f U columns) ((onSource x).on t) ((onSource x).on t') := by
  have hsource : (onSource x).on t' =
      ((x.on t.source).1, { t' with source := (x.on t.source).2 }) := by
    rw [onSource, on_onPart, h.source_eq]
  rw [hsource]
  exact ⟨rfl, h.withSource _⟩

/-! ### Evaluation -/

/-- An input is read in the same place. -/
theorem origin_eq {p : Nat} (hp : U p) {c : Column} (hc : columns[p]? = some c)
    {x : Computation} (hx : c.computation? = some x) {input : String}
    (hinput : input ∈ x.inputs) :
    t'.origin c input = t.origin c input := by
  rw [origin, origin]
  split
  case h_1 => rfl
  case h_2 hown =>
    rw [← h.columns_eq] at hc
    have hdep := Column.mem_dependencies_of_input hx hinput hown
    obtain ⟨q, d, hd, hname, hq⟩ := h.describes.exists_of_mem_dependencies hc hdep
    rw [h.slotNamed_eq (h.closed p hp q hq) (h.describes.position_eq_ok.2 ⟨d, hd, hname⟩)]

variable [Tabular σ]

/-- Inputs that correspond are read alike. -/
theorem matches_readInput {p : Nat} (hp : U p) {c : Column} (hc : columns[p]? = some c)
    {x : Computation} (hx : c.computation? = some x) {input : String}
    (hinput : input ∈ x.inputs) :
    Matches (Corresponds f U columns) ((readInput c input).on t)
      ((readInput c input).on t') := by
  rw [readInput, on_get_bind, on_get_bind, h.origin_eq hp hc hx hinput]
  refine matches_ofExcept_bind h fun o _ => ?_
  cases o with
  | source i => exact h.matches_onSource _
  | kept s => exact ⟨rfl, h⟩

/-- Columns that correspond are evaluated alike. -/
theorem matches_evaluateColumn {p : Nat} (hp : U p) {c : Column}
    (hc : columns[p]? = some c) :
    Matches (Corresponds f U columns) ((evaluateColumn c).on t)
      ((evaluateColumn c).on t') := by
  rw [evaluateColumn]
  cases hx : c.computation? with
  | none => exact ⟨rfl, h⟩
  | some x =>
      have hinputs : Matches (Corresponds f U columns) ((x.inputs.mapM (readInput c)).on t)
          ((x.inputs.mapM (readInput c)).on t') := by
        have hmap := matches_mapM (g := id) (fun input hinput s s' hs =>
          Corresponds.matches_readInput hs hp hc hx hinput) h
        rwa [List.map_id] at hmap
      refine hinputs.bind fun inputs s s' hs => ?_
      show Matches _ ((ofExcept (x.evaluateRows inputs (Tabular.rowCount s.source))).on
          s.countEvaluation)
        ((ofExcept (x.evaluateRows inputs (Tabular.rowCount s'.source))).on
            s'.countEvaluation)
      rw [hs.source_eq]
      exact ⟨rfl, hs.countEvaluation⟩

/-- A column that is evaluated is evaluated in both tables. -/
theorem matches_fill {p : Nat} (hp : U p) :
    Matches (Corresponds f U columns) ((fill p).on t) ((fill (f p)).on t') := by
  obtain ⟨slot, hslot, hslot'⟩ := h.exists_slot? hp
  have hc : columns[p]? = some slot.column := h.columns_eq ▸ columns_getElem?_of_slot? hslot
  rw [fill, fill, on_get_bind, on_get_bind, hslot, hslot']
  show Matches _
    ((if slot.column.isComputed && slot.cached.isNone then _ else _ : Access _ _).on t)
    ((if slot.column.isComputed && slot.cached.isNone then _ else _ : Access _ _).on t')
  split
  case isFalse => exact ⟨rfl, h⟩
  case isTrue =>
    refine (h.matches_evaluateColumn hp hc).bind fun e s s' hs => ?_
    exact ⟨rfl, hs.keep hp e⟩

/-- Positions that correspond are filled alike. -/
theorem matches_fillAll {ps : List Nat} (hps : ∀ p ∈ ps, U p) :
    Matches (Corresponds f U columns) ((fillAll ps).on t) ((fillAll (ps.map f)).on t') := by
  have hfill := matches_mapM (fun p hp s s' hs => Corresponds.matches_fill hs (hps p hp)) h
  exact hfill.bind fun _ s s' hs => ⟨rfl, hs⟩

/-- **A column that corresponds is evaluated alike**, with all it needs. -/
theorem matches_materializeAt {p : Nat} (hp : U p) :
    Matches (Corresponds f U columns) ((materializeAt p).on t)
      ((materializeAt (f p)).on t') := by
  rw [materializeAt, materializeAt, on_get_bind, on_get_bind, h.cached?_eq hp]
  cases t.cached? p with
  | some e => exact ⟨rfl, h.countHit⟩
  | none =>
      show Matches _ ((get >>= _ : Access _ _).on t) ((get >>= _ : Access _ _).on t')
      rw [on_get_bind, on_get_bind, h.orderFor_eq hp]
      refine (h.matches_fillAll (h.forall_mem_orderFor hp)).bind fun _ s s' hs => ?_
      rw [on_get_bind, on_get_bind, hs.cached?_eq hp]
      cases s.cached? p with
      | some e => exact ⟨rfl, hs⟩
      | none =>
          show Matches _ ((get >>= _ : Access _ _).on s) ((get >>= _ : Access _ _).on s')
          rw [on_get_bind, on_get_bind, hs.name_eq hp]
          exact ⟨rfl, hs⟩

/-! ### Reads -/

/-- **A cell of a column that corresponds** is read alike in both tables. -/
theorem matches_readCell (row : Nat) {p : Nat} (hp : U p) :
    Matches (Corresponds f U columns) ((readCell row p).on t)
      ((readCell row (f p)).on t') := by
  obtain ⟨slot, hslot, hslot'⟩ := h.exists_slot? hp
  have hrows : Tabular.rowCount t'.source = Tabular.rowCount t.source :=
    congrArg Tabular.rowCount h.source_eq
  rcases Nat.lt_or_ge row (Tabular.rowCount t.source) with hrow | hrow
  · have hrow' := hrows ▸ hrow
    rcases slot.column.stored_or_isComputed with ⟨i, hcontent⟩ | hcomputed
    · rw [on_readCell_of_stored hrow hslot hcontent,
        on_readCell_of_stored hrow' hslot' hcontent]
      exact h.matches_onSource _
    · cases hcached : slot.cached with
      | some e =>
          rw [on_readCell_of_cached hrow hslot hcomputed hcached,
            on_readCell_of_cached hrow' hslot' hcomputed hcached]
          exact ⟨rfl, h.countHit⟩
      | none =>
          rw [on_readCell_of_open hrow hslot hcomputed hcached,
            on_readCell_of_open hrow' hslot' hcomputed hcached]
          exact (h.matches_materializeAt hp).bind fun _ s s' hs => ⟨rfl, hs⟩
  · rw [on_readCell_of_row_le hrow, on_readCell_of_row_le (hrows.symm ▸ hrow), hrows]
    exact ⟨rfl, h⟩

end Corresponds

end ComputedTable

end FormulaTable
