import FormulaTable.Proofs.Table.Progress

/-!
# Which columns are evaluated

A column whose result is asked for is evaluated with all columns that it depends on,
directly or through others, as far as they are open: computed, and without a result. Each of
them is evaluated once, when the columns that it reads are known, and nothing else is. The
positions that are gone through are fixed before the first evaluation, and each is tested
when its turn comes; but an evaluation closes no other position, so that those which are
open at the beginning are those which are evaluated.

* `Evaluates` — columns are evaluated one after the other; `EvaluatesExactly` says which
  ones.
* `exists_on_fill`, `exists_on_mapM_fill` — at one position, and at several in order, what
  is open is evaluated.
* `exists_on_materializeAt`, `exists_on_materializeAll` — what is evaluated for one column,
  and for all.
-/

namespace FormulaTable

/-- The column is computed, and no result is kept for it. -/
def Slot.isOpen (slot : Slot) : Bool := slot.column.isComputed && slot.cached.isNone

/-- A slot is open if its column is computed and nothing is kept for it. -/
theorem Slot.isOpen_iff {slot : Slot} :
    slot.isOpen ↔ slot.column.isComputed ∧ slot.cached = none := by
  rw [isOpen, Bool.and_eq_true, Option.isNone_iff_eq_none]

/-- A slot shows what is stored, has a result, or is open. -/
theorem Slot.stored_or_cached_or_isOpen (slot : Slot) :
    (∃ i, slot.column.content = .stored i slot.column.kind) ∨
      (slot.column.isComputed ∧ ∃ e, slot.cached = some e) ∨ slot.isOpen := by
  rcases slot.column.stored_or_isComputed with hstored | hcomputed
  · exact .inl hstored
  · cases hcached : slot.cached with
    | some e => exact .inr (.inl ⟨hcomputed, e, rfl⟩)
    | none => exact .inr (.inr (isOpen_iff.2 ⟨hcomputed, hcached⟩))

namespace ComputedTable

open Access

variable {σ : Type} {t t' : ComputedTable σ}

/-- The column at a position is computed, and no result is kept for it. -/
def isOpen (t : ComputedTable σ) (p : Nat) : Bool := (t.slot? p).any (·.isOpen)

/-- A position is open if its slot is. -/
theorem isOpen_of_slot? {p : Nat} {slot : Slot} (hslot : t.slot? p = some slot)
    (h : slot.isOpen) :
    t.isOpen p := by
  rw [isOpen, hslot]
  exact h

/-- An open position has an open slot. -/
theorem exists_slot?_of_isOpen {p : Nat} (h : t.isOpen p) :
    ∃ slot, t.slot? p = some slot ∧ slot.isOpen :=
  (Option.any_eq_true _ _).1 h

/-- A computed column is open if nothing is kept for it. -/
theorem isOpen_of_cached? {p : Nat} {c : Column} (hc : t.columns[p]? = some c)
    (hcomputed : c.isComputed) (hcached : t.cached? p = none) : t.isOpen p := by
  rw [columns_getElem?] at hc
  obtain ⟨slot, hslot, rfl⟩ := Option.map_eq_some_iff.1 hc
  rw [cached?, hslot] at hcached
  exact isOpen_of_slot? hslot (Slot.isOpen_iff.2 ⟨hcomputed, hcached⟩)

/-- What is open depends on the slots alone. -/
theorem isOpen_eq_of_slots_eq (h : t'.slots = t.slots) (p : Nat) :
    t'.isOpen p = t.isOpen p := by
  rw [isOpen, isOpen, slot?, slot?, h]

/-- A result that is kept at a position closes no other one. -/
theorem isOpen_keep {p q : Nat} (hpq : p ≠ q) (e : Evaluated) :
    (t.keep p e).isOpen q = t.isOpen q := by
  rw [isOpen, isOpen, keep_slot?]
  cases t.slot? q with
  | none => rfl
  | some slot => simp only [Option.map_some, if_neg hpq]

/-- What is known is not open. -/
theorem Filled.isOpen_eq_false {ps : List Nat} (h : t.Filled ps) {p : Nat} (hp : p ∈ ps) :
    t.isOpen p = false := by
  by_contra hopen
  obtain ⟨slot, hslot, hopen⟩ := exists_slot?_of_isOpen (Bool.eq_true_of_not_eq_false hopen)
  obtain ⟨hcomputed, hnone⟩ := Slot.isOpen_iff.1 hopen
  have hsome := h p hp slot hslot hcomputed
  rw [hnone] at hsome
  cases hsome

variable [Tabular σ]

/-- Columns are evaluated one after the other, and their results are kept: each is open when
its turn comes, and the computed columns that it depends on are known. -/
inductive Evaluates : ComputedTable σ → List Nat → ComputedTable σ → Prop
  | nil (t : ComputedTable σ) : Evaluates t [] t
  | cons {t t₁ t' : ComputedTable σ} {p : Nat} {ps : List Nat} {slot : Slot} {e : Evaluated}
      (hslot : t.slot? p = some slot) (hopen : slot.isOpen)
        (hdeps : t.Filled (t.graph.dependencies p))
      (hon : (evaluateColumn slot.column).on t = (.ok e, t₁))
          (hrest : Evaluates (t₁.keep p e) ps t') :
      Evaluates t (p :: ps) t'

/-- Exactly the wanted columns that are open are evaluated, each one once. -/
def EvaluatesExactly (wanted : Nat → Prop) (t t' : ComputedTable σ) : Prop :=
  ∃ ps : List Nat, ps.Nodup ∧ (∀ p, p ∈ ps ↔ wanted p ∧ t.isOpen p) ∧ t.Evaluates ps t' ∧
    t'.evaluations = t.evaluations + ps.length

/-- What is not open does not matter to what is wanted. -/
theorem EvaluatesExactly.congr {wanted wanted' : Nat → Prop}
    (h : EvaluatesExactly wanted t t')
    (hwanted : ∀ p, t.isOpen p → (wanted p ↔ wanted' p)) :
    EvaluatesExactly wanted' t t' := by
  obtain ⟨ps, hnodup, hps, hevaluates⟩ := h
  exact ⟨ps, hnodup, fun p => (hps p).trans (and_congr_left (hwanted p)), hevaluates⟩

/-! ### Single evaluations -/

/-- Reading an input may change the source, and nothing else. -/
theorem keeps_readInput_source (t₀ : ComputedTable σ) (reader : Column) (input : String) :
    Keeps (fun t : ComputedTable σ => ∃ s, t = { t₀ with source := s })
      (readInput reader input)
      fun _ => True := by
  refine keeps_get.bind fun t _ => ?_
  refine (keeps_ofExcept (Q := fun _ => True) fun _ _ => trivial).bind fun o _ => ?_
  cases o with
  | source i =>
      rintro _ ⟨s, rfl⟩
      exact ⟨⟨_, rfl⟩, fun _ _ => trivial⟩
  | kept s => exact keeps_pure trivial

/-- An evaluation is counted, and changes no column and no result. -/
theorem exists_eq_of_on_evaluateColumn {c : Column} {e : Evaluated} {t₁ : ComputedTable σ}
    (h : (evaluateColumn c).on t = (.ok e, t₁)) :
    ∃ s, t₁ = { t.countEvaluation with source := s } := by
  rw [evaluateColumn] at h
  cases hx : c.computation? with
  | none =>
      rw [hx] at h
      cases h
  | some x =>
      have hread := Keeps.mapM
        (fun input (_ : input ∈ x.inputs) => keeps_readInput_source t c input) t ⟨_, rfl⟩
      rw [hx] at h
      simp only [on_bind] at h
      cases hinputs : (x.inputs.mapM (readInput c)).on t with
      | mk r t₂ =>
          rw [hinputs] at h hread
          cases r with
          | error err => cases h
          | ok inputs =>
              obtain ⟨⟨s, hs⟩, -⟩ := hread
              obtain rfl : t₂ = { t with source := s } := hs
              exact ⟨s, (Prod.ext_iff.1 h).2.symm⟩

/-- Each evaluation is counted once. -/
theorem Evaluates.evaluations_eq {ps : List Nat} (h : t.Evaluates ps t') :
    t'.evaluations = t.evaluations + ps.length := by
  induction h with
  | nil => rfl
  | @cons t t₁ t' p ps slot e hslot hopen hdeps hon hrest ih =>
      obtain ⟨s, rfl⟩ := exists_eq_of_on_evaluateColumn hon
      rw [ih, List.length_cons]
      show t.evaluations + 1 + ps.length = _
      omega

/-- Evaluations one after another add up. -/
theorem Evaluates.trans {t'' : ComputedTable σ} {ps qs : List Nat} (h : t.Evaluates ps t')
    (h' : t'.Evaluates qs t'') : t.Evaluates (ps ++ qs) t'' := by
  induction h with
  | nil => exact h'
  | cons hslot hopen hdeps hon _ ih => exact .cons hslot hopen hdeps hon (ih h')

/-- Where no wanted column is open nothing is evaluated. -/
theorem EvaluatesExactly.eq_of_forall_not {wanted : Nat → Prop}
    (h : EvaluatesExactly wanted t t') (hwanted : ∀ p, wanted p → t.isOpen p = false) :
    t' = t := by
  obtain ⟨ps, -, hps, hevaluates, -⟩ := h
  obtain rfl : ps = [] := by
    refine List.eq_nil_iff_forall_not_mem.2 fun p hp => ?_
    obtain ⟨hp, hopen⟩ := (hps p).1 hp
    rw [hwanted p hp] at hopen
    cases hopen
  cases hevaluates
  rfl

/-- Filling does nothing at a position that is not open. -/
theorem on_fill_of_not_isOpen {p : Nat} (h : t.isOpen p = false) :
    (fill p).on t = (.ok false, t) := by
  rw [fill, on_get_bind]
  cases hslot : t.slot? p with
  | none => rfl
  | some slot =>
      rw [isOpen, hslot] at h
      show (if slot.isOpen then _ else _ : Access (ComputedTable σ) Bool).on t = _
      rw [if_neg (by rw [show slot.isOpen = false from h]; exact Bool.false_ne_true)]
      rfl

/-- Filling an open position keeps the result of its column. -/
theorem on_fill_of_isOpen {p : Nat} {slot : Slot} (hslot : t.slot? p = some slot)
    (hopen : slot.isOpen) {e : Evaluated} {t₁ : ComputedTable σ}
    (hon : (evaluateColumn slot.column).on t = (.ok e, t₁)) :
    (fill p).on t = (.ok true, t₁.keep p e) := by
  rw [fill, on_get_bind, hslot]
  show (if slot.isOpen then _ else _ : Access (ComputedTable σ) Bool).on t = _
  rw [if_pos hopen, on_bind_ok hon]
  rfl

/-! ### Columns in order -/

section

variable {P : σ → Prop} {v : View} {columns : List Column} {g : Graph} (hP : Shows P v)
  (hv : v.Complete)
  (hg : g.Describes columns)

include hP hv hg

/-- A column whose inputs are known is evaluated if it is open, and no other one is. -/
theorem exists_on_fill {placed : List Nat} {p : Nat} (hdeps : g.dependencies p ⊆ placed)
    (ht : t.ReadyWith P v columns placed) :
    ∃ t₁, (fill p).on t = (.ok (t.isOpen p), t₁) ∧ t.Evaluates ([p].filter t.isOpen) t₁ ∧
      t₁.ReadyWith P v columns (placed ++ [p]) ∧ ∀ q, p ≠ q → t₁.isOpen q = t.isOpen q := by
  obtain ⟨-, -, hready⟩ := ensures_fill hP hv hg hdeps t ht
  rw [List.filter_singleton]
  cases hopen : t.isOpen p with
  | false =>
      rw [on_fill_of_not_isOpen hopen] at hready
      exact ⟨t, on_fill_of_not_isOpen hopen, .nil t, hready, fun _ _ => rfl⟩
  | true =>
      obtain ⟨slot, hslot, hslotopen⟩ := exists_slot?_of_isOpen hopen
      have hc : columns[p]? = some slot.column := ht.1.2 ▸ columns_getElem?_of_slot? hslot
      obtain ⟨e, he, -⟩ :=
        ensures_evaluateColumn hP hv hg hc (Slot.isOpen_iff.1 hslotopen).1 hdeps t ht
      obtain ⟨t₁, hon⟩ := exists_on_eq_ok he
      have hfill := on_fill_of_isOpen hslot hslotopen hon
      have hfilled : t.Filled (t.graph.dependencies p) := fun q hq =>
        ht.2 q (hdeps (ht.1.graph_eq hg ▸ hq))
      rw [hfill] at hready
      refine ⟨t₁.keep p e, hfill, .cons hslot hslotopen hfilled hon (.nil _), hready,
        fun q hpq => ?_⟩
      obtain ⟨s, rfl⟩ := exists_eq_of_on_evaluateColumn hon
      exact (isOpen_keep hpq e).trans (isOpen_eq_of_slots_eq rfl q)

/-- **Going through positions in order** evaluates exactly the columns that are open at the
beginning. -/
theorem exists_on_mapM_fill {wanted : Nat → Bool}
    (hclosed : ∀ p, wanted p → ∀ q ∈ g.dependencies p, wanted q) {placed ps : List Nat}
    (hready : g.ReadyAfter wanted placed ps) (ht : t.ReadyWith P v columns placed) :
    ∃ t', (ps.mapM fill).on t = (.ok (ps.map t.isOpen), t') ∧
      t.Evaluates (ps.filter t.isOpen) t' ∧ t'.ReadyWith P v columns (placed ++ ps) := by
  induction ps generalizing t placed with
  | nil =>
      rw [List.append_nil]
      exact ⟨t, rfl, .nil t, ht⟩
  | cons p ps ih =>
      obtain ⟨⟨-, hwanted, -, hplaced⟩, hrest⟩ := hready
      have hdeps : g.dependencies p ⊆ placed := fun q hq =>
        hplaced q hq (hclosed p hwanted q hq)
      obtain ⟨t₁, hon₁, hevaluates₁, hready₁, hothers⟩ := exists_on_fill hP hv hg hdeps ht
      obtain ⟨t', hon, hevaluates, hready'⟩ := ih hrest hready₁
      -- The positions that are still to come are as open as before.
      have hsame : ∀ q ∈ ps, t₁.isOpen q = t.isOpen q := by
        intro q hq
        refine hothers q ?_
        rintro rfl
        exact hrest.not_mem hq (List.mem_append_right _ (List.mem_singleton_self p))
      rw [List.map_congr_left hsame] at hon
      rw [List.filter_congr hsame] at hevaluates
      rw [List.mapM_cons, ← List.singleton_append, ← List.append_assoc]
      refine ⟨t', ?_, ?_, hready'⟩
      · rw [on_bind_ok hon₁, on_bind_ok hon, List.map_append]
        rfl
      · rw [List.filter_append]
        exact hevaluates₁.trans hevaluates

/-- Filling what some columns need evaluates the open ones among them, each one once. -/
theorem exists_on_fillAll {wanted : Nat → Bool}
    (hclosed : ∀ p, wanted p → ∀ q ∈ g.dependencies p, wanted q)
    (ht : t.ReadyFor P v columns) :
    ∃ t', (fillAll (g.orderOf wanted)).on t =
      (.ok ((g.orderOf wanted).countP t.isOpen), t') ∧
      EvaluatesExactly (· ∈ g.orderOf wanted) t t' ∧
      t'.ReadyWith P v columns (g.orderOf wanted) := by
  have hready : g.ReadyAfter wanted [] (g.orderOf wanted) := g.readyAfter_orderOf
  obtain ⟨t', hon, hevaluates, hready'⟩ :=
    exists_on_mapM_fill hP hv hg hclosed hready ⟨ht, fun p hp => nomatch hp⟩
  refine ⟨t', ?_, ⟨_, hready.nodup.filter _, fun p => List.mem_filter, hevaluates,
    hevaluates.evaluations_eq⟩, hready'⟩
  rw [fillAll, on_bind_ok hon, List.count_eq_countP, List.countP_map]
  refine congrArg (fun n => (Except.ok n, t')) (List.countP_congr fun p _ => ?_)
  simp

/-- **What is evaluated for one column**: the column and what it depends on, as far as they
are open. -/
theorem exists_on_materializeAt (ht : t.ReadyFor P v columns) {p : Nat}
    (hopen : t.isOpen p) :
    ∃ e t', (materializeAt p).on t = (.ok e, t') ∧
      EvaluatesExactly (Relation.ReflTransGen t.graph.Reads p) t t' := by
  obtain ⟨slot, hslot, hslotopen⟩ := exists_slot?_of_isOpen hopen
  obtain ⟨hcomputed, hnone⟩ := Slot.isOpen_iff.1 hslotopen
  have hc : columns[p]? = some slot.column := ht.2 ▸ columns_getElem?_of_slot? hslot
  have hp : p < g.size := hg.size_eq ▸ (List.getElem?_eq_some_iff.1 hc).1
  have hcached : t.cached? p = none := by
    rw [cached?, hslot]
    exact hnone
  obtain ⟨t', hon, hexactly, ht', hfilled⟩ := exists_on_fillAll hP hv hg
    (fun _ hq _ hr => hg.contains_closure_of_mem_dependencies hp hq hr) ht
  obtain ⟨e, hcached'⟩ :=
    hfilled.exists_cached? ((hg.mem_orderFor hp).2 .refl) (ht'.2.symm ▸ hc) hcomputed
  refine ⟨e, t', ?_, ?_⟩
  · rw [materializeAt, on_get_bind, hcached]
    show (get >>= _ : Access (ComputedTable σ) Evaluated).on t = _
    rw [on_get_bind, ht.graph_eq hg, Graph.orderFor, on_bind_ok hon, on_get_bind, hcached']
    rfl
  · rw [ht.graph_eq hg]
    exact hexactly.congr fun q _ => hg.mem_orderFor hp

omit hP hv in
/-- The open positions are those of the open columns. -/
theorem countP_order (ht : t.ReadyFor P v columns) :
    g.order.countP t.isOpen = t.slots.countP (·.isOpen) := by
  have hperm : g.order.Perm (List.range t.slots.length) := by
    rw [Graph.order,
      List.perm_ext_iff_of_nodup Graph.readyAfter_orderOf.nodup List.nodup_range]
    intro p
    rw [hg.mem_orderOf, hg.size_eq, ← ht.2, t.length_columns, List.mem_range]
    exact and_iff_left rfl
  have hslots : (List.range t.slots.length).map (t.slots[·]?) = t.slots.map some := by
    refine List.ext_getElem (by simp) fun p hp _ => ?_
    rw [List.length_map, List.length_range] at hp
    simp [hp]
  calc g.order.countP t.isOpen
      = (List.range t.slots.length).countP t.isOpen := hperm.countP_eq _
    _ = ((List.range t.slots.length).map (t.slots[·]?)).countP (·.any (·.isOpen)) :=
      List.countP_map.symm
    _ = t.slots.countP (·.isOpen) := by rw [hslots, List.countP_map]; rfl

/-- **What is evaluated for all columns**: those that are open, and nothing when this is
repeated. -/
theorem exists_on_materializeAll (ht : t.ReadyFor P v columns) :
    ∃ t', materializeAll.on t = (.ok (t.slots.countP (·.isOpen)), t') ∧
      EvaluatesExactly (fun _ => True) t t' ∧ materializeAll.on t' = (.ok 0, t') := by
  have hon : ∀ {s : ComputedTable σ}, s.ReadyFor P v columns →
      materializeAll.on s = (fillAll (g.orderOf fun _ => true)).on s := by
    intro s hs
    rw [materializeAll, on_get_bind, hs.graph_eq hg]
    rfl
  obtain ⟨t', hfill, hexactly, ht', hfilled⟩ :=
    exists_on_fillAll hP hv hg (fun _ _ _ _ => rfl) ht
  obtain ⟨t'', hfill', hexactly', -⟩ := exists_on_fillAll hP hv hg (fun _ _ _ _ => rfl) ht'
  have hclosed : ∀ p ∈ g.orderOf fun _ => true,
      t'.isOpen p = false := fun p hp => hfilled.isOpen_eq_false hp
  refine ⟨t', ?_, ?_, ?_⟩
  · rw [hon ht, hfill]
    exact congrArg (fun n => (Except.ok n, t')) (countP_order hg ht)
  · refine hexactly.congr fun p hopen => iff_of_true ?_ trivial
    obtain ⟨slot, hslot, -⟩ := exists_slot?_of_isOpen hopen
    refine hg.mem_orderOf.2 ⟨?_, rfl⟩
    rw [hg.size_eq, ← ht.2, t.length_columns]
    exact (List.getElem?_eq_some_iff.1 hslot).1
  · obtain rfl := hexactly'.eq_of_forall_not hclosed
    rw [hon ht', hfill']
    refine congrArg (fun n => (Except.ok n, t'')) (List.countP_eq_zero.2 fun p hp => ?_)
    rw [hclosed p hp]
    exact Bool.false_ne_true

end

end ComputedTable

end FormulaTable
