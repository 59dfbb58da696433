import FormulaTable.Proofs.Value.Order
import FormulaTable.Program.Builtin

/-!
# The smallest and the largest argument

`min` and `max` pass over null and keep the best argument so far. It is compared with each
argument once, which is enough: values that can be compared with the best one can be
compared with each other, and what is behind a value that the best one is ahead of stays
behind. So the result is ahead of all arguments that are given up on the way, and no order
of the arguments makes a difference, except for which of several equal ones is returned.

* `foldlM_better` — what one pass keeps, and why nothing is ahead of it.
* `extreme_eq_ok`, `extreme_eq_error` — when there is a result, and what is reported when
  there is none.
* `extremes_picked` — both functions.
-/

namespace FormulaTable

namespace Value

/-- The two values have an order. -/
def Comparable (a b : Value) : Prop := (a.compare? b).isSome

section Comparable

variable {a b c : Value}

/-- Values are comparable either way round. -/
theorem Comparable.symm (h : Comparable a b) : Comparable b a := by
  obtain ⟨k, ha, hb⟩ := isSome_compare?_iff.1 h
  exact isSome_compare?_iff.2 ⟨k, hb, ha⟩

instance : Std.Symm Comparable := ⟨fun _ _ => Comparable.symm⟩

/-- Values that are comparable with a third one are comparable. -/
theorem Comparable.trans (hab : Comparable a b) (hbc : Comparable b c) :
    Comparable a c := by
  obtain ⟨k, ha, hb⟩ := isSome_compare?_iff.1 hab
  obtain ⟨k', hb', hc⟩ := isSome_compare?_iff.1 hbc
  obtain rfl : k = k' := Option.some.inj (hb.symm.trans hb')
  exact isSome_compare?_iff.2 ⟨k, ha, hc⟩

/-- Values have no order exactly if they are not comparable. -/
theorem compare?_eq_none_iff : a.compare? b = none ↔ ¬ Comparable a b :=
  Option.isSome_iff_ne_none.not_left.symm

/-- No value is ahead of itself. -/
theorem compare?_self_ne {o : Ordering} (ho : o ≠ .eq) : a.compare? a ≠ some o := by
  intro h
  have hswap := compare?_swap a a
  rw [h] at hswap
  cases o <;> simp at hswap ho

/-- Being ahead is transitive, in both directions. -/
theorem ahead_trans {o : Ordering} (ho : o ≠ .eq) (hab : a.compare? b = some o)
    (hbc : b.compare? c = some o) :
    a.compare? c = some o := by
  cases o with
  | lt => exact lt_trans hab hbc
  | eq => exact absurd rfl ho
  | gt =>
      have hba : b.compare? a = some .lt := by rw [compare?_swap a b, hab]; rfl
      have hcb : c.compare? b = some .lt := by rw [compare?_swap b c, hbc]; rfl
      rw [compare?_swap c a, lt_trans hcb hba]
      rfl

end Comparable

end Value

namespace Builtin

open Value (Comparable)

section Passes

variable {name : String} {wanted : Ordering}

/-- How two values are refused that have no order. -/
def refusal (name : String) (v w : Value) : RowError :=
  .function name ("cannot compare " ++ v.kindName ++ " and " ++ w.kindName)

/-- A candidate that is not comparable is refused. -/
theorem better_eq_error {current candidate : Value} (h : ¬ Comparable candidate current) :
    better name wanted current candidate = .error (refusal name candidate current) := by
  rw [better, Value.compare?_eq_none_iff.2 h]
  rfl

/-- The better of two values is one of them, it is the current one or ahead of it, and the
candidate is not ahead of it. -/
theorem better_eq_ok (name : String) (hwanted : wanted ≠ .eq) {current candidate : Value}
    (h : Comparable candidate current) :
    ∃ best, better name wanted current candidate = .ok best ∧
      (best = current ∨ best = candidate ∧ candidate.compare? current = some wanted) ∧
      candidate.compare? best ≠ some wanted := by
  obtain ⟨o, ho⟩ := Option.isSome_iff_exists.1 h
  by_cases how : o = wanted
  · subst how
    refine ⟨candidate, ?_, .inr ⟨rfl, ho⟩, Value.compare?_self_ne hwanted⟩
    rw [better, ho]
    exact congrArg Except.ok (if_pos rfl)
  · refine ⟨current, ?_, .inl rfl, fun h => how (Option.some.inj (ho.symm.trans h))⟩
    rw [better, ho]
    exact congrArg Except.ok (if_neg how)

/-- The better one of two values is one of them. -/
theorem mem_of_best {best first v m : Value} {rest : List Value}
    (hbest : best = first ∨ best = v) (hm : m ∈ best :: rest) : m ∈ first :: v :: rest := by
  rcases hbest with rfl | rfl
  · exact List.cons_subset_cons _ (List.subset_cons_self v rest) hm
  · exact List.mem_cons_of_mem first hm

/-- **One pass** over values that have an order with the first one keeps one of them that
nothing is ahead of. -/
theorem foldlM_better (name : String) (hwanted : wanted ≠ .eq) {first : Value}
    {rest : List Value} (h : ∀ v ∈ rest, Comparable v first) :
    ∃ m ∈ first :: rest, rest.foldlM (better name wanted) first = .ok m ∧
      (m = first ∨ m.compare? first = some wanted) ∧ ∀ v ∈ first :: rest,
        v.compare? m ≠ some wanted := by
  induction rest generalizing first with
  | nil =>
      refine ⟨first, List.mem_cons_self, rfl, .inl rfl, fun v hv => ?_⟩
      rw [List.mem_singleton.1 hv]
      exact Value.compare?_self_ne hwanted
  | cons v rest ih =>
      obtain ⟨best, hbetter, hchoice, hbehind⟩ :=
        better_eq_ok name hwanted (h v List.mem_cons_self)
      have hbest : best = first ∨ best = v := hchoice.imp_right And.left
      have hcomparable : ∀ u ∈ rest, Comparable u best := by
        intro u hu
        have hfirst := h u (List.mem_cons_of_mem v hu)
        rcases hbest with rfl | rfl
        · exact hfirst
        · exact hfirst.trans (h best List.mem_cons_self).symm
      obtain ⟨m, hm, hpass, hahead, hnone⟩ := ih hcomparable
      refine ⟨m, ?_, ?_, ?_, ?_⟩
      · exact mem_of_best hbest hm
      · rw [List.foldlM_cons, hbetter]
        exact hpass
      · rcases hchoice with rfl | ⟨rfl, hfirst⟩
        · exact hahead
        · rcases hahead with rfl | hahead
          · exact .inr hfirst
          · exact .inr (Value.ahead_trans hwanted hahead hfirst)
      · intro u hu hum
        rcases List.mem_cons.1 hu with rfl | hu
        -- What the first value is ahead of, the best one is ahead of, too.
        · rcases hchoice with rfl | ⟨rfl, hfirst⟩
          · exact hnone _ List.mem_cons_self hum
          · exact hnone _ List.mem_cons_self (Value.ahead_trans hwanted hfirst hum)
        rcases List.mem_cons.1 hu with rfl | hu
        · rcases hahead with rfl | hahead
          · exact hbehind hum
          · exact hbehind (Value.ahead_trans hwanted hum hahead)
        · exact hnone u (List.mem_cons_of_mem _ hu) hum

/-- **One pass** fails at a value that has no order with the best one so far. -/
theorem foldlM_better_eq_error (name : String) (hwanted : wanted ≠ .eq) {first : Value}
    {rest : List Value} (h : ¬ ∀ v ∈ rest, Comparable v first) :
    ∃ v ∈ rest, ∃ w ∈ first :: rest, ¬ Comparable v w ∧
      rest.foldlM (better name wanted) first = .error (refusal name v w) := by
  induction rest generalizing first with
  | nil => exact absurd nofun h
  | cons v rest ih =>
      rw [List.foldlM_cons]
      by_cases hv : Comparable v first
      · obtain ⟨best, hbetter, hchoice, -⟩ := better_eq_ok name hwanted hv
        have hbest : best = first ∨ best = v := hchoice.imp_right And.left
        have hrest : ¬ ∀ u ∈ rest, Comparable u best := by
          intro hrest
          refine h (List.forall_mem_cons.2 ⟨hv, fun u hu => ?_⟩)
          rcases hbest with rfl | rfl
          · exact hrest u hu
          · exact (hrest u hu).trans hv
        obtain ⟨u, hu, w, hw, hnot, herror⟩ := ih hrest
        refine ⟨u, List.mem_cons_of_mem v hu, w, mem_of_best hbest hw, hnot, ?_⟩
        rw [hbetter]
        exact herror
      · refine ⟨v, List.mem_cons_self, first, List.mem_cons_self, hv, ?_⟩
        rw [better_eq_error hv]
        rfl

end Passes

section Arguments

variable {name : String} {wanted : Ordering} {args : List Value}

/-- The arguments that are not null. -/
def present (args : List Value) : List Value := args.filter (!·.isNull)

/-- What is not null is present. -/
theorem not_isNull_iff {v : Value} : (!v.isNull) = true ↔ v ≠ .null := by
  cases v <;> simp [Value.isNull]

/-- The present arguments are those that are not null. -/
theorem mem_present {v : Value} : v ∈ present args ↔ v ∈ args ∧ v ≠ .null := by
  rw [present, List.mem_filter, not_isNull_iff]

/-- Values that have an order with the first one have one with each other. -/
theorem pairwise_comparable_cons {first : Value} {rest : List Value} :
    (first :: rest).Pairwise Comparable ↔ ∀ v ∈ rest, Comparable v first := by
  rw [List.pairwise_cons]
  refine ⟨fun h v hv => (h.1 v hv).symm, fun h => ⟨fun v hv => (h v hv).symm, ?_⟩⟩
  exact List.pairwise_of_forall_mem_list fun u hu v hv => (h u hu).trans (h v hv).symm

/-- **There is a result** if all arguments have an order: one that nothing is ahead of. -/
theorem extreme_eq_ok (name : String) (hwanted : wanted ≠ .eq)
    (hpairs : (present args).Pairwise Comparable) (hsome : present args ≠ []) :
    ∃ m ∈ present args, extreme name wanted args = .ok m ∧ ∀ v ∈ present args,
      v.compare? m ≠ some wanted := by
  obtain ⟨first, rest, hpresent⟩ := List.exists_cons_of_ne_nil hsome
  rw [hpresent] at hpairs ⊢
  obtain ⟨m, hm, hpass, -, hnone⟩ :=
    foldlM_better name hwanted (pairwise_comparable_cons.1 hpairs)
  refine ⟨m, hm, ?_, hnone⟩
  rw [extreme, show args.filter (!·.isNull) = first :: rest from hpresent]
  exact hpass

/-- **There is none** if two of them have no order, and two such values are named. -/
theorem extreme_eq_error (name : String) (hwanted : wanted ≠ .eq)
    (hpairs : ¬ (present args).Pairwise Comparable) :
    ∃ v ∈ present args, ∃ w ∈ present args, ¬ Comparable v w ∧
      extreme name wanted args = .error (refusal name v w) := by
  obtain ⟨first, rest, hpresent⟩ : ∃ first rest, present args = first :: rest :=
    List.exists_cons_of_ne_nil fun hnone => hpairs (hnone ▸ List.Pairwise.nil)
  rw [hpresent, pairwise_comparable_cons] at hpairs
  obtain ⟨v, hv, w, hw, hnot, hpass⟩ := foldlM_better_eq_error name hwanted hpairs
  rw [hpresent]
  refine ⟨v, List.mem_cons_of_mem first hv, w, hw, hnot, ?_⟩
  rw [extreme, show args.filter (!·.isNull) = first :: rest from hpresent]
  exact hpass

/-- Without a present argument the extreme is null. -/
theorem extreme_of_present_eq_nil (h : present args = []) :
    extreme name wanted args = .ok .null := by
  rw [extreme, show args.filter (!·.isNull) = [] from h]

/-- All arguments that are not null have an order, or two of them at different positions
have none. -/
theorem not_pairwise_present_iff : ¬ (present args).Pairwise Comparable ↔
    ∃ (i j : Nat) (v w : Value), i ≠ j ∧ args[i]? = some v ∧ args[j]? = some w ∧
      v ≠ .null ∧ w ≠ .null ∧ v.compare? w = none := by
  rw [present, List.pairwise_filter, List.pairwise_iff_getElem]
  simp only [not_isNull_iff]
  constructor
  · intro h
    push Not at h
    obtain ⟨i, j, hi, hj, hlt, hv, hw, hnot⟩ := h
    exact ⟨i, j, args[i], args[j], hlt.ne, List.getElem?_eq_getElem hi,
      List.getElem?_eq_getElem hj, hv, hw, Value.compare?_eq_none_iff.2 hnot⟩
  · rintro ⟨i, j, v, w, hij, hi, hj, hv, hw, hnone⟩ hpairs
    obtain ⟨hleft, rfl⟩ := List.getElem?_eq_some_iff.1 hi
    obtain ⟨hright, rfl⟩ := List.getElem?_eq_some_iff.1 hj
    rcases Nat.lt_or_gt_of_ne hij with hlt | hgt
    · exact Value.compare?_eq_none_iff.1 hnone (hpairs i j hleft hright hlt hv hw)
    · exact Value.compare?_eq_none_iff.1 hnone (hpairs j i hright hleft hgt hw hv).symm

/-- No argument is present exactly if all of them are null. -/
theorem present_eq_nil_iff : present args = [] ↔ ∀ v ∈ args, v = .null := by
  rw [List.eq_nil_iff_forall_not_mem]
  simp only [mem_present, not_and, not_not]

end Arguments

/-- How a function picks a value from its arguments. -/
structure PicksExtreme (f : Builtin) (name : String) (wanted : Ordering) : Prop where
  /-- The result is null exactly if there is nothing but null. -/
  null_iff : ∀ args, f.apply args = .ok .null ↔ ∀ v ∈ args, v = .null
  /-- It fails exactly if two arguments at different positions, neither of them null, have
  no order. -/
  fails_iff : ∀ args, (∃ e, f.apply args = .error e) ↔
    ∃ (i j : Nat) (v w : Value), i ≠ j ∧ args[i]? = some v ∧ args[j]? = some w ∧
      v ≠ .null ∧ w ≠ .null ∧ v.compare? w = none
  /-- The failure names the kinds of two such arguments. -/
  failure : ∀ args e, f.apply args = .error e →
    ∃ v ∈ args, ∃ w ∈ args, v ≠ .null ∧ w ≠ .null ∧ v.compare? w = none ∧
      e = refusal name v w
  /-- Any other result is one of the arguments, and no argument is ahead of it. -/
  best : ∀ args m, f.apply args = .ok m → m ≠ .null → m ∈ args ∧ ∀ v ∈ args, v ≠ .null →
    v.compare? m ≠ some wanted
  /-- The order of the arguments, and null among them, make no difference, except for which
  of several equal arguments is returned. -/
  unordered : ∀ args args', (present args).Perm (present args') →
    ((∃ m, f.apply args = .ok m) ↔ ∃ m, f.apply args' = .ok m) ∧
      ∀ m m', f.apply args = .ok m → f.apply args' = .ok m' →
        m = m' ∨ m.compare? m' = some .eq

section Picking

variable {f : Builtin} {name : String} {wanted : Ordering} {args args' : List Value}

/-- The search fails exactly if not all arguments have an order. -/
theorem extreme_eq_error_iff (name : String) (hwanted : wanted ≠ .eq) :
    (∃ e, extreme name wanted args = .error e) ↔ ¬ (present args).Pairwise Comparable := by
  constructor
  · rintro ⟨e, he⟩ hpairs
    by_cases hnone : present args = []
    · rw [extreme_of_present_eq_nil hnone] at he
      cases he
    · obtain ⟨m, -, hok, -⟩ := extreme_eq_ok name hwanted hpairs hnone
      rw [hok] at he
      cases he
  · intro hpairs
    obtain ⟨v, -, w, -, -, herror⟩ := extreme_eq_error name hwanted hpairs
    exact ⟨_, herror⟩

/-- There is an extreme if all present arguments are comparable with each other. -/
theorem extreme_eq_ok_iff (hwanted : wanted ≠ .eq) :
    (∃ m, extreme name wanted args = .ok m) ↔ (present args).Pairwise Comparable := by
  rw [← not_iff_not, ← extreme_eq_error_iff name hwanted]
  cases extreme name wanted args <;> simp

/-- A result is null only if there is nothing else to pick. -/
theorem extreme_eq_null_iff (hwanted : wanted ≠ .eq) :
    extreme name wanted args = .ok .null ↔ present args = [] := by
  refine ⟨fun h => ?_, extreme_of_present_eq_nil⟩
  by_contra hnone
  obtain ⟨m, hm, hok, -⟩ :=
    extreme_eq_ok name hwanted ((extreme_eq_ok_iff hwanted).1 ⟨_, h⟩) hnone
  obtain rfl : Value.null = m := Except.ok.inj (h.symm.trans hok)
  exact (mem_present.1 hm).2 rfl

/-- A result that is not null is the best of the arguments. -/
theorem best_of_extreme_eq_ok (hwanted : wanted ≠ .eq) {m : Value}
    (h : extreme name wanted args = .ok m) (hm : m ≠ .null) :
    m ∈ present args ∧ ∀ v ∈ present args, v.compare? m ≠ some wanted := by
  have hnone : present args ≠ [] := by
    intro hnone
    rw [extreme_of_present_eq_nil hnone] at h
    exact hm (Except.ok.inj h).symm
  obtain ⟨n, hn, hok, hbest⟩ :=
    extreme_eq_ok name hwanted ((extreme_eq_ok_iff hwanted).1 ⟨_, h⟩) hnone
  obtain rfl : m = n := Except.ok.inj (h.symm.trans hok)
  exact ⟨hn, hbest⟩

/-- **Two results** that are picked from the same arguments in any order are equal. -/
theorem eq_or_compare?_eq (hwanted : wanted ≠ .eq)
    (hperm : (present args).Perm (present args')) {m m' : Value}
    (h : extreme name wanted args = .ok m) (h' : extreme name wanted args' = .ok m') :
    m = m' ∨ m.compare? m' = some .eq := by
  by_cases hnull : m = .null
  · subst hnull
    have hnone : present args' = [] := by
      rw [(extreme_eq_null_iff hwanted).1 h] at hperm
      exact hperm.nil_eq.symm
    rw [extreme_of_present_eq_nil hnone] at h'
    exact .inl (Except.ok.inj h')
  obtain ⟨hm, hbest⟩ := best_of_extreme_eq_ok hwanted h hnull
  have hnull' : m' ≠ .null := by
    rintro rfl
    rw [hperm.mem_iff, (extreme_eq_null_iff hwanted).1 h'] at hm
    cases hm
  obtain ⟨hm', hbest'⟩ := best_of_extreme_eq_ok hwanted h' hnull'
  by_cases hne : m = m'
  · exact .inl hne
  have hpairs := (extreme_eq_ok_iff hwanted).1 ⟨_, h⟩
  have hcomparable : Comparable m m' := hpairs.forall hm (hperm.mem_iff.2 hm') hne
  obtain ⟨o, ho⟩ := Option.isSome_iff_exists.1 hcomparable
  -- Neither result is ahead of the other one.
  have hahead := hbest' m (hperm.mem_iff.1 hm)
  have hbehind := hbest m' (hperm.mem_iff.2 hm')
  rw [Value.compare?_swap m m'] at hbehind
  rw [ho] at hahead hbehind
  cases wanted <;> cases o <;> simp_all

/-- **The search** picks an extreme argument. -/
theorem picksExtreme (hwanted : wanted ≠ .eq)
    (hf : ∀ args, f.apply args = extreme name wanted args) :
    PicksExtreme f name wanted where
  null_iff args := by
    rw [hf, extreme_eq_null_iff hwanted, present_eq_nil_iff]
  fails_iff args := by
    rw [hf, extreme_eq_error_iff name hwanted, not_pairwise_present_iff]
  failure args e he := by
    rw [hf] at he
    obtain ⟨v, hv, w, hw, hnot, herror⟩ :=
      extreme_eq_error name hwanted ((extreme_eq_error_iff name hwanted).1 ⟨e, he⟩)
    obtain ⟨hv, hvnull⟩ := mem_present.1 hv
    obtain ⟨hw, hwnull⟩ := mem_present.1 hw
    exact ⟨v, hv, w, hw, hvnull, hwnull, Value.compare?_eq_none_iff.2 hnot,
      Except.error.inj (he.symm.trans herror)⟩
  best args m hm hnull := by
    obtain ⟨hmem, hbest⟩ := best_of_extreme_eq_ok hwanted (hf args ▸ hm) hnull
    exact ⟨(mem_present.1 hmem).1,
      fun v hv hnonnull => hbest v (mem_present.2 ⟨hv, hnonnull⟩)⟩
  unordered args args' hperm := by
    simp only [hf, extreme_eq_ok_iff hwanted]
    exact ⟨hperm.pairwise_iff fun h => h.symm, fun m m' => eq_or_compare?_eq hwanted hperm⟩

end Picking

/-- **`min` and `max`** pick the smallest and the largest of their arguments. -/
theorem extremes_picked : PicksExtreme .min "min" .lt ∧ PicksExtreme .max "max" .gt :=
  ⟨picksExtreme (by decide) fun _ => rfl, picksExtreme (by decide) fun _ => rfl⟩

/-- Of the double `2 ^ 53`, null and two integers that it equals, the larger of the integers
comes first, and the smaller one is picked. A NaN has no order with anything. -/
theorem extremes_picked_blurred :
    Builtin.min.apply [.int 9007199254740993, .null, .float 9007199254740992,
        .int 9007199254740992] = .ok (.int 9007199254740992) ∧
      ∃ e, Builtin.max.apply [.int 1, .float Binary.notANumber] = .error e := by
  refine ⟨rfl,
    (extremes_picked.2.fails_iff _).2 ⟨0, 1, _, _, by decide, rfl, rfl, nofun, nofun, rfl⟩⟩

end Builtin

end FormulaTable
