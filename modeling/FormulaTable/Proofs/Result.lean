import Mathlib.Data.List.Forall2

/-!
# Steps that may fail

How a success of a compound step comes about: a sequence of steps succeeds when each of them
does, and a step taken for every member of a list succeeds when it does for every member.

* `bind_eq_ok`, `bind_eq_error`, `map_eq_ok` invert one step after another.
* `mapM_eq_ok` relates the members of a list to the results, one by one.
* `mapM_eq_error` names the failure of a list: the first of its `failures`.
* `SameUnless` compares the results of steps that differ in when they give up.
-/

namespace FormulaTable

variable {ε α β : Type}

/-- Two steps succeed when the first one does and the second one does on its result. -/
theorem bind_eq_ok {x : Except ε α} {f : α → Except ε β} {b : β} :
    (x >>= f) = .ok b ↔ ∃ a, x = .ok a ∧ f a = .ok b := by
  cases x with
  | error e =>
      constructor
      · rintro ⟨⟩
      · rintro ⟨_, ⟨⟩, _⟩
  | ok a =>
      constructor
      · intro h
        exact ⟨a, rfl, h⟩
      · rintro ⟨_, ha, h⟩
        cases ha
        exact h

/-- Two steps fail when the first one does, or the second one on its result. -/
theorem bind_eq_error {x : Except ε α} {f : α → Except ε β} {e : ε} :
    (x >>= f) = .error e ↔ x = .error e ∨ ∃ a, x = .ok a ∧ f a = .error e := by
  cases x with
  | error e' =>
      constructor
      · rintro ⟨⟩
        exact .inl rfl
      · rintro (⟨⟨⟩⟩ | ⟨_, ⟨⟩, _⟩)
        rfl
  | ok a =>
      constructor
      · intro h
        exact .inr ⟨a, rfl, h⟩
      · rintro (⟨⟨⟩⟩ | ⟨_, ⟨⟩, h⟩)
        exact h

/-- A result that is only rewritten comes from a success. -/
theorem map_eq_ok {x : Except ε α} {f : α → β} {b : β} :
    x.map f = .ok b ↔ ∃ a, x = .ok a ∧ f a = b := by
  cases x with
  | error e =>
      constructor
      · rintro ⟨⟩
      · rintro ⟨_, ⟨⟩, _⟩
  | ok a =>
      constructor
      · intro h
        exact ⟨a, rfl, Except.ok.inj h⟩
      · rintro ⟨_, ha, rfl⟩
        cases ha
        rfl

/-- A step for every member of a list succeeds exactly when it does for each, in order. -/
theorem mapM_eq_ok {f : α → Except ε β} {as : List α} {bs : List β} :
    as.mapM f = .ok bs ↔ List.Forall₂ (fun a b => f a = .ok b) as bs := by
  induction as generalizing bs with
  | nil =>
      rw [List.mapM_nil, List.forall₂_nil_left_iff]
      exact ⟨fun h => (Except.ok.inj h).symm, fun h => h ▸ rfl⟩
  | cons a as ih =>
      rw [List.mapM_cons, bind_eq_ok, List.forall₂_cons_left_iff]
      constructor
      · rintro ⟨b, hb, h⟩
        obtain ⟨rest, hrest, h⟩ := bind_eq_ok.1 h
        exact ⟨b, rest, hb, ih.1 hrest, (Except.ok.inj h).symm⟩
      · rintro ⟨b, rest, hb, hrest, rfl⟩
        exact ⟨b, hb, bind_eq_ok.2 ⟨rest, ih.2 hrest, rfl⟩⟩

/-- A step for every member of a list fails with the failure of one of them. -/
theorem exists_of_mapM_eq_error {f : α → Except ε β} {as : List α} {e : ε}
    (h : as.mapM f = .error e) :
    ∃ a ∈ as, f a = .error e := by
  induction as with
  | nil => cases h
  | cons a as ih =>
      rw [List.mapM_cons] at h
      rcases bind_eq_error.1 h with ha | ⟨b, -, h⟩
      · exact ⟨a, List.mem_cons_self, ha⟩
      · rcases bind_eq_error.1 h with has | ⟨bs, -, ⟨⟩⟩
        obtain ⟨a', ha', he⟩ := ih has
        exact ⟨a', List.mem_cons_of_mem a ha', he⟩

/-- A step that succeeds for every member of a list succeeds for each of them. -/
theorem exists_of_mapM_eq_ok {f : α → Except ε β} {as : List α} {bs : List β}
    (h : as.mapM f = .ok bs) {a : α} (ha : a ∈ as) : ∃ b, f a = .ok b := by
  rw [mapM_eq_ok] at h
  induction h with
  | nil => cases ha
  | cons hb _ ih =>
      rcases List.mem_cons.1 ha with rfl | ha
      · exact ⟨_, hb⟩
      · exact ih ha

/-- The results of two steps taken for the members of one list are related one by one. -/
theorem forall₂_of_mapM_eq_ok {γ : Type} {f : α → Except ε β} {f' : α → Except ε γ}
    {R : β → γ → Prop} {as : List α} {bs : List β} {cs : List γ} (h : as.mapM f = .ok bs)
    (h' : as.mapM f' = .ok cs) (hR : ∀ a ∈ as, ∀ b c, f a = .ok b → f' a = .ok c → R b c) :
    List.Forall₂ R bs cs := by
  rw [mapM_eq_ok] at h h'
  induction h generalizing cs with
  | nil =>
      cases h'
      exact .nil
  | cons hb _ ih =>
      cases h' with
      | cons hc h' =>
          refine .cons (hR _ List.mem_cons_self _ _ hb hc) (ih h' fun a ha => ?_)
          exact hR a (List.mem_cons_of_mem _ ha)

/-- A step with a known result for each member of a list gives the list of these results. -/
theorem mapM_eq_map {f : α → Except ε β} {g : α → β} {as : List α}
    (h : ∀ a ∈ as, f a = .ok (g a)) : as.mapM f = .ok (as.map g) := by
  rw [mapM_eq_ok, List.forall₂_map_right_iff, List.forall₂_same]
  exact h

/-- Steps that do the same for each member of a list do the same for the list. -/
theorem mapM_congr {f g : α → Except ε β} {as : List α} (h : ∀ a ∈ as, f a = g a) :
    as.mapM f = as.mapM g := by
  induction as with
  | nil => rfl
  | cons a as ih =>
      rw [List.mapM_cons, List.mapM_cons, h a List.mem_cons_self,
        ih fun a' ha' => h a' (List.mem_cons_of_mem a ha')]

/-- Steps over pairs do the same if they do the same for each pair of second members. -/
theorem mapM_zip_congr {γ : Type} {f g : α × β → Except ε γ} {bs cs : List β}
    (h : List.Forall₂ (fun b c => ∀ a, f (a, b) = g (a, c)) bs cs) (as : List α) :
    (as.zip bs).mapM f = (as.zip cs).mapM g := by
  induction h generalizing as with
  | nil =>
      rw [List.zip_nil_right, List.mapM_nil, List.mapM_nil]
  | cons hbc _ ih =>
      cases as with
      | nil => rfl
      | cons a as =>
          rw [List.zip_cons_cons, List.zip_cons_cons, List.mapM_cons,
            List.mapM_cons, hbc, ih]

/-- Checks in turn succeed when each of them does. -/
theorem forM_eq_ok {f : α → Except ε Unit} {as : List α} :
    as.forM f = .ok () ↔ ∀ a ∈ as, f a = .ok () := by
  rw [List.forM_eq_forM]
  induction as with
  | nil => exact ⟨fun _ _ h => (nomatch h), fun _ => rfl⟩
  | cons a as ih =>
      rw [List.forM_cons, bind_eq_ok, List.forall_mem_cons, ← ih]
      constructor
      · rintro ⟨⟨⟩, ha, has⟩
        exact ⟨ha, has⟩
      · rintro ⟨ha, has⟩
        exact ⟨(), ha, has⟩

/-- A step that succeeds for each member of a list succeeds for the whole list. -/
theorem exists_mapM_eq_ok {f : α → Except ε β} {as : List α}
    (h : ∀ a ∈ as, ∃ b, f a = .ok b) : ∃ bs, as.mapM f = .ok bs := by
  induction as with
  | nil => exact ⟨[], rfl⟩
  | cons a as ih =>
      obtain ⟨b, hb⟩ := h a List.mem_cons_self
      obtain ⟨bs, hbs⟩ := ih fun a' ha' => h a' (List.mem_cons_of_mem a ha')
      refine ⟨b :: bs, ?_⟩
      rw [List.mapM_cons, bind_eq_ok]
      exact ⟨b, hb, bind_eq_ok.2 ⟨bs, hbs, rfl⟩⟩

/-- A success whose result passes a test. -/
theorem exists_of_any_toOption {x : Except ε α} {p : α → Bool}
    (h : x.toOption.any p = true) :
    ∃ a, x = .ok a ∧ p a = true := by
  cases x with
  | error e => cases h
  | ok a => exact ⟨a, rfl, h⟩

/-! ### The failures among several steps -/

/-- The failures of a step taken for the members of a list, in the order of the list. -/
def failures (f : α → Except ε β) (as : List α) : List ε :=
  as.filterMap fun a =>
    match f a with
    | .ok _ => none
    | .error e => some e

/-- A success is no failure. -/
theorem failures_cons_ok {f : α → Except ε β} {a : α} {b : β} (h : f a = .ok b)
    (as : List α) :
    failures f (a :: as) = failures f as :=
  List.filterMap_cons_none (by rw [h])

/-- A failure is listed first. -/
theorem failures_cons_error {f : α → Except ε β} {a : α} {e : ε} (h : f a = .error e)
    (as : List α) :
    failures f (a :: as) = e :: failures f as :=
  List.filterMap_cons_some (by rw [h])

/-- Failures are listed in the order of the elements. -/
theorem failures_append (f : α → Except ε β) (as as' : List α) :
    failures f (as ++ as') = failures f as ++ failures f as' :=
  List.filterMap_append

/-- A step that succeeds for each member of a list has no failures. -/
theorem failures_eq_nil {f : α → Except ε β} {as : List α} :
    failures f as = [] ↔ ∀ a ∈ as, ∃ b, f a = .ok b := by
  rw [failures, List.filterMap_eq_nil_iff]
  refine forall₂_congr fun a _ => ?_
  cases f a with
  | ok b => exact ⟨fun _ => ⟨b, rfl⟩, fun _ => rfl⟩
  | error e => exact ⟨fun h => (nomatch h), fun ⟨_, h⟩ => nomatch h⟩

/-- Another order, with members added for which the step succeeds, has the same failures in
another order. -/
theorem failures_perm {f : α → Except ε β} {as as' added : List α}
    (h : as'.Perm (as ++ added)) (hadded : ∀ a ∈ added, ∃ b, f a = .ok b) :
    (failures f as').Perm (failures f as) := by
  have happend : (failures f as').Perm (failures f as ++ failures f added) :=
    failures_append f as added ▸ h.filterMap _
  rwa [failures_eq_nil.2 hadded, List.append_nil] at happend

/-- The first failure is the failure of the whole. -/
theorem mapM_eq_error {f : α → Except ε β} {as : List α} {e : ε} :
    as.mapM f = .error e ↔ (failures f as).head? = some e := by
  induction as with
  | nil => exact ⟨fun h => (nomatch h), fun h => (nomatch h)⟩
  | cons a as ih =>
      rw [List.mapM_cons, bind_eq_error]
      cases ha : f a with
      | error e' => simp [failures_cons_error ha]
      | ok b =>
          rw [failures_cons_ok ha, ← ih]
          constructor
          · rintro (h | ⟨_, -, h⟩)
            · cases h
            · rcases bind_eq_error.1 h with has | ⟨_, -, ⟨⟩⟩
              exact has
          · exact fun has => .inr ⟨b, rfl, bind_eq_error.2 (.inl has)⟩

/-- The first failure is the failure of the whole. -/
theorem forM_eq_error {f : α → Except ε Unit} {as : List α} {e : ε} :
    as.forM f = .error e ↔ (failures f as).head? = some e := by
  rw [List.forM_eq_forM]
  induction as with
  | nil => exact ⟨fun h => (nomatch h), fun h => (nomatch h)⟩
  | cons a as ih =>
      rw [List.forM_cons, bind_eq_error]
      cases ha : f a with
      | error e' => simp [failures_cons_error ha]
      | ok u => simp [failures_cons_ok ha, ih]

/-! ### Steps that differ in when they give up -/

/-- The two results are the same, unless the first one is the given failure. -/
def SameUnless (e : ε) (x x' : Except ε α) : Prop := x = .error e ∨ x = x'

namespace SameUnless

variable {e : ε}

/-- A result is the same as itself. -/
theorem refl (x : Except ε α) : SameUnless e x x := .inr rfl

/-- Steps that do the same do so one after another. -/
theorem bind {x x' : Except ε α} {k k' : α → Except ε β} (h : SameUnless e x x')
    (hk : ∀ a, SameUnless e (k a) (k' a)) : SameUnless e (x >>= k) (x' >>= k') := by
  rcases h with rfl | rfl
  · exact .inl rfl
  · cases x with
    | error e => exact .refl _
    | ok a => exact hk a

/-- Steps that do the same do so on all elements of a list. -/
theorem mapM {f f' : α → Except ε β} {as : List α}
    (h : ∀ a ∈ as, SameUnless e (f a) (f' a)) :
    SameUnless e (as.mapM f) (as.mapM f') := by
  induction as with
  | nil => exact .refl _
  | cons a as ih =>
      rw [List.mapM_cons, List.mapM_cons]
      refine (h a List.mem_cons_self).bind fun b => ?_
      exact (ih fun a' ha' => h a' (List.mem_cons_of_mem a ha')).bind fun bs => .refl _

end SameUnless

end FormulaTable
