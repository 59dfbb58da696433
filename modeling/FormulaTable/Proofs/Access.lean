import FormulaTable.Proofs.Result
import FormulaTable.Table.Tabular

/-!
# What actions on a table keep

`Keeps I x Q` says of an action that it leaves every table with `I` as a table with `I`,
whether it succeeds or not, and that its result, when there is one, has `Q`. The invariant
speaks of the table, and the second property of the result alone; this is enough for actions
that only add to what a table knows. `Ensures I x K` says of an action that it succeeds on
every table with `I`, and `K` relates its result to the table after it.

* `Keeps.bind`, `Keeps.mapM` — the rules for one action after another.
* `Ensures.bind`, `Ensures.mapM` — the same rules for actions that succeed.
-/

namespace FormulaTable

/-- A row is accepted if there are more rows than its index. -/
theorem checkRow_eq_ok {row count : Nat} : checkRow row count = .ok () ↔ row < count := by
  rw [checkRow]
  split
  case isTrue h => exact ⟨fun _ => h, fun _ => rfl⟩
  case isFalse h => exact ⟨fun hok => (nomatch hok), fun hlt => absurd hlt h⟩

/-- A row beyond the last one is refused, with the number of rows. -/
theorem checkRow_eq_error {row count : Nat} (h : count ≤ row) :
    checkRow row count = .error (.invalidRow row count) :=
  if_neg (Nat.not_lt.2 h)

/-- A column is accepted if there are more columns than its position. -/
theorem checkColumn_eq_ok {column count : Nat} :
    checkColumn column count = .ok () ↔ column < count := by
  rw [checkColumn]
  split
  case isTrue h => exact ⟨fun _ => h, fun _ => rfl⟩
  case isFalse h => exact ⟨fun hok => (nomatch hok), fun hlt => absurd hlt h⟩

namespace Access

variable {σ τ α β : Type}

/-! ### Single actions -/

/-- Asking leaves the table as it is. -/
@[simp] theorem on_ask (f : σ → α) (t : σ) : (ask f).on t = (.ok (f t), t) := rfl

/-- After a success the next action goes on with the result. -/
theorem on_bind_ok {x : Access σ α} {t t' : σ} {a : α} (h : x.on t = (.ok a, t'))
    (f : α → Access σ β) : (x >>= f).on t = (f a).on t' := by
  rw [on_bind, h]

/-- An action that succeeds leaves some table. -/
theorem exists_on_eq_ok {x : Access σ α} {t : σ} {a : α} (h : (x.on t).1 = .ok a) :
    ∃ t', x.on t = (.ok a, t') :=
  ⟨(x.on t).2, Prod.ext h rfl⟩

/-- What is made of the result does not matter to the table. -/
theorem on_bind_pure_snd (x : Access σ α) (f : α → β) (t : σ) :
    ((x >>= fun a => pure (f a)).on t).2 = (x.on t).2 := by
  rw [on_bind]
  cases x.on t with
  | mk r t' => cases r <;> rfl

/-- An action that starts with a look at the table. -/
@[simp] theorem on_get_bind (f : σ → Access σ β) (t : σ) : (get >>= f).on t = (f t).on t :=
  on_bind_ok rfl f

/-- An action that starts with a check. -/
theorem on_ofExcept_bind_ok {r : Except Error α} {a : α} (h : r = .ok a)
    (f : α → Access σ β) (t : σ) :
    (ofExcept r >>= f).on t = (f a).on t := by
  rw [on_bind, on_ofExcept, h]

/-- A failed step ends an action, which leaves the table as it is. -/
theorem on_ofExcept_bind_error {r : Except Error α} {e : Error} (h : r = .error e)
    (f : α → Access σ β) (t : σ) : (ofExcept r >>= f).on t = (.error e, t) := by
  rw [on_bind, on_ofExcept, h]

/-! ### Invariants -/

/-- On a table with `I` the action leaves a table with `I`, and its result has `Q`. -/
def Keeps (I : σ → Prop) (x : Access σ α) (Q : α → Prop) : Prop :=
  ∀ t, I t → I (x.on t).2 ∧ ∀ a, (x.on t).1 = .ok a → Q a

variable {I : σ → Prop} {Q R : α → Prop}

/-- Less may be said about the result. -/
theorem Keeps.imp {x : Access σ α} (h : Keeps I x Q) (hQ : ∀ a, Q a → R a) : Keeps I x R :=
  fun t ht => ⟨(h t ht).1, fun a ha => hQ a ((h t ht).2 a ha)⟩

/-- A result that is given without an action keeps everything. -/
theorem keeps_pure {a : α} (ha : Q a) : Keeps I (pure a : Access σ α) Q := by
  intro t ht
  refine ⟨ht, ?_⟩
  rintro _ ⟨⟩
  exact ha

/-- A failure keeps everything, and makes no promise about a result. -/
theorem keeps_throw (e : Error) : Keeps I (throw e : Access σ α) Q :=
  fun _ ht => ⟨ht, fun _ h => nomatch h⟩

/-- A result from elsewhere keeps everything, and is as good as it was there. -/
theorem keeps_ofExcept {r : Except Error α} (h : ∀ a, r = .ok a → Q a) :
    Keeps I (ofExcept r : Access σ α) Q :=
  fun _ ht => ⟨ht, h⟩

/-- Looking at the table keeps it, and what is seen has what the table has. -/
theorem keeps_get : Keeps I (get : Access σ σ) I := by
  intro t ht
  refine ⟨ht, ?_⟩
  rintro _ ⟨⟩
  exact ht

/-- A change of the table keeps what survives it. -/
theorem keeps_modify {f : σ → σ} (h : ∀ t, I t → I (f t)) :
    Keeps I (modify f : Access σ PUnit) fun _ => True :=
  fun t ht => ⟨h t ht, fun _ _ => trivial⟩

/-- One action after another: the second one may count on what the first one gives. -/
theorem Keeps.bind {x : Access σ α} {f : α → Access σ β} {Q' : β → Prop} (hx : Keeps I x Q)
    (hf : ∀ a, Q a → Keeps I (f a) Q') : Keeps I (x >>= f) Q' := by
  intro t ht
  obtain ⟨hkeep, hres⟩ := hx t ht
  rw [on_bind]
  cases h : x.on t with
  | mk r t' =>
      rw [h] at hkeep hres
      cases r with
      | error e => exact ⟨hkeep, fun _ h => nomatch h⟩
      | ok a => exact hf a (hres a rfl) t' hkeep

/-- An action for every member of a list. -/
theorem Keeps.mapM {f : α → Access σ β} {Q : α → β → Prop} {as : List α}
    (h : ∀ a ∈ as, Keeps I (f a) (Q a)) :
    Keeps I (as.mapM f) fun bs => List.Forall₂ Q as bs := by
  induction as with
  | nil =>
      rw [List.mapM_nil]
      exact keeps_pure .nil
  | cons a as ih =>
      rw [List.mapM_cons]
      refine (h a List.mem_cons_self).bind fun b hb => ?_
      refine (ih fun a' ha' => h a' (List.mem_cons_of_mem a ha')).bind fun bs hbs => ?_
      exact keeps_pure (.cons hb hbs)

/-! ### Successes -/

/-- On a table with `I` the action succeeds, and leaves a table that has `K` with the
result. -/
def Ensures (I : σ → Prop) (x : Access σ α) (K : α → σ → Prop) : Prop :=
  ∀ t, I t → ∃ a, (x.on t).1 = .ok a ∧ K a (x.on t).2

variable {K K' : α → σ → Prop}

/-- An action that ensures something ensures what follows from it. -/
theorem Ensures.imp {x : Access σ α} (h : Ensures I x K) (hK : ∀ a t, K a t → K' a t) :
    Ensures I x K' :=
  fun t ht => (h t ht).imp fun a ha => ⟨ha.1, hK a _ ha.2⟩

/-- More may be asked of the table. -/
theorem Ensures.of_imp {J : σ → Prop} {x : Access σ α} (h : Ensures I x K)
    (hJ : ∀ t, J t → I t) :
    Ensures J x K :=
  fun t ht => h t (hJ t ht)

/-- A given result is a success if the tables are as they should be. -/
theorem ensures_pure {a : α} (h : ∀ t, I t → K a t) : Ensures I (pure a : Access σ α) K :=
  fun t ht => ⟨a, rfl, h t ht⟩

/-- A result from elsewhere is a success of the action if it is one. -/
theorem ensures_ofExcept {r : Except Error α} (h : ∀ t, I t → ∃ a, r = .ok a ∧ K a t) :
    Ensures I (ofExcept r : Access σ α) K :=
  h

/-- Looking at the table succeeds with the table itself. -/
theorem ensures_get : Ensures I (get : Access σ σ) fun a t => a = t ∧ I t :=
  fun t ht => ⟨t, rfl, rfl, ht⟩

/-- A change of the table succeeds. -/
theorem ensures_modify {f : σ → σ} {J : σ → Prop} (h : ∀ t, I t → J (f t)) :
    Ensures I (modify f : Access σ PUnit) fun _ => J :=
  fun t ht => ⟨⟨⟩, rfl, h t ht⟩

/-- One action after another: the second one may count on what the first one ensures. -/
theorem Ensures.bind {x : Access σ α} {f : α → Access σ β} {L : β → σ → Prop}
    (hx : Ensures I x K) (hf : ∀ a, Ensures (K a) (f a) L) : Ensures I (x >>= f) L := by
  intro t ht
  obtain ⟨a, ha, hK⟩ := hx t ht
  have hon : x.on t = (.ok a, (x.on t).2) := Prod.ext ha rfl
  rw [on_bind_ok hon]
  exact hf a _ hK

/-- What an action keeps, it ensures where it succeeds. -/
theorem Ensures.and_keeps {x : Access σ α} (hx : Ensures I x K) (hkeep : Keeps I x Q) :
    Ensures I x fun a t => K a t ∧ I t ∧ Q a := by
  intro t ht
  obtain ⟨a, ha, hK⟩ := hx t ht
  obtain ⟨hI, hQ⟩ := hkeep t ht
  exact ⟨a, ha, hK, hI, hQ a ha⟩

/-- An action for every member of a list, each of which leaves the table as the next one
needs it. -/
theorem Ensures.mapM {f : α → Access σ β} {as : List α}
    (h : ∀ a ∈ as, Ensures I (f a) fun _ => I) :
    Ensures I (as.mapM f) fun _ => I := by
  induction as with
  | nil =>
      rw [List.mapM_nil]
      exact ensures_pure fun _ ht => ht
  | cons a as ih =>
      rw [List.mapM_cons]
      refine (h a List.mem_cons_self).bind fun b => ?_
      refine (ih fun a' ha' => h a' (List.mem_cons_of_mem a ha')).bind fun bs => ?_
      exact ensures_pure fun _ ht => ht

end Access

end FormulaTable
