import FormulaTable.Column
import Mathlib.Data.List.Nodup

/-!
# Columns and their parts

What the content of a column says about its kind, its computation and its dependencies, and
how columns with distinct names are found.

* `Column.mem_dependencies_of_input` — an input is a dependency, or the stored column behind
  the column.
* `Column.mem_dependencies_withComputation` — what a column depends on once it is given a
  computation.
* `find?_name_eq_some` — a column is the one of its name.
-/

namespace FormulaTable

namespace Column

/-- The stored column that a column reads under its own name. -/
def own? (c : Column) (input : String) : Option Nat :=
  if input = c.name then c.source? else none

/-- An input is a dependency, unless it is the stored column behind the column itself. -/
theorem mem_dependencies_of_input {c : Column} {x : Computation} {input : String}
    (hx : c.computation? = some x) (hinput : input ∈ x.inputs)
    (hown : c.own? input = none) :
    input ∈ c.dependencies := by
  rw [computation?] at hx
  rw [dependencies]
  cases hcontent : c.content with
  | stored i k =>
      rw [hcontent] at hx
      cases hx
  | computed y =>
      rw [hcontent] at hx
      cases hx
      exact hinput
  | transformed i y =>
      rw [hcontent] at hx
      cases hx
      refine List.mem_filter.2 ⟨hinput, ?_⟩
      have hne : input ≠ c.name := by
        intro heq
        rw [own?, if_pos heq, source?, hcontent] at hown
        cases hown
      simpa using hne

/-- A stored column has the kind that it is stored with. -/
theorem kind_eq_of_content {c : Column} {i : Nat} {k : Kind} (h : c.content = .stored i k) :
    c.kind = k := by
  rw [kind, h]

/-- A column is computed exactly if it does not show a stored one. -/
theorem isComputed_iff {c : Column} : c.isComputed ↔ ∀ i k, c.content ≠ .stored i k := by
  rw [isComputed, computation?]
  cases c.content with
  | stored i k => exact ⟨fun h => (nomatch h), fun h => absurd rfl (h i k)⟩
  | _ => exact ⟨fun _ _ _ h => (nomatch h), fun _ => rfl⟩

/-- A column that shows a stored one depends on nothing. -/
theorem dependencies_eq_nil {c : Column} (h : c.isComputed = false) :
    c.dependencies = [] := by
  rw [isComputed, computation?] at h
  rw [dependencies]
  cases hcontent : c.content with
  | stored i k => rfl
  | _ =>
      rw [hcontent] at h
      cases h

/-- A column with a computation has the kind of its results. -/
theorem kind_eq_of_computation? {c : Column} {x : Computation}
    (h : c.computation? = some x) :
    c.kind = x.kind := by
  rw [computation?] at h
  rw [kind]
  cases hcontent : c.content with
  | stored i k =>
      rw [hcontent] at h
      cases h
  | _ =>
      rw [hcontent] at h
      cases h
      rfl

/-- A new computation leaves the name of a column. -/
@[simp] theorem withComputation_name (c : Column) (x : Computation) :
    (c.withComputation x).name = c.name := by
  rw [withComputation]
  cases c.source? <;> rfl

/-- A new computation leaves the stored column below. -/
@[simp] theorem withComputation_source? (c : Column) (x : Computation) :
    (c.withComputation x).source? = c.source? := by
  rw [withComputation]
  cases c.source? <;> rfl

/-- A new computation takes the place of the old one. -/
@[simp] theorem withComputation_computation? (c : Column) (x : Computation) :
    (c.withComputation x).computation? = some x := by
  rw [withComputation]
  cases c.source? <;> rfl

/-- A column that is given a computation depends on the inputs, except for the stored column
behind it. -/
theorem mem_dependencies_withComputation {c : Column} {x : Computation} {input : String} :
    input ∈ (c.withComputation x).dependencies ↔
      input ∈ x.inputs ∧ ¬ (input = c.name ∧ c.source?.isSome) := by
  rw [withComputation]
  cases c.source? with
  | none =>
      show input ∈ x.inputs ↔ _
      simp only [Option.isSome_none, Bool.false_eq_true, and_false,
        not_false_eq_true, and_true]
  | some i =>
      show input ∈ x.inputs.filter (· ≠ c.name) ↔ _
      simp only [List.mem_filter, decide_eq_true_eq, Option.isSome_some, and_true, ne_eq]

/-- A computation makes a computed column of every name that is not blank. -/
theorem define_computed_eq_ok {name : String} {x : Computation} {c : Column} :
    define name x.kind none (some x) = .ok c ↔
      Text.isBlankText name = false ∧ c = computed name x := by
  rw [define]
  cases Text.isBlankText name with
  | true =>
      constructor
      · rintro ⟨⟩
      · rintro ⟨⟨⟩, _⟩
  | false =>
      simp only [ne_eq, not_true_eq_false, if_false, Bool.false_eq_true, true_and]
      exact ⟨fun h => (Except.ok.inj h).symm, fun h => h ▸ rfl⟩

/-- A column goes back to the stored one that it stands for. -/
theorem withoutComputation_eq_ok {c d : Column} {kind : Kind} {i : Nat}
    (h : c.source? = some i) :
    c.withoutComputation kind = .ok d ↔
      Text.isBlankText c.name = false ∧ d = stored c.name kind i := by
  rw [withoutComputation, h, define]
  cases Text.isBlankText c.name with
  | true =>
      constructor
      · rintro ⟨⟩
      · rintro ⟨⟨⟩, _⟩
  | false =>
      simp only [if_false, Bool.false_eq_true, true_and]
      exact ⟨fun h => (Except.ok.inj h).symm, fun h => h ▸ rfl⟩

/-- A column without a computation shows a stored one. -/
theorem exists_content_eq_stored {c : Column} (h : c.computation? = none) :
    ∃ i, c.content = .stored i c.kind := by
  rw [computation?] at h
  rw [kind]
  cases hcontent : c.content with
  | stored i k => exact ⟨i, rfl⟩
  | _ =>
      rw [hcontent] at h
      cases h

/-- A column shows a stored one, or has a computation. -/
theorem stored_or_isComputed (c : Column) :
    (∃ i, c.content = .stored i c.kind) ∨ c.isComputed = true := by
  cases hx : c.computation? with
  | none => exact .inl (exists_content_eq_stored hx)
  | some x =>
      right
      rw [isComputed, hx]
      rfl

end Column

/-- In a list with distinct names a column is found by its name. -/
theorem find?_name_eq_some {columns : List Column} (h : (columns.map (·.name)).Nodup)
    {name : String} {c : Column} :
    columns.find? (·.name = name) = some c ↔ c ∈ columns ∧ c.name = name := by
  constructor
  · intro hfind
    exact ⟨List.mem_of_find?_eq_some hfind, by simpa using List.find?_some hfind⟩
  · rintro ⟨hc, rfl⟩
    cases hfind : columns.find? (·.name = c.name) with
    | none =>
        have hnone := List.find?_eq_none.1 hfind c hc
        simp at hnone
    | some d =>
        have hd := List.mem_of_find?_eq_some hfind
        have hname : d.name = c.name := by simpa using List.find?_some hfind
        rw [List.inj_on_of_nodup_map h hd hc hname]

end FormulaTable
