import FormulaTable.Function.Basic
import FormulaTable.Text.Case
import FormulaTable.Text.Quoted

/-!
# Registries of functions

A registry holds functions under their names. The case of ASCII letters in a name does not
matter, and a function that is registered under the name of another replaces it. Functions
are kept in the order of their folded names, which is the order in which they are listed.

* `find?_register` — what a registry holds under a name after a function was registered.
-/

namespace FormulaTable

/-- Functions by their folded names, in ascending order. -/
structure Registry where
  entries : List (String × SeriesFunction)

namespace Registry

/-- No function. -/
def empty : Registry := ⟨[]⟩

/-- Puts a function under a folded name into an ascending list. -/
def insertEntry (key : String) (f : SeriesFunction) :
    List (String × SeriesFunction) → List (String × SeriesFunction)
  | [] => [(key, f)]
  | e :: rest =>
    if key = e.1 then (key, f) :: rest
    else if key < e.1 then (key, f) :: e :: rest
    else e :: insertEntry key f rest

/-- The registry with one more function, or another one under the name. -/
def register (r : Registry) (f : SeriesFunction) : Registry :=
  ⟨insertEntry (Text.foldName f.name) f r.entries⟩

/-- The registry of the given functions; of two under one name the later one stays. -/
def ofList (functions : List SeriesFunction) : Registry := functions.foldl register empty

/-- The function of a name. -/
def find? (r : Registry) (name : String) : Option SeriesFunction :=
  r.entries.lookup (Text.foldName name)

/-- The function of a name, or an error. -/
def lookup (r : Registry) (name : String) : Except Error SeriesFunction :=
  match r.find? name with
  | some f => .ok f
  | none => .error (.functionNotFound name)

/-- Is there a function of this name? -/
def contains (r : Registry) (name : String) : Bool := (r.find? name).isSome

/-- The folded names. -/
def names (r : Registry) : List String := r.entries.map (·.1)

/-- The functions that treat every row by itself. -/
def elementwise (r : Registry) : List SeriesFunction :=
  (r.entries.map (·.2)).filter (·.category.isElementwise)

/-- The number of functions. -/
def size (r : Registry) : Nat := r.entries.length

/-- Is there no function? -/
def isEmpty (r : Registry) : Bool := r.entries.isEmpty

/-- The text of a registry in diagnostics. -/
def description (r : Registry) : String :=
  "FunctionRegistry \x7b functions: " ++ Text.quotedList r.names ++ " \x7d"

/-- Looking up a key examines the first entry first. -/
theorem lookup_entry (other : String) (e : String × SeriesFunction)
    (rest : List (String × SeriesFunction)) :
    (e :: rest).lookup other = if other = e.1 then some e.2 else rest.lookup other := by
  obtain ⟨key, f⟩ := e
  by_cases h : other = key
  · simp [h]
  · have hne : (other == key) = false := by simpa using h
    simp [List.lookup_cons, hne, h]

/-- What a list of entries holds under a key after another entry was put in. -/
theorem lookup_insertEntry (key other : String) (f : SeriesFunction)
    (entries : List (String × SeriesFunction)) :
    (insertEntry key f entries).lookup other = if other = key then some f
      else entries.lookup other := by
  induction entries with
  | nil => rw [insertEntry, lookup_entry]
  | cons e rest ih =>
    unfold insertEntry
    by_cases hkey : key = e.1
    · rw [if_pos hkey, lookup_entry, lookup_entry]
      by_cases h : other = key <;> simp [h, ← hkey]
    · rw [if_neg hkey]
      split
      · rw [lookup_entry]
      · rw [lookup_entry, lookup_entry, ih]
        by_cases h : other = key
        · simp [h, hkey]
        · simp [h]

/-- What a registry holds under a name after a function was registered. -/
theorem find?_register (r : Registry) (f : SeriesFunction) (name : String) :
    (r.register f).find? name = if Text.sameName name f.name then some f
      else r.find? name := by
  simp only [find?, register, lookup_insertEntry, Text.sameName, beq_iff_eq]

end Registry

end FormulaTable
