/-!
# Lists of names

Columns and inputs are listed by name, and a name should not occur twice. `firstOccurrences`
leaves each name where it occurs first, and `firstRepeat?` finds the first one that occurred
before. Where every name is listed with something, it is found by its name.
-/

namespace FormulaTable

/-- The list without the members that occur earlier in it. -/
def firstOccurrences (names : List String) : List String :=
  names.foldl (fun seen name => if seen.contains name then seen else seen ++ [name]) []

/-- The first member that occurs earlier in the list, after the names already `seen`. -/
def firstRepeatAfter? (seen : List String) : List String → Option String
  | [] => none
  | name :: rest => if seen.contains name then some name
    else firstRepeatAfter? (name :: seen) rest

/-- The first member that occurs earlier in the list. -/
def firstRepeat? (names : List String) : Option String := firstRepeatAfter? [] names

/-- The first list, and those members of the second one that it lacks. -/
def mergeNames (names others : List String) : List String :=
  others.foldl (fun seen name => if seen.contains name then seen else seen ++ [name]) names

/-- A name is in the merged list when it is in one of the two. -/
theorem mem_mergeNames {names others : List String} {name : String} :
    name ∈ mergeNames names others ↔ name ∈ names ∨ name ∈ others := by
  induction others generalizing names with
  | nil => simp [mergeNames]
  | cons other rest ih =>
    rw [mergeNames, List.foldl_cons, ← mergeNames, ih]
    by_cases h : other ∈ names
    · simp only [List.contains_iff_mem, h, if_true, List.mem_cons]
      constructor
      · exact Or.imp_right Or.inr
      · rintro (hname | rfl | hname)
        · exact .inl hname
        · exact .inl h
        · exact .inr hname
    · simp [h, or_assoc]

/-- Names that are merged into distinct ones stay distinct. -/
theorem nodup_mergeNames {names others : List String} (h : names.Nodup) :
    (mergeNames names others).Nodup := by
  induction others generalizing names with
  | nil => exact h
  | cons other rest ih =>
    rw [mergeNames, List.foldl_cons, ← mergeNames]
    refine ih ?_
    by_cases hother : other ∈ names
    · simpa [hother] using h
    · simpa [hother, List.nodup_append] using ⟨h, fun a ha heq => hother (heq ▸ ha)⟩

/-- What is merged comes after the first list, in its own order. -/
theorem mergeNames_eq_append {names others : List String} (h : others.Nodup) :
    mergeNames names others = names ++ others.filter fun name => !names.contains name := by
  induction others generalizing names with
  | nil => exact (List.append_nil names).symm
  | cons other rest ih =>
    obtain ⟨hother, hrest⟩ := List.nodup_cons.1 h
    rw [mergeNames, List.foldl_cons, ← mergeNames, ih hrest]
    by_cases hmem : other ∈ names
    · simp [hmem]
    · -- The name does not come again, so that it does not matter that it is there now.
      have hsame : rest.filter (fun name => !(names ++ [other]).contains name) =
          rest.filter fun name => !names.contains name := by
        refine List.filter_congr fun name hname => ?_
        have hne : name ≠ other := fun heq => hother (heq ▸ hname)
        simp [hne]
      simp only [List.contains_iff_mem, hmem, if_false, hsame, List.append_assoc,
        List.singleton_append]
      simp [hmem]

/-- A name occurs among the first occurrences exactly if it occurs at all. -/
theorem mem_firstOccurrences {names : List String} {name : String} :
    name ∈ firstOccurrences names ↔ name ∈ names := by
  rw [firstOccurrences, ← mergeNames, mem_mergeNames]
  simp

/-- Each name has only one first occurrence. -/
theorem nodup_firstOccurrences (names : List String) : (firstOccurrences names).Nodup :=
  nodup_mergeNames List.nodup_nil

/-- A further name is a first occurrence unless it has occurred before. -/
theorem firstOccurrences_append (names : List String) (name : String) :
    firstOccurrences (names ++ [name]) =
      if name ∈ names then firstOccurrences names
        else firstOccurrences names ++ [name] := by
  rw [firstOccurrences, List.foldl_append, ← firstOccurrences]
  simp [mem_firstOccurrences]

/-- Nothing occurs twice exactly in a list without duplicates. -/
theorem firstRepeatAfter?_eq_none {seen names : List String} :
    firstRepeatAfter? seen names = none ↔ names.Nodup ∧ ∀ name ∈ names, name ∉ seen := by
  induction names generalizing seen with
  | nil => simp [firstRepeatAfter?]
  | cons name rest ih =>
    by_cases h : name ∈ seen
    · simp [firstRepeatAfter?, h]
    · simp only [firstRepeatAfter?, List.contains_iff_mem, h, if_false, ih, List.mem_cons,
        List.nodup_cons, not_or, forall_eq_or_imp, not_false_eq_true, true_and]
      constructor
      · rintro ⟨nodup, apart⟩
        exact ⟨⟨fun hmem => (apart name hmem).1 rfl, nodup⟩,
          fun other hmem => (apart other hmem).2⟩
      · rintro ⟨⟨fresh, nodup⟩, apart⟩
        exact ⟨nodup, fun other hmem => ⟨fun heq => fresh (heq ▸ hmem), apart other hmem⟩⟩

/-- Nothing occurs twice exactly in a list without duplicates. -/
theorem firstRepeat?_eq_none {names : List String} :
    firstRepeat? names = none ↔ names.Nodup := by
  simp [firstRepeat?, firstRepeatAfter?_eq_none]

section Lookup

variable {β : Type} {l l' : List (String × β)} {name : String}

/-- What is no key is not found. -/
theorem lookup_eq_none_of_notMem (h : name ∉ l.map Prod.fst) : l.lookup name = none := by
  refine List.lookup_eq_none_iff.2 fun p hp => ?_
  rw [bne_iff_ne]
  rintro rfl
  exact h (List.mem_map_of_mem hp)

/-- If no name is listed twice, what is found under a name is what is listed under it. -/
theorem lookup_eq_some_of_nodup (nodup : (l.map Prod.fst).Nodup) {b : β} :
    l.lookup name = some b ↔ (name, b) ∈ l := by
  constructor
  · intro h
    obtain ⟨before, after, rfl, -⟩ := List.lookup_eq_some_iff.1 h
    simp
  · intro h
    obtain ⟨before, after, rfl⟩ := List.append_of_mem h
    refine List.lookup_eq_some_iff.2 ⟨before, after, rfl, fun p hp => ?_⟩
    rw [List.map_append, List.map_cons, List.nodup_append] at nodup
    rw [bne_iff_ne]
    exact (nodup.2.2 p.1 (List.mem_map_of_mem hp) name List.mem_cons_self).symm

/-- What is found under a name does not depend on the order of the list. -/
theorem lookup_perm (h : l.Perm l') (nodup : (l.map Prod.fst).Nodup) :
    l.lookup name = l'.lookup name := by
  refine Option.ext fun b => ?_
  rw [lookup_eq_some_of_nodup nodup,
    lookup_eq_some_of_nodup ((h.map Prod.fst).nodup_iff.1 nodup), h.mem_iff]

/-- Under a name that is not among the added ones is found what was found before. -/
theorem lookup_append_of_notMem (h : name ∉ l'.map Prod.fst) :
    (l ++ l').lookup name = l.lookup name := by
  rw [List.lookup_append, lookup_eq_none_of_notMem h, Option.or_none]

end Lookup

end FormulaTable
