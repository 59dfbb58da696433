import FormulaTable.Formula.Reading
import FormulaTable.Proofs.Formula.Parts
import FormulaTable.Proofs.Formula.Reader

/-!
# Texts that are formulas

A text is a formula when its nesting stays within the limit, its tokens follow the grammar,
and no constant or node of what is read is refused.

* `parse_eq_ok` — when a text is read, and as what.
* `resolve_unique` — the constants of a formula do not depend on where it stands.
-/

namespace FormulaTable

namespace Grammar

/-- Sketches are resolved one by one. -/
theorem resolveAll_eq (limit depth : Nat) (ts : List Sketch) :
    resolveAll limit depth ts = ts.mapM (resolve limit depth) := by
  induction ts with
  | nil => rfl
  | cons t ts ih => rw [resolveAll, ih, List.mapM_cons]

/-- A node is resolved when it is not below the limit and its parts are resolved. -/
theorem guard_eq_ok {limit depth : Nat} {k : PUnit → Except SketchFault Formula}
    {f : Formula} :
    (if limit < depth then throw SketchFault.tooDeep >>= k else k ⟨⟩) = .ok f ↔
      depth ≤ limit ∧ k ⟨⟩ = .ok f := by
  split
  case isTrue h => exact ⟨fun h => (nomatch h), fun h' => absurd h (Nat.not_lt.2 h'.1)⟩
  case isFalse h => exact ⟨fun h' => ⟨Nat.not_lt.1 h, h'⟩, And.right⟩

/-- **The constants of a formula** do not depend on its depth or on the limit. -/
theorem resolve_unique {s : Sketch} {limit limit' depth depth' : Nat} {f f' : Formula}
    (h : resolve limit depth s = .ok f) (h' : resolve limit' depth' s = .ok f') :
    f = f' := by
  induction s using Tree.induction generalizing depth depth' f f' with
  | literal l =>
      rw [resolve, guard_eq_ok, bind_eq_ok] at h h'
      obtain ⟨-, v, hv, ⟨⟩⟩ := h
      obtain ⟨-, v', hv', ⟨⟩⟩ := h'
      rw [Except.ok.inj (hv.symm.trans hv')]
  | column name =>
      rw [resolve, guard_eq_ok] at h h'
      exact Except.ok.inj (h.2.symm.trans h'.2)
  | unary op s ih =>
      rw [resolve, guard_eq_ok, bind_eq_ok] at h h'
      obtain ⟨-, g, hg, ⟨⟩⟩ := h
      obtain ⟨-, g', hg', ⟨⟩⟩ := h'
      rw [ih hg hg']
  | binary op l r hl hr =>
      rw [resolve, guard_eq_ok, bind_eq_ok] at h h'
      obtain ⟨-, fl, hfl, h⟩ := h
      obtain ⟨fr, hfr, ⟨⟩⟩ := bind_eq_ok.1 h
      obtain ⟨-, fl', hfl', h'⟩ := h'
      obtain ⟨fr', hfr', ⟨⟩⟩ := bind_eq_ok.1 h'
      rw [hl hfl hfl', hr hfr hfr']
  | conditional c y n hc hy hn =>
      rw [resolve, guard_eq_ok, bind_eq_ok] at h h'
      obtain ⟨-, fc, hfc, h⟩ := h
      obtain ⟨fy, hfy, h⟩ := bind_eq_ok.1 h
      obtain ⟨fn, hfn, ⟨⟩⟩ := bind_eq_ok.1 h
      obtain ⟨-, fc', hfc', h'⟩ := h'
      obtain ⟨fy', hfy', h'⟩ := bind_eq_ok.1 h'
      obtain ⟨fn', hfn', ⟨⟩⟩ := bind_eq_ok.1 h'
      rw [hc hfc hfc', hy hfy hfy', hn hfn hfn']
  | call name args ih =>
      rw [resolve, guard_eq_ok, bind_eq_ok, resolveAll_eq] at h h'
      obtain ⟨-, fs, hfs, ⟨⟩⟩ := h
      obtain ⟨-, fs', hfs', ⟨⟩⟩ := h'
      have hsame : List.Forall₂ (· = ·) fs fs' :=
        forall₂_of_mapM_eq_ok hfs hfs' fun s hs f f' hf hf' => ih s hs hf hf'
      rw [List.forall₂_eq_eq_eq] at hsame
      rw [hsame]

/-- Behind a guard for the depth, a fault is that of the guard or of what follows. -/
theorem guard_eq_error {limit depth : Nat} {k : PUnit → Except SketchFault Formula}
    {e : SketchFault}
    (h : (if limit < depth then throw SketchFault.tooDeep >>= k else k ⟨⟩) = .error e) :
    e = .tooDeep ∨ k ⟨⟩ = .error e := by
  split at h
  · cases h
    exact .inl rfl
  · exact .inr h

/-- A formula whose constants are accepted somewhere can only be too deep elsewhere. -/
theorem tooDeep_of_resolve {s : Sketch} {limit limit' depth depth' : Nat} {f : Formula}
    {e : SketchFault} (h : resolve limit depth s = .ok f)
    (h' : resolve limit' depth' s = .error e) : e = .tooDeep := by
  induction s using Tree.induction generalizing depth depth' f with
  | literal l =>
      rw [resolve, guard_eq_ok, bind_eq_ok] at h
      obtain ⟨-, v, hv, -⟩ := h
      rw [resolve, hv] at h'
      exact (guard_eq_error h').resolve_right fun h => (nomatch h)
  | column name =>
      rw [resolve] at h'
      exact (guard_eq_error h').resolve_right fun h => (nomatch h)
  | unary op s ih =>
      rw [resolve, guard_eq_ok, bind_eq_ok] at h
      obtain ⟨-, g, hg, -⟩ := h
      rw [resolve] at h'
      rcases guard_eq_error h' with he | h'
      · exact he
      rcases bind_eq_error.1 h' with h' | ⟨_, -, ⟨⟩⟩
      exact ih hg h'
  | binary op l r hl hr =>
      rw [resolve, guard_eq_ok, bind_eq_ok] at h
      obtain ⟨-, fl, hfl, h⟩ := h
      obtain ⟨fr, hfr, -⟩ := bind_eq_ok.1 h
      rw [resolve] at h'
      rcases guard_eq_error h' with he | h'
      · exact he
      rcases bind_eq_error.1 h' with h' | ⟨_, -, h'⟩
      · exact hl hfl h'
      rcases bind_eq_error.1 h' with h' | ⟨_, -, ⟨⟩⟩
      exact hr hfr h'
  | conditional c y n hc hy hn =>
      rw [resolve, guard_eq_ok, bind_eq_ok] at h
      obtain ⟨-, fc, hfc, h⟩ := h
      obtain ⟨fy, hfy, h⟩ := bind_eq_ok.1 h
      obtain ⟨fn, hfn, -⟩ := bind_eq_ok.1 h
      rw [resolve] at h'
      rcases guard_eq_error h' with he | h'
      · exact he
      rcases bind_eq_error.1 h' with h' | ⟨_, -, h'⟩
      · exact hc hfc h'
      rcases bind_eq_error.1 h' with h' | ⟨_, -, h'⟩
      · exact hy hfy h'
      rcases bind_eq_error.1 h' with h' | ⟨_, -, ⟨⟩⟩
      exact hn hfn h'
  | call name args ih =>
      rw [resolve, guard_eq_ok, bind_eq_ok, resolveAll_eq] at h
      obtain ⟨-, fs, hfs, -⟩ := h
      rw [resolve, resolveAll_eq] at h'
      rcases guard_eq_error h' with he | h'
      · exact he
      rcases bind_eq_error.1 h' with h' | ⟨_, -, ⟨⟩⟩
      obtain ⟨s, hs, h'⟩ := exists_of_mapM_eq_error h'
      obtain ⟨g, hg⟩ := exists_of_mapM_eq_ok hfs hs
      exact ih s hs hg h'

end Grammar

namespace Formula

/-- **A text is read as a formula** when its nesting, its grammar and its constants are
accepted. -/
theorem parse_eq_ok {limit : Nat} {text : String} {f : Formula} :
    parse limit text = .ok f ↔ Nesting.within limit text.toList = true ∧
      ∃ sketch, Grammar.read (Token.ofText text.toList) = .ok sketch ∧
        Grammar.resolve limit 1 sketch = .ok f := by
  rw [parse, parseChars, Token.ofText]
  cases hwithin : Nesting.within limit text.toList with
  | false =>
      constructor
      · rintro ⟨⟩
      · rintro ⟨⟨⟩, _⟩
  | true =>
      simp only [Bool.not_true, Bool.false_eq_true, if_false, true_and]
      cases hread : Grammar.read ((Token.lexemes text.toList).map (·.token)) with
      | error stop =>
          constructor
          · intro h
            cases stop <;> cases h
          · rintro ⟨_, ⟨⟩, _⟩
      | ok sketch =>
          simp only [Except.ok.injEq, exists_eq_left']
          cases Grammar.resolve limit 1 sketch with
          | ok g =>
              constructor
              · rintro ⟨⟩
                rfl
              · rintro ⟨⟩
                rfl
          | error fault =>
              constructor
              · intro h
                cases fault <;> cases h
              · rintro ⟨⟩

/-- **Another limit** does not change what a text is read as; it can only be too low for
it. -/
theorem parse_of_parse {limit : Nat} {text : String} {f : Formula}
    (h : parse limit text = .ok f) (limit' : Nat) :
    parse limit' text = .ok f ∨ parse limit' text = .error (.nestingTooDeep limit') := by
  obtain ⟨-, sketch, hread, hresolve⟩ := parse_eq_ok.1 h
  cases hwithin : Nesting.within limit' text.toList with
  | false =>
      refine .inr ?_
      rw [parse, parseChars, hwithin]
      rfl
  | true =>
      cases hresolve' : Grammar.resolve limit' 1 sketch with
      | ok g =>
          rw [Grammar.resolve_unique hresolve hresolve']
          exact .inl (parse_eq_ok.2 ⟨hwithin, sketch, hread, hresolve'⟩)
      | error e =>
          obtain rfl := Grammar.tooDeep_of_resolve hresolve hresolve'
          refine .inr ?_
          rw [Token.ofText] at hread
          rw [parse, parseChars, hwithin]
          simp only [Bool.not_true, Bool.false_eq_true, if_false, hread, hresolve']

/-- A text of blanks is no formula. -/
theorem isBlankText_of_parse {limit : Nat} {text : String} {f : Formula}
    (h : parse limit text = .ok f) :
    Text.isBlankText text = false := by
  obtain ⟨-, sketch, hread, -⟩ := parse_eq_ok.1 h
  by_contra hblank
  rw [Bool.not_eq_false, Text.isBlankText, List.all_eq_true] at hblank
  rcases Token.ofText_of_isBlank hblank with hnil | hillegal
  · rw [hnil] at hread
    cases hread
  · exact Grammar.illegal_notMem_of_read hread hillegal

end Formula

end FormulaTable
