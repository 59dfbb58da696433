import FormulaTable.Computation.Basic
import FormulaTable.Proofs.Result

/-!
# When a draft compiles

A draft compiles if it has a text and a kind, its settings are valid, and its text is a
formula that may be evaluated and whose inputs can be chosen. The computation keeps what it
was made from.

* `compile_eq_ok` — when a draft compiles, and to what.
-/

namespace FormulaTable.Draft

/-- **A draft compiles** exactly when all of its parts are accepted. -/
theorem compile_eq_ok {d : Draft} {x : Computation} :
    d.compile = .ok x ↔ Text.isBlankText d.source = false ∧ ∃ kind formula inputs,
      d.kind = some kind ∧ d.config.validate = .ok () ∧
        Formula.parse d.config.depthLimit d.source = .ok formula ∧
        formula.check (environment (d.registry.getD .standard) d.config)
        d.config.depthLimit = .ok () ∧ chooseInputs d.inputs formula = .ok inputs ∧
        x = ⟨d.source, inputs, kind,
          .ofFormula (environment (d.registry.getD .standard) d.config) inputs formula,
          d.registry.getD .standard, d.config⟩ := by
  rw [compile]
  cases hblank : Text.isBlankText d.source with
  | true =>
      constructor
      · rintro ⟨⟩
      · rintro ⟨⟨⟩, _⟩
  | false =>
      cases hkind : d.kind with
      | none =>
          constructor
          · rintro ⟨⟩
          · rintro ⟨_, _, _, _, ⟨⟩, _⟩
      | some kind =>
          constructor
          · intro h
            obtain ⟨⟨⟩, hvalid, h⟩ := bind_eq_ok.1 h
            obtain ⟨formula, hparse, h⟩ := bind_eq_ok.1 h
            obtain ⟨⟨⟩, hcheck, h⟩ := bind_eq_ok.1 h
            obtain ⟨inputs, hinputs, h⟩ := bind_eq_ok.1 h
            exact ⟨rfl, kind, formula, inputs, rfl, hvalid, hparse, hcheck, hinputs,
              (Except.ok.inj h).symm⟩
          · rintro ⟨-, _, formula, inputs, ⟨⟩, hvalid, hparse, hcheck, hinputs, rfl⟩
            exact bind_eq_ok.2
              ⟨(), hvalid, bind_eq_ok.2 ⟨formula, hparse, bind_eq_ok.2 ⟨(), hcheck,
              bind_eq_ok.2 ⟨inputs, hinputs, rfl⟩⟩⟩⟩

end FormulaTable.Draft
