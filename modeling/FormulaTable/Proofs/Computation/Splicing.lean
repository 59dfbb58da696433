import FormulaTable.Proofs.Computation.Composition
import FormulaTable.Proofs.Computation.Whitelist
import FormulaTable.Proofs.Formula.Matching

/-!
# Splicing

The text of a joined computation is spliced from the texts of its operands. Whatever these
texts are, the result is read as the connective applied to what the operands are read as, by
the reader of tokens as well as by the rules on characters; and it is accepted unless it is
nested too deeply, since all that it calls is permitted already and no input is listed
twice.

* `Computation.recompile_eq` — what becomes of a text that is compiled again, if it is known
  what it is read as.
* `Computation.spliced` — what becomes of joined and negated computations.
-/

namespace FormulaTable

namespace Computation

variable {x a b : Computation}

/-- The functions that a computation may call. -/
def environment (x : Computation) : Environment := Draft.environment x.registry x.config

/-- **A text that is compiled again** fails only if it is nested too deeply. -/
theorem recompile_eq {d : Draft} (hx : d.compile = .ok x) {source : String}
    {inputs : List String} {f : Formula} (hread : f.ReadAs source)
    (hpermitted : f.Permitted x.environment) (hinputs : inputs.Nodup) :
    x.recompile source inputs =
      if Nesting.within x.config.depthLimit source.toList = true ∧
        f.depth ≤ x.config.depthLimit then
        .ok ⟨source, inputs, .bool, .ofFormula x.environment inputs f, x.registry, x.config⟩
      else .error (.nestingTooDeep x.config.depthLimit) := by
  have hvalid : x.config.validate = .ok () := by
    obtain ⟨-, kind, formula, inputs', -, hvalid, -, -, -, rfl⟩ := Draft.compile_eq_ok.1 hx
    exact hvalid
  have hblank : Text.isBlankText source = false := hread.isBlankText
  have hparse := hread x.config.depthLimit
  split at hparse
  case isTrue hfits =>
    rw [if_pos hfits]
    refine Draft.compile_eq_ok.2
      ⟨hblank, .bool, f, inputs, rfl, hvalid, hparse, ?_, ?_, rfl⟩
    · exact Formula.check_eq_ok.2 ⟨hfits.2, hpermitted⟩
    · rw [Draft.chooseInputs, firstRepeat?_eq_none.2 hinputs]
  case isFalse hexceeds =>
    rw [if_neg hexceeds]
    exact Draft.compile_eq_error_of_parse hblank rfl hvalid hparse

/-- What becomes of a text spliced from others: it is read as the formula, with the inputs,
or it is refused for its nesting. -/
structure Spliced (limit : Nat) (text : String) (f : Formula) (inputs : List String)
    (r : Except Error Computation) : Prop where
  /-- It is refused for nothing else. -/
  refused : ∀ e, r = .error e → e = .nestingTooDeep limit
  /-- It is accepted if neither the text nor the formula exceeds the limit. -/
  accepted : (∃ c, r = .ok c) ↔ Nesting.within limit text.toList = true ∧ f.depth ≤ limit
  /-- Then it is read as the formula, -/
  parsed : ∀ c, r = .ok c → c.source = text ∧ c.config.depthLimit = limit ∧
    Formula.parse limit c.source = .ok f
  /-- also by the rules of the grammar on its characters, -/
  matched : ∀ c, r = .ok c →
    ∃ p, Matching.matchText (limit + 1) c.source.toList = .ok p ∧ p.build limit 1 = .ok f
  /-- with the inputs, none of which is there twice. -/
  inputs_eq : ∀ c, r = .ok c → c.inputs = inputs ∧ c.inputs.Nodup

/-- A text that is read as a permitted formula is compiled to it, if it fits into the
limit. -/
theorem spliced_recompile {d : Draft} (hx : d.compile = .ok x) {source : String}
    {inputs : List String} {f : Formula} (hread : f.ReadAs source)
    (hpermitted : f.Permitted x.environment) (hinputs : inputs.Nodup) :
    Spliced x.config.depthLimit source f inputs (x.recompile source inputs) := by
  have hparse := hread x.config.depthLimit
  rw [recompile_eq hx hread hpermitted hinputs]
  split
  case isTrue hfits =>
    rw [if_pos hfits] at hparse
    refine ⟨nofun, iff_of_true ⟨_, rfl⟩ hfits, ?_, ?_, ?_⟩
    · rintro _ ⟨⟩
      exact ⟨rfl, rfl, hparse⟩
    · rintro _ ⟨⟩
      exact (Formula.parse_eq_ok_iff_matchText.1 hparse).2
    · rintro _ ⟨⟩
      exact ⟨rfl, hinputs⟩
  case isFalse hexceeds =>
    refine ⟨?_, iff_of_false (fun ⟨_, hok⟩ => nomatch hok) hexceeds, nofun, nofun, nofun⟩
    rintro _ ⟨⟩
    rfl

/-- What becomes of two computations when their texts are spliced. -/
structure Splices (a b : Computation) (limit : Nat) (f g : Formula) : Prop where
  and : Spliced limit ("(" ++ a.source ++ ") && (" ++ b.source ++ ")") (.binary .and f g)
    (a.inputs ++ b.inputs.filter fun name => !a.inputs.contains name) (and a b)
  or : Spliced limit ("(" ++ a.source ++ ") || (" ++ b.source ++ ")") (.binary .or f g)
    (a.inputs ++ b.inputs.filter fun name => !a.inputs.contains name) (or a b)
  not : Spliced limit ("!(" ++ a.source ++ ")") (.unary .not f) a.inputs (not a)

/-- **Splicing does not change the structure of the texts**: joined computations are read as
the connectives of what their operands are read as, or they are nested too deeply. -/
theorem spliced {da db : Draft} (ha : da.compile = .ok a) (hb : db.compile = .ok b)
    (hregistry : b.registry = a.registry) (hconfig : b.config = a.config) :
    ∃ f g, Formula.parse a.config.depthLimit a.source = .ok f ∧
      Formula.parse a.config.depthLimit b.source = .ok g ∧
      a.Splices b a.config.depthLimit f g := by
  obtain ⟨f, hparseA, hf, hrunsA⟩ := Draft.runs_of_compile ha
  obtain ⟨g, hparseB, hg, hrunsB⟩ := Draft.runs_of_compile hb
  rw [hregistry, hconfig] at hg
  rw [hconfig] at hparseB
  have hjoin : ∀ op : BinaryOp, op.isComparison = false →
      Spliced a.config.depthLimit
        ("(" ++ a.source ++ ") " ++ op.symbol ++ " (" ++ b.source ++ ")") (.binary op f g)
        (a.inputs ++ b.inputs.filter fun name => !a.inputs.contains name)
            (join op a b) := by
    intro op hop
    rw [← mergeNames_eq_append hrunsB.nodup]
    exact spliced_recompile ha (Formula.readAs_joined hop hparseA hparseB)
      (Formula.permitted_binary.2 ⟨hf, hg⟩)
      (nodup_mergeNames hrunsA.nodup)
  have htext : ∀ before op after : String,
      "(" ++ before ++ ") " ++ op ++ " (" ++ after ++ ")" =
      "(" ++ before ++ (") " ++ op ++ " (") ++ after ++ ")" := fun before op after => by
    simp only [String.append_assoc]
  refine ⟨f, g, hparseA, hparseB, ?_, ?_, ?_⟩
  · have hand := hjoin .and rfl
    rwa [htext] at hand
  · have hor := hjoin .or rfl
    rwa [htext] at hor
  · exact spliced_recompile ha (Formula.readAs_negated hparseA)
      (Formula.permitted_unary.2 hf) hrunsA.nodup

end Computation

/-- A bracket in quotes stays in its operand, and so does a ternary at the end of the other
one. -/
theorem Draft.spliced_truth : ∃ a b, (truth "s == ') || ('" none).compile = .ok a ∧
    (truth "x ? s : y or x" (some ["x", "s"])).compile = .ok b ∧ b.registry = a.registry ∧
    b.config = a.config ∧ (∃ c, Computation.and a b = .ok c ∧ c.inputs = ["s", "x"]) ∧
    ∃ f g, Formula.parse a.config.depthLimit a.source = .ok f ∧
      Formula.parse a.config.depthLimit b.source = .ok g ∧
      a.Splices b a.config.depthLimit f g := by
  obtain ⟨joined, hcompile, hinputs⟩ := exists_of_any_toOption
    (x := do
      let a ← (truth "s == ') || ('" none).compile
      let b ← (truth "x ? s : y or x" (some ["x", "s"])).compile
      Computation.and a b)
    (p := fun c => c.inputs == ["s", "x"]) (by decide +kernel)
  obtain ⟨a, ha, hcompile⟩ := bind_eq_ok.1 hcompile
  obtain ⟨b, hb, hand⟩ := bind_eq_ok.1 hcompile
  obtain ⟨-, hregistryA, hconfigA⟩ := parts_of_compile_truth ha
  obtain ⟨-, hregistryB, hconfigB⟩ := parts_of_compile_truth hb
  have hregistry := hregistryB.trans hregistryA.symm
  have hconfig := hconfigB.trans hconfigA.symm
  exact ⟨a, b, ha, hb, hregistry, hconfig, ⟨joined, hand, beq_iff_eq.1 hinputs⟩,
    Computation.spliced ha hb hregistry hconfig⟩

end FormulaTable
