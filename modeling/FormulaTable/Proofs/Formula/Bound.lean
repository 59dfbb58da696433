import FormulaTable.Proofs.Formula.Leaves
import FormulaTable.Proofs.Formula.Scanning
import FormulaTable.Proofs.Result

/-!
# The nesting check bounds the recursion

The rules of the grammar may be tried at many places, and matches may be given up again.
Wherever a rule is tried, the scan of the nesting has accepted the text from there on, in a
state that the rule's own place explains: what a match of `expression` needs to contain
another one is open in the scan as well.

* `Contract` — what a rule makes of the state of the scan; one lemma for each way to build a
  rule.
* `fits_expression` — the budget of a formula is what its place leaves of the limit.
* `recursionBounded` — no more matches are active than the limit says, on any text.
-/

namespace FormulaTable

namespace Nesting

/-- The levels with more ternaries open in the innermost bracket. -/
def Levels.ternaries (l : Levels) (k : Nat) : Levels := ⟨l.depth + k, l.inner + k, l.outer⟩

variable {l : Levels}

/-- A bracket that closes takes the ternaries in it along. -/
theorem Levels.closeBracket_ternaries (k : Nat) :
    (l.openBracket.ternaries k).closeBracket = l := by
  have hdepth : l.depth + 1 + k - (0 + k + 1) = l.depth := by omega
  rw [ternaries, openBracket, closeBracket]
  simp only [hdepth]

/-- So does a comma, but the bracket stays open. -/
theorem Levels.comma_ternaries (k : Nat) :
    (l.openBracket.ternaries k).comma = l.openBracket := by
  have hdepth : l.depth + 1 + k - (0 + k) = l.depth + 1 := by omega
  rw [ternaries, openBracket, comma]
  simp only [hdepth]

/-- Ternaries that are opened one after another add up. -/
theorem Levels.openTernary_ternaries (k k' : Nat) :
    (l.openTernary.ternaries k).ternaries k' = l.ternaries (1 + k + k') := by
  simp only [ternaries, openTernary, Nat.add_assoc]

end Nesting

namespace Matching

open Nesting (Levels Accepted turns)
open Terminal (ofToken isToken)

variable {α β : Type} {limit : Nat} {l : Levels} {I J K : Levels → Prop}

/-! ### What a rule makes of the levels -/

/-- A match ends where the scan is in a state of the given kind, or it fails, but not for
the budget. -/
def Ends (limit : Nat) (J : Levels → Prop) : Except Miss (α × List Char) → Prop
  | .ok (_, rest) => ∃ l, J l ∧ Accepted limit l rest
  | .error miss => miss = .mismatch

/-- From each state of the first kind where the scan accepts the text, a match ends in one
of the second. -/
def Contract (limit : Nat) (I : Levels → Prop) (p : Rule α) (J : Levels → Prop) : Prop :=
  ∀ l cs, I l → Accepted limit l cs → Ends limit J (p cs)

/-- A match that goes on from where another one ends ends where the second one does. -/
theorem Ends.bind {x : Except Miss (α × List Char)}
    {k : α × List Char → Except Miss (β × List Char)} (hx : Ends limit J x)
    (hk : ∀ a l rest, J l → Accepted limit l rest → Ends limit K (k (a, rest))) :
    Ends limit K (x >>= k) := by
  cases x with
  | error miss => exact hx
  | ok found =>
      obtain ⟨a, rest⟩ := found
      obtain ⟨l, hl, haccepted⟩ := hx
      exact hk a l rest hl haccepted

/-- Changing what a match gives does not change where it ends. -/
theorem Ends.map {x : Except Miss (α × List Char)} (hx : Ends limit J x) (f : α → β) :
    Ends limit J (x.map fun (a, rest) => (f a, rest)) := by
  cases x with
  | error miss => exact hx
  | ok found => exact hx

namespace Contract

variable {p q : Rule α}

/-- A terminal ends in the state behind its token. -/
theorem terminal {want : Token → Option α}
    (h : ∀ l t, I l → (want t).isSome → J (l.afterToken t)) :
    Contract limit I (terminal (ofToken want)) J := by
  intro l cs hl haccepted
  rcases ofText_eq_nil_or_next cs with hnil | ⟨t, rest, hnext⟩
  · rw [terminal_of_nil hnil]
    rfl
  · rw [terminal_of_next hnext]
    cases hwant : want t with
    | none => rfl
    | some a => exact ⟨l.afterToken t, h l t hl (by rw [hwant]; rfl), haccepted.next hnext⟩

/-- A terminal for tokens that open and close nothing. -/
theorem still {want : Token → Option α} (h : ∀ t ∈ turns, want t = none) :
    Contract limit I (Matching.terminal (ofToken want)) I := by
  refine terminal fun l t hl ht => ?_
  rwa [Levels.afterToken_eq_self fun hturn => by rw [h t hturn] at ht; cases ht]

/-- A terminal for one token. -/
theorem token {t : Token} (h : ∀ l, I l → J (l.afterToken t)) :
    Contract limit I (Matching.terminal (ofToken (isToken t))) J := by
  refine terminal fun l u hl hu => ?_
  rw [isToken] at hu
  split at hu
  · next heq => exact heq ▸ h l hl
  · cases hu

/-- A leaf ends where its terminal does. -/
theorem leaf {t : Terminal α} (h : Contract limit I (Matching.terminal t) J)
    (phrase : α → Phrase) :
    Contract limit I (Matching.leaf t phrase) J :=
  fun l cs hl haccepted => (h l cs hl haccepted).map phrase

/-- A choice ends where both alternatives do. -/
theorem orElse (hp : Contract limit I p J) (hq : Contract limit I q J) :
    Contract limit I (orElse p q) J := by
  intro l cs hl haccepted
  have h := hp l cs hl haccepted
  rw [Matching.orElse]
  split
  · exact hq l cs hl haccepted
  · exact h

/-- An optional part ends where the part does, or where it starts. -/
theorem optional (hp : Contract limit I p J) (hI : ∀ l, I l → J l) :
    Contract limit I (optional p) J := by
  refine orElse (fun l cs hl haccepted => (hp l cs hl haccepted).map some) ?_
  exact fun l cs hl haccepted => ⟨l, hI l hl, haccepted⟩

/-- A repetition ends where it starts, if its part does. -/
theorem manyWithin (hp : Contract limit I p I) (budget : List Char) :
    Contract limit I (manyWithin p budget) I := by
  induction budget with
  | nil => exact fun l cs hl haccepted => ⟨l, hl, haccepted⟩
  | cons _ budget ih =>
      intro l cs hl haccepted
      have h := hp l cs hl haccepted
      rw [Matching.manyWithin]
      split
      · next heq =>
        rw [heq] at h
        obtain ⟨l', hl', haccepted'⟩ := h
        exact (ih l' _ hl' haccepted').bind fun more l'' rest hl'' h'' => ⟨l'', hl'', h''⟩
      · exact ⟨l, hl, haccepted⟩
      · next heq =>
        rw [heq] at h
        exact h

/-- A repetition under the budget of its text ends where it starts, if its part does. -/
theorem many (hp : Contract limit I p I) : Contract limit I (many p) I :=
  fun l cs hl haccepted => manyWithin hp cs l cs hl haccepted

end Contract

/-! ### Operands -/

section Operands

variable {op : Terminal BinaryOp} {operand : Rule Phrase}

/-- A link ends where it starts, if its operator and its operand do. -/
theorem Contract.link (hop : Contract limit I (Matching.terminal op) I)
    (h : Contract limit I operand I) :
    Contract limit I (link op operand) I := by
  intro l cs hl haccepted
  refine (hop l cs hl haccepted).bind fun o l rest hl haccepted => ?_
  exact (h l rest hl haccepted).bind fun right l rest hl haccepted => ⟨l, hl, haccepted⟩

/-- A chain ends where it starts, if its operator and its operand do. -/
theorem Contract.chain (hop : Contract limit I (Matching.terminal op) I)
    (h : Contract limit I operand I) :
    Contract limit I (chain op operand) I := by
  intro l cs hl haccepted
  refine (h l cs hl haccepted).bind fun first l rest hl haccepted => ?_
  exact (many (hop.link h) l rest hl haccepted).bind fun links l rest hl haccepted =>
    ⟨l, hl, haccepted⟩

/-- A prefixed operand ends where it starts, if its marks and the operand do. -/
theorem Contract.prefixed {mark : Terminal Unit}
    (hmark : Contract limit I (Matching.terminal mark) I) (h : Contract limit I operand I)
    (op : UnaryOp) : Contract limit I (prefixed op mark operand) I := by
  intro l cs hl haccepted
  refine (many hmark l cs hl haccepted).bind fun marks l rest hl haccepted => ?_
  exact (h l rest hl haccepted).bind fun inner l rest hl haccepted => ⟨l, hl, haccepted⟩

/-- What opens or closes something is no operator. -/
theorem operatorIn_of_mem_turns (level : BinaryOp → Bool) :
    ∀ t ∈ turns, Grammar.operatorIn level t = none := by
  simp [turns, Grammar.operatorIn]

/-- A comparison ends where it starts, if its operands do. -/
theorem Contract.comparison (h : Contract limit I operand I) :
    Contract limit I (comparison operand) I := by
  have hop : Contract limit I (Matching.terminal Terminal.comparisonOp) I := by
    rw [Terminal.comparisonOp_eq]
    exact still (operatorIn_of_mem_turns _)
  intro l cs hl haccepted
  refine (h l cs hl haccepted).bind fun left l rest hl haccepted => ?_
  refine (optional (hop.link h) (fun l hl => hl) l rest hl haccepted).bind
    fun right l rest hl haccepted => ?_
  cases right with
  | none => exact ⟨l, hl, haccepted⟩
  | some _ => exact ⟨l, hl, haccepted⟩

end Operands

/-! ### Formulas inside formulas -/

/-- A match of a formula ends with more ternaries open than where it starts, if any: the
scan closes them with the bracket around them, or at the next comma. -/
def Fits (limit : Nat) (e : Rule Phrase) (l : Levels) : Prop :=
  Contract limit (· = l) e fun l' => ∃ k, l' = l.ternaries k

section Expression

variable {e : Rule Phrase}

/-- Arguments end inside their bracket, with some ternaries open. -/
theorem contract_arguments (h : Fits limit e l.openBracket) :
    Contract limit (· = l.openBracket) (arguments e) fun l' => ∃ k,
      l' = l.openBracket.ternaries k := by
  have hmore : Contract limit (fun l' => ∃ k, l' = l.openBracket.ternaries k)
      (fun cs => terminal (.symbol [','] ()) cs >>= fun found => e found.2)
      fun l' => ∃ k, l' = l.openBracket.ternaries k := by
    have hcomma : Contract limit (fun l' => ∃ k, l' = l.openBracket.ternaries k)
        (terminal (.symbol [','] ())) (· = l.openBracket) := by
      rw [Terminal.comma_eq]
      refine .token ?_
      rintro _ ⟨k, rfl⟩
      exact Levels.comma_ternaries k
    exact fun l' cs hl haccepted =>
      (hcomma l' cs hl haccepted).bind fun _ l' rest hl haccepted => h l' rest hl haccepted
  intro l' cs hl haccepted
  refine (h l' cs hl haccepted).bind fun first l' rest hl haccepted => ?_
  exact (Contract.many hmore l' rest hl haccepted).bind fun others l' rest hl haccepted =>
    ⟨l', hl, haccepted⟩

/-- An opening bracket opens one. -/
theorem contract_openBracket :
    Contract limit (· = l) (terminal (.symbol ['('] ())) (· = l.openBracket) := by
  rw [Terminal.openBracket_eq]
  exact .token fun l' hl => congrArg Levels.openBracket hl

/-- A closing bracket closes one, and the ternaries in it. -/
theorem contract_closeBracket :
    Contract limit (fun l' => ∃ k, l' = l.openBracket.ternaries k)
      (terminal (.symbol [')'] ())) (· = l) := by
  rw [Terminal.closeBracket_eq]
  refine .token ?_
  rintro _ ⟨k, rfl⟩
  exact Levels.closeBracket_ternaries k

/-- A formula in brackets ends where it starts, if the formula fits inside. -/
theorem contract_bracketed (h : Fits limit e l.openBracket) :
    Contract limit (· = l) (bracketed e) (· = l) := by
  intro l' cs hl haccepted
  refine (contract_openBracket l' cs hl haccepted).bind fun _ l' rest hl haccepted => ?_
  refine (h l' rest hl haccepted).bind fun inner l' rest hl haccepted => ?_
  exact (contract_closeBracket l' rest hl haccepted).bind fun _ l' rest hl haccepted =>
    ⟨l', hl, haccepted⟩

/-- A call ends where it starts, if its arguments fit inside the brackets. -/
theorem contract_call (h : Fits limit e l.openBracket) :
    Contract limit (· = l) (call e) (· = l) := by
  have hname : Contract limit (· = l) (terminal Terminal.identifier) (· = l) := by
    rw [Terminal.identifier_eq]
    exact .still (by decide)
  intro l' cs hl haccepted
  refine (hname l' cs hl haccepted).bind fun name l' rest hl haccepted => ?_
  refine (contract_openBracket l' rest hl haccepted).bind fun _ l' rest hl haccepted => ?_
  refine ((contract_arguments h).optional (fun l' hl => ⟨0, hl⟩) l' rest hl haccepted).bind
    fun args l' rest hl haccepted => ?_
  exact (contract_closeBracket l' rest hl haccepted).bind fun _ l' rest hl haccepted =>
    ⟨l', hl, haccepted⟩

/-- A primary formula ends where it starts, if formulas fit inside its brackets. -/
theorem contract_primary (h : Fits limit e l.openBracket) :
    Contract limit (· = l) (primary e) (· = l) := by
  have hliteral : Contract limit (· = l) (terminal Terminal.literal) (· = l) := by
    rw [Terminal.literal_eq]
    exact .still (by decide)
  have hcolumn : Contract limit (· = l)
      (terminal (.firstOf [Terminal.quotedIdentifier, Terminal.identifier]))
      (· = l) := by
    rw [Terminal.column_eq]
    exact .still (by decide)
  exact (hliteral.leaf _).orElse
    ((contract_call h).orElse ((hcolumn.leaf _).orElse (contract_bracketed h)))

/-- An operand ends where it starts, if formulas fit inside its brackets. -/
theorem contract_operand (h : Fits limit e l.openBracket) :
    Contract limit (· = l) (operand e) (· = l) := by
  have hneg : Contract limit (· = l) (terminal Terminal.negOp) (· = l) := by
    rw [Terminal.negOp_eq]
    exact .token fun _ hl => hl
  have hnot : Contract limit (· = l) (terminal Terminal.notOp) (· = l) := by
    rw [Terminal.notOp_eq]
    exact .token fun _ hl => hl
  have hop {op : Terminal BinaryOp} {level : BinaryOp → Bool}
      (heq : op = ofToken (Grammar.operatorIn level)) :
      Contract limit (· = l) (terminal op) (· = l) :=
        heq ▸ .still (operatorIn_of_mem_turns level)
  have hsum : Contract limit (· = l) (sum e) (· = l) :=
    (hop Terminal.additiveOp_eq).chain
      ((hop Terminal.multiplicativeOp_eq).chain (hneg.prefixed (contract_primary h) .neg))
  exact (hop Terminal.coalesceOp_eq).chain
    ((hop Terminal.orOp_eq).chain ((hop Terminal.andOp_eq).chain
    (hnot.prefixed hsum.comparison .not)))

/-- The branches of a ternary are one level deeper each, and its question mark stays
open. -/
theorem contract_branches (h : ∀ l' : Levels, l.depth < l'.depth → Fits limit e l') :
    Contract limit (· = l) (branches e) fun l' => ∃ k, l' = l.ternaries k := by
  have hquestion : Contract limit (· = l) (terminal Terminal.question)
      (· = l.openTernary) := by
    rw [Terminal.question_eq]
    exact .token fun l' hl => congrArg Levels.openTernary hl
  have hcolon (l' : Levels) : Contract limit (· = l') (terminal (.symbol [':'] ()))
      (· = l') := by
    rw [Terminal.colon_eq]
    exact .token fun _ hl => hl
  intro l₁ cs hl haccepted
  refine (hquestion l₁ cs hl haccepted).bind fun _ l₂ rest hl haccepted => ?_
  refine (h l.openTernary (Nat.lt_succ_self _) l₂ rest hl haccepted).bind ?_
  rintro yes _ rest ⟨k, rfl⟩ haccepted
  refine (hcolon _ _ rest rfl haccepted).bind fun _ l₃ rest hl haccepted => ?_
  have hdeeper : l.depth < (l.openTernary.ternaries k).depth :=
    Nat.lt_add_right k (Nat.lt_succ_self _)
  refine (h _ hdeeper l₃ rest hl haccepted).bind ?_
  rintro no _ rest ⟨k', rfl⟩ haccepted
  exact ⟨_, ⟨1 + k + k', Levels.openTernary_ternaries k k'⟩, haccepted⟩

/-- **A formula fits** where the formulas inside it fit one level deeper. -/
theorem fits_ternary (h : ∀ l' : Levels, l.depth < l'.depth → Fits limit e l') :
    Fits limit (ternary e) l := by
  have hoperand := contract_operand (h l.openBracket (Nat.lt_succ_self _))
  intro l' cs hl haccepted
  refine (hoperand l' cs hl haccepted).bind fun condition l' rest hl haccepted => ?_
  refine ((contract_branches h).optional (fun l' hl => ⟨0, hl⟩) l' rest hl haccepted).bind
    fun found l' rest hl haccepted => ?_
  cases found with
  | none => exact ⟨l', hl, haccepted⟩
  | some _ => exact ⟨l', hl, haccepted⟩

end Expression

/-- **The budget of a formula** is what its place leaves of the limit. -/
theorem fits_expression {budget : Nat} (h : limit < budget + l.depth) :
    Fits limit (expression budget) l := by
  induction budget generalizing l with
  | zero =>
      rintro _ cs rfl haccepted
      have := haccepted.1
      omega
  | succ budget ih => exact fits_ternary fun l' hl => ih (by omega)

/-- **The budget is large enough** for every text that the scan accepts. -/
theorem matchText_ne_overBudget {budget : Nat} {text : List Char} (hbudget : limit < budget)
    (h : Nesting.within limit text = true) :
    matchText budget text ≠ .error .overBudget := by
  have hends := fits_expression (l := .start) hbudget _ text rfl ⟨Nat.zero_le _, h⟩
  intro hover
  rcases bind_eq_error.1 hover with hover | ⟨found, -, hover⟩
  · rw [hover] at hends
    cases hends
  · dsimp only at hover
    split at hover <;> cases hover

/-! ### A larger budget makes no difference -/

/-- The two rules do the same, unless the budget is too small for the first one. -/
def Covers (p p' : Rule α) : Prop := ∀ cs, SameUnless .overBudget (p cs) (p' cs)

namespace Covers

variable {p p' q q' : Rule α}

/-- A choice is covered by one between rules that cover its alternatives. -/
theorem orElse (hp : Covers p p') (hq : Covers q q') :
    Covers (orElse p q) (orElse p' q') := by
  intro cs
  rw [Matching.orElse, Matching.orElse]
  rcases hp cs with h | h
  · rw [h]
    exact .inl rfl
  · rw [h]
    cases p' cs with
    | ok found => exact .refl _
    | error miss =>
        cases miss with
        | mismatch => exact hq cs
        | overBudget => exact .inl rfl

/-- An optional part is covered if the part is. -/
theorem optional (h : Covers p p') : Covers (optional p) (optional p') := by
  refine orElse (fun cs => ?_) fun cs => .refl _
  rcases h cs with h | h
  · rw [h]
    exact .inl rfl
  · rw [h]
    exact .refl _

/-- A repetition is covered if its part is. -/
theorem manyWithin (h : Covers p p') (budget : List Char) :
    Covers (manyWithin p budget) (manyWithin p' budget) := by
  induction budget with
  | nil => exact fun cs => .refl _
  | cons _ budget ih =>
      intro cs
      rw [Matching.manyWithin, Matching.manyWithin]
      rcases h cs with h | h
      · rw [h]
        exact .inl rfl
      · rw [h]
        cases p' cs with
        | ok found => exact (ih _).bind fun _ => .refl _
        | error miss => cases miss <;> exact .refl _

/-- A repetition under the budget of its text is covered if its part is. -/
theorem many (h : Covers p p') : Covers (many p) (many p') := fun cs => manyWithin h cs cs

variable {r r' : Rule Phrase}

/-- A link is covered if its operand is. -/
theorem link (h : Covers r r') (op : Terminal BinaryOp) : Covers (link op r) (link op r') :=
  fun _ => SameUnless.bind (.refl _) fun _ => (h _).bind fun _ => .refl _

/-- A chain is covered if its operands are. -/
theorem chain (h : Covers r r') (op : Terminal BinaryOp) :
    Covers (chain op r) (chain op r') :=
  fun cs => (h cs).bind fun _ => ((h.link op).many _).bind fun _ => .refl _

/-- A prefixed operand is covered if the operand is. -/
theorem prefixed (h : Covers r r') (op : UnaryOp) (mark : Terminal Unit) :
    Covers (prefixed op mark r) (prefixed op mark r') :=
  fun _ => SameUnless.bind (.refl _) fun _ => (h _).bind fun _ => .refl _

/-- A comparison is covered if its operands are. -/
theorem comparison (h : Covers r r') : Covers (comparison r) (comparison r') :=
  fun cs => (h cs).bind fun _ => ((h.link _).optional _).bind fun _ => .refl _

/-- Arguments are covered if the formulas among them are. -/
theorem arguments (h : Covers r r') : Covers (arguments r) (arguments r') := by
  refine fun cs => (h cs).bind fun _ => (many (fun cs => ?_) _).bind fun _ => .refl _
  exact SameUnless.bind (.refl _) fun _ => h _

/-- A primary formula is covered if the formulas inside it are. -/
theorem primary (h : Covers r r') : Covers (primary r) (primary r') := by
  have hcall : Covers (call r) (call r') := fun cs =>
    SameUnless.bind (.refl _) fun _ => SameUnless.bind (.refl _) fun _ =>
      (h.arguments.optional _).bind fun _ => .refl _
  have hbracketed : Covers (bracketed r) (bracketed r') := fun cs =>
    SameUnless.bind (.refl _) fun _ => (h _).bind fun _ => .refl _
  exact orElse (fun _ => .refl _) (hcall.orElse (orElse (fun _ => .refl _) hbracketed))

/-- A formula is covered if the formulas inside it are. -/
theorem ternary (h : Covers r r') : Covers (ternary r) (ternary r') := by
  have hsum : Covers (sum r) (sum r') := ((h.primary.prefixed _ _).chain _).chain _
  have hoperand : Covers (operand r) (operand r') :=
    (((hsum.comparison.prefixed _ _).chain _).chain _).chain _
  have hbranches : Covers (branches r) (branches r') := fun cs =>
    SameUnless.bind (.refl _) fun _ => (h _).bind fun _ =>
      SameUnless.bind (.refl _) fun _ =>
      (h _).bind fun _ => .refl _
  exact fun cs => (hoperand cs).bind fun _ => (hbranches.optional _).bind fun _ => .refl _

end Covers

/-- A larger budget covers a smaller one. -/
theorem covers_expression {budget budget' : Nat} (h : budget ≤ budget') :
    Covers (expression budget) (expression budget') := by
  induction budget generalizing budget' with
  | zero => exact fun _ => .inl rfl
  | succ budget ih =>
      cases budget' with
      | zero => cases h
      | succ budget' => exact (ih (Nat.le_of_succ_le_succ h)).ternary

/-- **The budget makes no difference** as long as it is large enough. -/
theorem matchText_eq {budget budget' : Nat} {text : List Char} (h : budget ≤ budget')
    (hbudget : matchText budget text ≠ .error .overBudget) :
    matchText budget' text = matchText budget text := by
  have hsame : SameUnless .overBudget (matchText budget text) (matchText budget' text) :=
    (covers_expression h text).bind fun _ => .refl _
  exact (hsame.resolve_left hbudget).symm

end Matching

end FormulaTable
