import FormulaTable.Proofs.Formula.Depth
import FormulaTable.Proofs.Formula.Precedence
import FormulaTable.Proofs.Formula.Reading
import FormulaTable.Proofs.Formula.Spelling

/-!
# Joining texts

Two texts that are formulas, each put between brackets, with an operator between them, are
read as the operator applied to the two formulas: nothing in one of the texts reaches out of
its brackets. The same holds for a text between brackets behind a prefix operator.

* `Formula.ofText_joined`, `Formula.ofText_negated` — the tokens of joined texts.
* `Formula.readAs_joined`, `Formula.readAs_negated` — what joined texts are read as,
  whatever the limit is.
-/

namespace FormulaTable

namespace Grammar

variable {ts us : List Token} {s u : Sketch}

/-- A formula in brackets is read at every level. -/
theorem atLevel_bracketed (h : read ts = .ok s) {budget : Nat}
    (hbudget : ts.length < budget) {p : Nat} (hp : p ≤ 9) {rest : List Token}
    (hstop : StopsBefore p rest) :
    atLevel (formula budget) p (.openBracket :: (ts ++ .closeBracket :: rest)) =
      .ok (s, rest) :=
  atLevel_of_le hp (Nat.le_refl 9) (primary_bracketed (formula_append h hbudget rest)) hstop

/-- What the loosest level reads of all tokens is what they are read as. -/
theorem read_of_atLevel {p : Nat} (hp : p ≤ 9)
    (h : atLevel (formula ts.length) p ts = .ok (s, [])) :
    read ts = .ok s :=
  read_eq_ok.2 (atLevel_of_le (Nat.zero_le p) hp h (stopsBefore_nil 0))

/-- Two formulas in brackets are the operands of an operator between them. -/
theorem read_joined {op : BinaryOp} (hop : op.isComparison = false) (hs : read ts = .ok s)
    (hu : read us = .ok u) :
    read (.openBracket ::
        (ts ++ .closeBracket :: .operator op :: .openBracket :: (us ++ [.closeBracket]))) =
      .ok (.binary op s u) := by
  refine read_of_atLevel (Nat.le_of_lt op.level_lt) ?_
  generalize hbudget : List.length _ = budget
  simp only [List.length_cons, List.length_append, List.length_nil] at hbudget
  have hstop : StopsBefore (op.level + 1)
      (.operator op :: .openBracket :: (us ++ [.closeBracket])) := by
    rw [stopsBefore_cons, carriesOn, decide_eq_false_iff_not]
    exact Nat.not_succ_le_self _
  have hleft := atLevel_bracketed hs (show ts.length < budget by omega) op.level_lt hstop
  have hright :=
    atLevel_bracketed hu (show us.length < budget by omega) op.level_lt (stopsBefore_nil _)
  rw [atLevel_eq_chain _ hop]
  exact bind_eq_ok.2 ⟨_, hleft,
    chainFrom_link (consumes_atLevel (consumes_formula budget) _) hright
      (chainFrom_stop _ _ (stopsBefore_nil _))⟩

/-- A formula in brackets is the operand of a negation before it. -/
theorem read_negated (h : read ts = .ok s) :
    read (.not :: .openBracket :: (ts ++ [.closeBracket])) = .ok (.unary .not s) := by
  have hnegation : UnaryOp.not.level ≤ 9 := by decide
  refine read_of_atLevel hnegation ?_
  generalize hbudget : List.length _ = budget
  simp only [List.length_cons, List.length_append, List.length_nil] at hbudget
  have hoperand :=
    atLevel_bracketed h (show ts.length < budget by omega) hnegation (stopsBefore_nil _)
  exact prefixed_mark (decide_eq_true rfl) hoperand

end Grammar

namespace Token

/-- A text between brackets has its own tokens between the tokens of the brackets. -/
theorem ofText_bracketed {cs : List Char} (h : .illegal ∉ ofText cs) (after : List Char) :
    ofText ('(' :: (cs ++ ')' :: after)) = .openBracket ::
      (ofText cs ++ .closeBracket :: ofText after) := by
  have hends : EndsTokens (')' :: after) := by
    rintro _ ⟨⟩
    exact .inr rfl
  rw [ofText_openBracket, ofText_append hends h, ofText_closeBracket]

end Token

namespace Formula

variable {limit limit' limit'' : Nat} {f g h : Formula}

/-! ### Tokens of joined texts -/

/-- Between two texts that an operator joins, only the brackets and the operator are
added. -/
theorem ofText_joined (op : BinaryOp) {a b : String} (ha : .illegal ∉ Token.ofText a.toList)
    (hb : .illegal ∉ Token.ofText b.toList) :
    Token.ofText ("(" ++ a ++ ") " ++ op.symbol ++ " (" ++ b ++ ")").toList =
      .openBracket :: (Token.ofText a.toList ++
        .closeBracket :: .operator op :: .openBracket ::
          (Token.ofText b.toList ++ [.closeBracket])) := by
  have hchars : ("(" ++ a ++ ") " ++ op.symbol ++ " (" ++ b ++ ")").toList =
      '(' :: (a.toList ++ ')' :: ' ' ::
        ((Token.operator op).spelling ++ ' ' :: '(' :: (b.toList ++ [')']))) := by
    simp [Token.spelling]
  have hends : Token.EndsTokens (' ' :: '(' :: (b.toList ++ [')'])) := by
    rintro _ ⟨⟩
    exact .inl rfl
  have hend : Token.ofText [] = [] := Token.ofText_eq_nil rfl
  rw [hchars, Token.ofText_bracketed ha, Token.ofText_space,
    Token.ofText_of_isSpelled (Token.isSpelled_mark rfl) hends, Token.ofText_space,
    Token.ofText_bracketed hb, hend]

/-- Before a negated text, and around it, only the mark and the brackets are added. -/
theorem ofText_negated {a : String} (ha : .illegal ∉ Token.ofText a.toList) :
    Token.ofText (UnaryOp.not.symbol ++ "(" ++ a ++ ")").toList =
      .not :: .openBracket :: (Token.ofText a.toList ++ [.closeBracket]) := by
  have hchars : (UnaryOp.not.symbol ++ "(" ++ a ++ ")").toList = '!' :: '(' ::
      (a.toList ++ [')']) := by
    simp [UnaryOp.symbol]
  have hend : Token.ofText [] = [] := Token.ofText_eq_nil rfl
  have hmark : Token.take '!' ('(' :: (a.toList ++ [')'])) =
      (.not, '(' :: (a.toList ++ [')'])) := rfl
  rw [hchars, Token.ofText_of_take rfl hmark, Token.ofText_bracketed ha, hend]

/-! ### What joined texts are read as -/

/-- A text is read as a formula, whatever the limit is, unless the text or the formula
exceeds the limit. -/
def ReadAs (f : Formula) (text : String) : Prop :=
  ∀ limit, parse limit text =
    if Nesting.within limit text.toList = true ∧ f.depth ≤ limit then .ok f
      else .error (.nestingTooDeep limit)

/-- What is read from a text, and can be resolved at all, is what the text is read as. -/
theorem readAs_of_resolve {text : String} {s : Grammar.Sketch} {depth : Nat}
    (hread : Grammar.read (Token.ofText text.toList) = .ok s)
    (hresolve : Grammar.resolve limit depth s = .ok f) :
    ReadAs f text := by
  intro limit'
  split
  case isTrue hfits =>
    have hdepth : 1 + f.depth ≤ limit' + 1 := by omega
    exact parse_eq_ok.2 ⟨hfits.1, s, hread, (Grammar.resolve_of_resolve hresolve).2 hdepth⟩
  case isFalse hexceeds =>
    cases hwithin : Nesting.within limit' text.toList with
    | false => exact parse_of_not_within hwithin
    | true =>
        cases hresolve' : Grammar.resolve limit' 1 s with
        | ok g =>
            obtain rfl := Grammar.resolve_unique hresolve hresolve'
            have := (Grammar.resolve_of_resolve hresolve).1 hresolve'
            exact absurd ⟨hwithin, by omega⟩ hexceeds
        | error e =>
            obtain rfl := Grammar.tooDeep_of_resolve hresolve hresolve'
            rw [Token.ofText] at hread
            rw [parse, parseChars, hwithin]
            simp only [Bool.not_true, Bool.false_eq_true, if_false, hread, hresolve']

/-- A text is read as one formula only. -/
theorem ReadAs.eq_of_parse {text : String} (h : ReadAs f text)
    (hparse : parse limit text = .ok g) : g = f := by
  rw [h limit] at hparse
  split at hparse
  · exact (Except.ok.inj hparse).symm
  · cases hparse

/-- A text that is read as a formula is not blank. -/
theorem ReadAs.isBlankText {text : String} (h : ReadAs f text) :
    Text.isBlankText text = false := by
  have hparse := h (text.toList.length + f.depth)
  rw [if_pos ⟨Nesting.within_of_length_le (Nat.le_add_right _ _), Nat.le_add_left _ _⟩]
    at hparse
  exact isBlankText_of_parse hparse

/-- **Texts joined by an operator** are read as the operator applied to what each of them is
read as. -/
theorem readAs_joined {op : BinaryOp} (hop : op.isComparison = false) {a b : String}
    (ha : parse limit a = .ok f) (hb : parse limit' b = .ok g) :
    ReadAs (.binary op f g) ("(" ++ a ++ ") " ++ op.symbol ++ " (" ++ b ++ ")") := by
  obtain ⟨-, s, hs, hf⟩ := parse_eq_ok.1 ha
  obtain ⟨-, u, hu, hg⟩ := parse_eq_ok.1 hb
  have hread := Grammar.read_joined hop hs hu
  rw [← ofText_joined op (Grammar.illegal_notMem_of_read hs)
    (Grammar.illegal_notMem_of_read hu)] at hread
  -- With a limit that is high enough, both operands are resolved one level further down.
  have hleft : Grammar.resolve (1 + f.depth + g.depth) 2 s = .ok f :=
    (Grammar.resolve_of_resolve hf).2 (by omega)
  have hright : Grammar.resolve (1 + f.depth + g.depth) 2 u = .ok g :=
    (Grammar.resolve_of_resolve hg).2 (by omega)
  have hresolve : Grammar.resolve (1 + f.depth + g.depth) 1 (.binary op s u) =
      .ok (.binary op f g) := by
    rw [Grammar.resolve, Grammar.guard_eq_ok]
    exact ⟨by omega, bind_eq_ok.2 ⟨f, hleft, bind_eq_ok.2 ⟨g, hright, rfl⟩⟩⟩
  exact readAs_of_resolve hread hresolve

/-- **A negated text** is read as the negation of what it is read as. -/
theorem readAs_negated {a : String} (ha : parse limit a = .ok f) :
    ReadAs (.unary .not f) (UnaryOp.not.symbol ++ "(" ++ a ++ ")") := by
  obtain ⟨-, s, hs, hf⟩ := parse_eq_ok.1 ha
  have hread := Grammar.read_negated hs
  rw [← ofText_negated (Grammar.illegal_notMem_of_read hs)] at hread
  have hoperand : Grammar.resolve (1 + f.depth) 2 s = .ok f :=
    (Grammar.resolve_of_resolve hf).2 (by omega)
  have hresolve : Grammar.resolve (1 + f.depth) 1 (.unary .not s) =
      .ok (.unary .not f) := by
    rw [Grammar.resolve, Grammar.guard_eq_ok]
    exact ⟨by omega, bind_eq_ok.2 ⟨f, hoperand, rfl⟩⟩
  exact readAs_of_resolve hread hresolve

/-- What a joined text is read as joins what its parts are read as. -/
theorem eq_binary_of_parse_joined {op : BinaryOp} (hop : op.isComparison = false)
    {a b : String} (ha : parse limit a = .ok f) (hb : parse limit' b = .ok g)
    (hjoined : parse limit'' ("(" ++ a ++ ") " ++ op.symbol ++ " (" ++ b ++ ")") = .ok h) :
    h = .binary op f g := (readAs_joined hop ha hb).eq_of_parse hjoined

/-- What a negated text is read as negates what the text is read as. -/
theorem eq_not_of_parse_negated {a : String} (ha : parse limit a = .ok f)
    (hnegated : parse limit' (UnaryOp.not.symbol ++ "(" ++ a ++ ")") = .ok h) :
    h = .unary .not f :=
  (readAs_negated ha).eq_of_parse hnegated

end Formula

end FormulaTable
