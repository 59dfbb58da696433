import FormulaTable.Formula.Grammar
import FormulaTable.Proofs.Formula.Lexing
import FormulaTable.Proofs.Result
import Mathlib.Data.List.TakeWhile

/-!
# What readers of tokens have in common

A reader takes its tokens off the front and never passes an illegal one. What it reads does
not depend on what comes after, as long as nothing comes after or a closing bracket does: no
level of the grammar goes on with a bracket that was not opened in it. The budget, which
counts the formulas inside one another, makes no difference either once it is large enough.

* `Consumes` — a reader takes tokens off the front; one rule for each way to build a reader.
* `Extends` — what one reader reads, another one reads with more behind it; again one rule
  for each.
* `formula_append` — a whole formula is read in the same way inside brackets.
-/

namespace FormulaTable.Grammar

variable {α σ : Type}

/-! ### Taking tokens off the front -/

/-- The second list is left when legal tokens are taken off the front of the first. -/
def Passes (ts rest : List Token) : Prop := ∃ front, ts = front ++ rest ∧ .illegal ∉ front

namespace Passes

variable {t : Token} {ts rest rest' : List Token}

/-- Taking nothing leaves everything. -/
theorem refl (ts : List Token) : Passes ts ts := ⟨[], rfl, List.not_mem_nil⟩

/-- Legal tokens are taken off the front one after another. -/
theorem trans (h : Passes ts rest) (h' : Passes rest rest') : Passes ts rest' := by
  obtain ⟨front, rfl, hfront⟩ := h
  obtain ⟨front', rfl, hfront'⟩ := h'
  exact ⟨front ++ front', (List.append_assoc ..).symm, by simp [hfront, hfront']⟩

/-- A legal token more may be taken off the front. -/
theorem cons (ht : t ≠ .illegal) (h : Passes ts rest) : Passes (t :: ts) rest :=
  trans ⟨[t], rfl, by simpa using ht.symm⟩ h

/-- What is left is no longer than the list. -/
theorem length_le (h : Passes ts rest) : rest.length ≤ ts.length := by
  obtain ⟨front, rfl, -⟩ := h
  rw [List.length_append]
  exact Nat.le_add_left ..

end Passes

/-- The reader takes legal tokens off the front. -/
def Consumes (r : Reader α) : Prop := ∀ ts a rest, r ts = .ok (a, rest) → Passes ts rest

/-- Expecting a legal token takes it off the front. -/
theorem consumes_expect {t : Token} (ht : t ≠ .illegal) : Consumes (expect t) := by
  intro ts a rest h
  cases ts with
  | nil => cases h
  | cons u tail =>
      rw [expect] at h
      split at h
      · next heq =>
        cases h
        exact (Passes.refl _).cons (heq ▸ ht)
      · cases h

/-- At the end there are no more pairs. -/
theorem pairsWithin_nil (separator : Token → Option σ) (item : Reader α)
    (budget : List Token) :
    pairsWithin separator item budget [] = .ok ([], []) := by
  cases budget <;> rfl

/-- Repeated pairs take legal tokens off the front, if their items do. -/
theorem consumes_pairsWithin {separator : Token → Option σ}
    (hsep : separator .illegal = none) {item : Reader α} (hitem : Consumes item)
    (budget : List Token) :
    Consumes (pairsWithin separator item budget) := by
  intro ts
  induction budget generalizing ts with
  | nil =>
      intro a rest h
      rw [pairsWithin] at h
      cases h
      exact .refl ts
  | cons b budget ih =>
      intro ps rest h
      cases ts with
      | nil =>
          rw [pairsWithin_nil] at h
          cases h
          exact .refl []
      | cons t tail =>
          rw [pairsWithin] at h
          split at h
          · cases h
            exact .refl (t :: tail)
          · next s hs =>
            obtain ⟨⟨a, rest₁⟩, ha, h⟩ := bind_eq_ok.1 h
            obtain ⟨⟨more, rest₂⟩, hmore, h⟩ := bind_eq_ok.1 h
            cases h
            have ht : t ≠ .illegal := by
              rintro rfl
              rw [hsep] at hs
              cases hs
            exact ((hitem _ _ _ ha).trans (ih _ _ _ hmore)).cons ht

/-- Pairs take legal tokens off the front, if their items do. -/
theorem consumes_pairs {separator : Token → Option σ} (hsep : separator .illegal = none)
    {item : Reader α} (hitem : Consumes item) : Consumes (pairs separator item) :=
  fun ts => consumes_pairsWithin hsep hitem ts ts

/-- A chain takes legal tokens off the front, if its operands do. -/
theorem consumes_chain {level : BinaryOp → Bool} {operand : Reader Sketch}
    (h : Consumes operand) :
    Consumes (chain level operand) := by
  intro ts a rest hts
  obtain ⟨⟨first, rest₁⟩, hfirst, hts⟩ := bind_eq_ok.1 hts
  obtain ⟨⟨links, rest₂⟩, hlinks, hts⟩ := bind_eq_ok.1 hts
  cases hts
  exact (h _ _ _ hfirst).trans (consumes_pairs rfl h _ _ _ hlinks)

/-- Marks are passed, unless one of them is illegal. -/
theorem passes_dropWhile {isMark : Token → Bool} (hmark : isMark .illegal = false)
    (ts : List Token) :
    Passes ts (ts.dropWhile isMark) := by
  refine ⟨ts.takeWhile isMark, (List.takeWhile_append_dropWhile).symm, fun h => ?_⟩
  rw [List.mem_takeWhile_imp h] at hmark
  cases hmark

/-- A prefixed operand takes legal tokens off the front, if the operand does. -/
theorem consumes_prefixed {op : UnaryOp} {isMark : Token → Bool}
    (hmark : isMark .illegal = false) {operand : Reader Sketch} (h : Consumes operand) :
    Consumes (prefixed op isMark operand) := by
  intro ts a rest hts
  obtain ⟨⟨inner, rest₁⟩, hinner, hts⟩ := bind_eq_ok.1 hts
  cases hts
  exact (passes_dropWhile hmark ts).trans (h _ _ _ hinner)

/-- A comparison takes legal tokens off the front, if its operands do. -/
theorem consumes_comparison {operand : Reader Sketch} (h : Consumes operand) :
    Consumes (comparison operand) := by
  intro ts a rest hts
  obtain ⟨⟨left, rest₁⟩, hleft, hts⟩ := bind_eq_ok.1 hts
  refine (h _ _ _ hleft).trans ?_
  cases rest₁ with
  | nil =>
      cases hts
      exact .refl []
  | cons t tail =>
      simp only at hts
      split at hts
      · next op hop =>
        obtain ⟨⟨right, rest₂⟩, hright, hts⟩ := bind_eq_ok.1 hts
        cases hts
        refine (h _ _ _ hright).cons ?_
        rintro rfl
        cases hop
      · cases hts
        exact .refl (t :: tail)

/-- Arguments take legal tokens off the front, if the formulas among them do. -/
theorem consumes_arguments {formula : Reader Sketch} (h : Consumes formula) :
    Consumes (arguments formula) := by
  intro ts a rest hts
  rw [arguments.eq_def] at hts
  split at hts
  · cases hts
    exact (Passes.refl _).cons (by decide)
  · obtain ⟨⟨first, rest₁⟩, hfirst, hts⟩ := bind_eq_ok.1 hts
    obtain ⟨⟨others, rest₂⟩, hothers, hts⟩ := bind_eq_ok.1 hts
    obtain ⟨⟨_, rest₃⟩, hclose, hts⟩ := bind_eq_ok.1 hts
    cases hts
    exact ((h _ _ _ hfirst).trans (consumes_pairs rfl h _ _ _ hothers)).trans
      (consumes_expect (by decide) _ _ _ hclose)

/-- A primary formula takes legal tokens off the front, if formulas inside it do. -/
theorem consumes_primary {formula : Reader Sketch} (h : Consumes formula) :
    Consumes (primary formula) := by
  intro ts a rest hts
  rw [primary.eq_def] at hts
  split at hts
  · cases hts
    exact (Passes.refl _).cons (by simp)
  · obtain ⟨⟨args, rest₁⟩, hargs, hts⟩ := bind_eq_ok.1 hts
    cases hts
    exact ((consumes_arguments h _ _ _ hargs).cons (by decide)).cons (by simp)
  · cases hts
    exact (Passes.refl _).cons (by simp)
  · cases hts
    exact (Passes.refl _).cons (by simp)
  · obtain ⟨⟨inner, rest₁⟩, hinner, hts⟩ := bind_eq_ok.1 hts
    obtain ⟨⟨_, rest₂⟩, hclose, hts⟩ := bind_eq_ok.1 hts
    cases hts
    exact ((h _ _ _ hinner).trans (consumes_expect (by decide) _ _ _ hclose)).cons
      (by decide)
  · cases hts

section Levels

variable {formula : Reader Sketch} (h : Consumes formula)

include h

/-- A signed formula takes legal tokens off the front, if formulas inside it do. -/
theorem consumes_signed : Consumes (signed formula) :=
  consumes_prefixed rfl (consumes_primary h)

/-- A sum takes legal tokens off the front, if formulas inside it do. -/
theorem consumes_sum : Consumes (sum formula) :=
  consumes_chain (consumes_chain (consumes_signed h))

/-- A negation takes legal tokens off the front, if formulas inside it do. -/
theorem consumes_negation : Consumes (negation formula) :=
  consumes_prefixed rfl (consumes_comparison (consumes_sum h))

/-- An operand takes legal tokens off the front, if formulas inside it do. -/
theorem consumes_operand : Consumes (operand formula) :=
  consumes_chain (consumes_chain (consumes_chain (consumes_negation h)))

/-- A ternary takes legal tokens off the front, if formulas inside it do. -/
theorem consumes_ternary : Consumes (ternary formula) := by
  intro ts a rest hts
  obtain ⟨⟨condition, rest₁⟩, hcondition, hts⟩ := bind_eq_ok.1 hts
  refine (consumes_operand h _ _ _ hcondition).trans ?_
  simp only at hts
  split at hts
  · obtain ⟨⟨yes, rest₂⟩, hyes, hts⟩ := bind_eq_ok.1 hts
    obtain ⟨⟨_, rest₃⟩, hcolon, hts⟩ := bind_eq_ok.1 hts
    obtain ⟨⟨no, rest₄⟩, hno, hts⟩ := bind_eq_ok.1 hts
    cases hts
    exact (((h _ _ _ hyes).trans (consumes_expect (by decide) _ _ _ hcolon)).trans
      (h _ _ _ hno)).cons (by decide)
  · cases hts
    exact .refl _

end Levels

/-- A formula takes legal tokens off the front. -/
theorem consumes_formula (budget : Nat) : Consumes (formula budget) := by
  induction budget with
  | zero => exact fun _ _ _ h => nomatch h
  | succ budget ih => exact consumes_ternary ih

/-! ### Reading with more behind -/

/-- Nothing follows, or a closing bracket does. -/
def Closes (after : List Token) : Prop := ∀ t ∈ after.head?, t = .closeBracket

/-- What the first reader reads, the second one reads too, and with `after` behind it. -/
def Extends (after : List Token) (r r' : Reader α) : Prop :=
  ∀ ts a rest, r ts = .ok (a, rest) → r' (ts ++ after) = .ok (a, rest ++ after)

variable {after : List Token}

/-- An expected token is there also with more behind. -/
theorem extends_expect (t : Token) : Extends after (expect t) (expect t) := by
  intro ts a rest h
  cases ts with
  | nil => cases h
  | cons u tail =>
      rw [expect] at h
      rw [List.cons_append, expect]
      split at h
      · next heq =>
        cases h
        rw [if_pos heq]
      · cases h

section Extends

variable (hafter : Closes after)

include hafter

/-- What follows does not start with a token other than a closing bracket. -/
theorem Closes.head_eq_false {p : Token → Bool} (hp : p .closeBracket = false) :
    ∀ t ∈ after.head?, p t = false := by
  intro t ht
  rw [hafter t ht, hp]

/-- Pairs end before a closing bracket. -/
theorem pairsWithin_closes {separator : Token → Option σ}
    (hsep : separator .closeBracket = none) (item : Reader α) (budget : List Token) :
    pairsWithin separator item budget after = .ok ([], after) := by
  cases after with
  | nil => exact pairsWithin_nil separator item budget
  | cons t rest =>
      cases budget with
      | nil => rfl
      | cons b budget => rw [pairsWithin, hafter t rfl, hsep]

/-- Repeated pairs are read with more behind, if their items are. -/
theorem extends_pairsWithin {separator : Token → Option σ}
    (hsep : separator .closeBracket = none) {item item' : Reader α}
    (hconsumes : Consumes item) (hitem : Extends after item item') {ts : List Token}
    {budget budget' : List Token} {ps : List (σ × α)} {rest : List Token}
    (hbudget : ts.length ≤ budget.length) (hbudget' : ts.length ≤ budget'.length)
    (h : pairsWithin separator item budget ts = .ok (ps, rest)) :
    pairsWithin separator item' budget' (ts ++ after) = .ok (ps, rest ++ after) := by
  induction budget generalizing ts budget' ps rest with
  | nil =>
      rw [List.length_nil, Nat.le_zero, List.length_eq_zero_iff] at hbudget
      subst hbudget
      cases h
      exact pairsWithin_closes hafter hsep item' budget'
  | cons b budget ih =>
      cases ts with
      | nil =>
          rw [pairsWithin_nil] at h
          cases h
          exact pairsWithin_closes hafter hsep item' budget'
      | cons t tail =>
          cases budget' with
          | nil => cases hbudget'
          | cons b' budget' =>
              rw [pairsWithin] at h
              rw [List.cons_append, pairsWithin]
              split at h
              · next hs =>
                cases h
                rfl
              · next s hs =>
                obtain ⟨⟨a, rest₁⟩, ha, h⟩ := bind_eq_ok.1 h
                obtain ⟨⟨more, rest₂⟩, hmore, h⟩ := bind_eq_ok.1 h
                cases h
                have hle := (hconsumes _ _ _ ha).length_le
                rw [List.length_cons] at hbudget hbudget'
                refine bind_eq_ok.2 ⟨(a, rest₁ ++ after), hitem _ _ _ ha, ?_⟩
                refine bind_eq_ok.2 ⟨(more, rest ++ after), ?_, rfl⟩
                exact ih (Nat.le_trans hle (Nat.le_of_succ_le_succ hbudget))
                  (Nat.le_trans hle (Nat.le_of_succ_le_succ hbudget')) hmore

/-- Pairs are read with more behind, if their items are. -/
theorem extends_pairs {separator : Token → Option σ} (hsep : separator .closeBracket = none)
    {item item' : Reader α} (hconsumes : Consumes item) (hitem : Extends after item item') :
    Extends after (pairs separator item) (pairs separator item') := fun ts _ _ h =>
  extends_pairsWithin hafter hsep hconsumes hitem (Nat.le_refl _)
    (by rw [List.length_append]; exact Nat.le_add_right ..) h

/-- A chain is read with more behind, if its operands are. -/
theorem extends_chain {level : BinaryOp → Bool} {operand operand' : Reader Sketch}
    (hconsumes : Consumes operand) (h : Extends after operand operand') :
    Extends after (chain level operand) (chain level operand') := by
  intro ts a rest hts
  obtain ⟨⟨first, rest₁⟩, hfirst, hts⟩ := bind_eq_ok.1 hts
  obtain ⟨⟨links, rest₂⟩, hlinks, hts⟩ := bind_eq_ok.1 hts
  cases hts
  refine bind_eq_ok.2 ⟨(first, rest₁ ++ after), h _ _ _ hfirst, ?_⟩
  exact bind_eq_ok.2 ⟨(links, rest ++ after),
    extends_pairs hafter rfl hconsumes h _ _ _ hlinks, rfl⟩

/-- A prefixed operand is read with more behind, if the operand is. -/
theorem extends_prefixed {op : UnaryOp} {isMark : Token → Bool}
    (hmark : isMark .closeBracket = false) {operand operand' : Reader Sketch}
    (h : Extends after operand operand') :
    Extends after (prefixed op isMark operand) (prefixed op isMark operand') := by
  intro ts a rest hts
  obtain ⟨⟨inner, rest₁⟩, hinner, hts⟩ := bind_eq_ok.1 hts
  cases hts
  have hhead := hafter.head_eq_false hmark
  rw [prefixed, takeWhile_append_of_head hhead, dropWhile_append_of_head hhead]
  exact bind_eq_ok.2 ⟨(inner, rest ++ after), h _ _ _ hinner, rfl⟩

/-- A comparison is read with more behind, if its operands are. -/
theorem extends_comparison {operand operand' : Reader Sketch}
    (h : Extends after operand operand') :
    Extends after (comparison operand) (comparison operand') := by
  intro ts a rest hts
  obtain ⟨⟨left, rest₁⟩, hleft, hts⟩ := bind_eq_ok.1 hts
  refine bind_eq_ok.2 ⟨(left, rest₁ ++ after), h _ _ _ hleft, ?_⟩
  cases rest₁ with
  | nil =>
      cases hts
      cases after with
      | nil => rfl
      | cons t tail =>
          rw [hafter t rfl]
          rfl
  | cons t tail =>
      simp only [List.cons_append] at hts ⊢
      split at hts
      · next op hop =>
        obtain ⟨⟨right, rest₂⟩, hright, hts⟩ := bind_eq_ok.1 hts
        cases hts
        exact bind_eq_ok.2 ⟨_, h _ _ _ hright, rfl⟩
      · cases hts
        rfl

/-- Arguments are read with more behind, if the formulas among them are. -/
theorem extends_arguments {formula formula' : Reader Sketch} (hconsumes : Consumes formula)
    (h : Extends after formula formula') :
    Extends after (arguments formula) (arguments formula') := by
  intro ts a rest hts
  rw [arguments.eq_def] at hts
  split at hts
  · cases hts
    rfl
  · next hclose =>
    obtain ⟨⟨first, rest₁⟩, hfirst, hts⟩ := bind_eq_ok.1 hts
    obtain ⟨⟨others, rest₂⟩, hothers, hts⟩ := bind_eq_ok.1 hts
    obtain ⟨⟨_, rest₃⟩, hexpect, hts⟩ := bind_eq_ok.1 hts
    cases hts
    -- The closing bracket is read from the tokens themselves, so that they do not run out
    -- before.
    have hlong :=
      (hconsumes _ _ _ hfirst).trans (consumes_pairs rfl hconsumes _ _ _ hothers)
    cases ts with
    | nil =>
        rw [List.length_eq_zero_iff.1 (Nat.le_zero.1 hlong.length_le)] at hexpect
        cases hexpect
    | cons t tail =>
        rw [List.cons_append, arguments.eq_def]
        split
        · next heq =>
          cases heq
          exact absurd rfl (hclose tail)
        · refine bind_eq_ok.2 ⟨_, h _ _ _ hfirst, ?_⟩
          refine bind_eq_ok.2 ⟨_, extends_pairs hafter rfl hconsumes h _ _ _ hothers, ?_⟩
          exact bind_eq_ok.2 ⟨_, extends_expect .closeBracket _ _ _ hexpect, rfl⟩

/-- A primary formula is read with more behind, if formulas inside it are. -/
theorem extends_primary {formula formula' : Reader Sketch} (hconsumes : Consumes formula)
    (h : Extends after formula formula') :
    Extends after (primary formula) (primary formula') := by
  intro ts a rest hts
  rw [primary.eq_def] at hts
  split at hts
  · cases hts
    rfl
  · next name tail =>
    obtain ⟨⟨args, rest₁⟩, hargs, hts⟩ := bind_eq_ok.1 hts
    cases hts
    exact bind_eq_ok.2 ⟨_, extends_arguments hafter hconsumes h _ _ _ hargs, rfl⟩
  · next name tail hopen =>
    cases hts
    cases rest with
    | nil =>
        cases after with
        | nil => rfl
        | cons t after =>
            rw [hafter t rfl]
            rfl
    | cons t tail =>
        rw [List.cons_append, List.cons_append, primary.eq_def]
        split
        all_goals simp_all
  · cases hts
    rfl
  · obtain ⟨⟨inner, rest₁⟩, hinner, hts⟩ := bind_eq_ok.1 hts
    obtain ⟨⟨_, rest₂⟩, hclose, hts⟩ := bind_eq_ok.1 hts
    cases hts
    refine bind_eq_ok.2 ⟨_, h _ _ _ hinner, ?_⟩
    exact bind_eq_ok.2 ⟨_, extends_expect .closeBracket _ _ _ hclose, rfl⟩
  · cases hts

section Levels

variable {formula formula' : Reader Sketch} (hconsumes : Consumes formula)
  (h : Extends after formula formula')

include hconsumes h

/-- A signed formula is read with more behind, if formulas inside it are. -/
theorem extends_signed : Extends after (signed formula) (signed formula') :=
  extends_prefixed hafter rfl (extends_primary hafter hconsumes h)

/-- A sum is read with more behind, if formulas inside it are. -/
theorem extends_sum : Extends after (sum formula) (sum formula') :=
  extends_chain hafter (consumes_chain (consumes_signed hconsumes))
    (extends_chain hafter (consumes_signed hconsumes) (extends_signed hafter hconsumes h))

/-- A negation is read with more behind, if formulas inside it are. -/
theorem extends_negation : Extends after (negation formula) (negation formula') :=
  extends_prefixed hafter rfl (extends_comparison hafter (extends_sum hafter hconsumes h))

/-- An operand is read with more behind, if formulas inside it are. -/
theorem extends_operand : Extends after (operand formula) (operand formula') := by
  have hnegation := consumes_negation hconsumes
  exact extends_chain hafter (consumes_chain (consumes_chain hnegation))
    (extends_chain hafter (consumes_chain hnegation)
      (extends_chain hafter hnegation (extends_negation hafter hconsumes h)))

/-- A ternary is read with more behind, if formulas inside it are. -/
theorem extends_ternary : Extends after (ternary formula) (ternary formula') := by
  intro ts a rest hts
  obtain ⟨⟨condition, rest₁⟩, hcondition, hts⟩ := bind_eq_ok.1 hts
  refine bind_eq_ok.2 ⟨_, extends_operand hafter hconsumes h _ _ _ hcondition, ?_⟩
  simp only at hts ⊢
  split at hts
  · obtain ⟨⟨yes, rest₂⟩, hyes, hts⟩ := bind_eq_ok.1 hts
    obtain ⟨⟨_, rest₃⟩, hcolon, hts⟩ := bind_eq_ok.1 hts
    obtain ⟨⟨no, rest₄⟩, hno, hts⟩ := bind_eq_ok.1 hts
    cases hts
    refine bind_eq_ok.2 ⟨_, h _ _ _ hyes, ?_⟩
    refine bind_eq_ok.2 ⟨_, extends_expect .colon _ _ _ hcolon, ?_⟩
    exact bind_eq_ok.2 ⟨_, h _ _ _ hno, rfl⟩
  · next hquestion =>
    cases hts
    cases rest with
    | nil =>
        cases after with
        | nil => rfl
        | cons t after =>
            rw [hafter t rfl]
            rfl
    | cons t tail =>
        rw [List.cons_append]
        split
        · next heq =>
          cases heq
          exact absurd rfl (hquestion tail)
        · rfl

end Levels

/-- A larger budget and a closing bracket behind it change nothing about a formula. -/
theorem extends_formula {budget budget' : Nat} (hle : budget ≤ budget') :
    Extends after (formula budget) (formula budget') := by
  induction budget generalizing budget' with
  | zero => exact fun _ _ _ h => (nomatch h)
  | succ budget ih =>
      cases budget' with
      | zero => cases hle
      | succ budget' =>
          exact extends_ternary hafter (consumes_formula budget)
            (ih (Nat.le_of_succ_le_succ hle))

end Extends

/-! ### Reading a whole text -/

/-- What is read is a formula that takes all of the tokens. -/
theorem read_eq_ok {ts : List Token} {s : Sketch} :
    read ts = .ok s ↔ formula (ts.length + 1) ts = .ok (s, []) := by
  rw [read, bind_eq_ok]
  constructor
  · rintro ⟨⟨t, rest⟩, h, hrest⟩
    cases rest with
    | nil =>
        cases hrest
        exact h
    | cons u rest => cases hrest
  · intro h
    exact ⟨(s, []), h, rfl⟩

/-- No token of a formula is illegal. -/
theorem illegal_notMem_of_read {ts : List Token} {s : Sketch} (h : read ts = .ok s) :
    .illegal ∉ ts := by
  obtain ⟨front, hfront, hillegal⟩ := consumes_formula _ _ _ _ (read_eq_ok.1 h)
  rwa [hfront, List.append_nil]

/-- A whole formula is read in the same way before a closing bracket. -/
theorem formula_append {ts : List Token} {s : Sketch} (h : read ts = .ok s) {budget : Nat}
    (hbudget : ts.length < budget) (rest : List Token) :
    formula budget (ts ++ .closeBracket :: rest) = .ok (s, .closeBracket :: rest) := by
  have hcloses : Closes (.closeBracket :: rest) := by
    rintro t ⟨⟩
    rfl
  exact extends_formula hcloses hbudget _ _ _ (read_eq_ok.1 h)

end FormulaTable.Grammar
