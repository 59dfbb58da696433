import FormulaTable.Proofs.Formula.Agreement
import FormulaTable.Proofs.Formula.Bound
import FormulaTable.Proofs.Formula.Building
import FormulaTable.Proofs.Formula.Reading

/-!
# Texts are matched as they are read

Brackets, calls and ternaries contain formulas, so that rules and readers go together by
induction on the budget. The matcher may try a formula where the reader does not look for
one, before the closing bracket of a call without arguments; there it does not match.

* `agrees_expression` — formulas are matched as they are read.
* `read_of_matchText`, `isStuck_of_matchText` — so are whole texts.
* `recursionBounded` — the nesting check bounds the recursion of the matcher that the
  program stands for.
-/

namespace FormulaTable

namespace Matching

open Grammar (Reader Sketch operatorIn)
open Terminal (ofToken isToken)
open Token (ofText)

variable {α β : Type} {n : Nat} {dead : Token → Prop} {cs rest : List Char} {t : Token}

/-! ### A formula does not start with a closing bracket -/

/-- The rule does not match a text that starts with a closing bracket. -/
def Refuses (p : Rule α) : Prop :=
  ∀ cs, Starts (· = .closeBracket) cs → ∀ found, p cs ≠ .ok found

/-- A terminal for other tokens refuses a closing bracket. -/
theorem refuses_terminal {want : Token → Option α} (h : want .closeBracket = none) :
    Refuses (terminal (ofToken want)) := by
  intro cs hstarts found hfound
  rw [terminal_of_starts hstarts (by rintro _ rfl; exact h)] at hfound
  cases hfound

/-- What goes on from a rule that refuses a closing bracket refuses it. -/
theorem Refuses.bind {p : Rule α} (h : Refuses p)
    (k : α × List Char → Except Miss (β × List Char)) :
    Refuses fun cs => p cs >>= k := by
  intro cs hstarts found hfound
  obtain ⟨first, hfirst, -⟩ := bind_eq_ok.1 hfound
  exact h cs hstarts first hfirst

/-- A choice refuses a closing bracket if both alternatives do. -/
theorem Refuses.orElse {p q : Rule α} (hp : Refuses p) (hq : Refuses q) :
    Refuses (orElse p q) := by
  intro cs hstarts found hfound
  rw [Matching.orElse] at hfound
  split at hfound
  · exact hq cs hstarts found hfound
  · exact hp cs hstarts found hfound

/-- A leaf refuses a closing bracket if its terminal does. -/
theorem Refuses.leaf {t : Terminal α} (h : Refuses (terminal t)) (phrase : α → Phrase) :
    Refuses (leaf t phrase) := by
  intro cs hstarts found hfound
  obtain ⟨first, hfirst, -⟩ := map_eq_ok.1 hfound
  exact h cs hstarts first hfirst

/-- A prefixed operand refuses a closing bracket if the operand does. -/
theorem Refuses.prefixed {operand : Rule Phrase} (h : Refuses operand) (op : UnaryOp)
    {u : Token} (hu : u ≠ .closeBracket) :
    Refuses (prefixed op (ofToken (isToken u)) operand) := by
  intro cs hstarts found hfound
  have hmiss : terminal (ofToken (isToken u)) cs = .error .mismatch :=
    terminal_of_starts hstarts (by rintro _ rfl; exact if_neg (Ne.symm hu))
  rw [Matching.prefixed, many, manyWithin_of_mismatch hmiss] at hfound
  obtain ⟨_, ⟨⟩, hfound⟩ := bind_eq_ok.1 hfound
  obtain ⟨inner, hinner, -⟩ := bind_eq_ok.1 hfound
  exact h cs hstarts inner hinner

/-- No primary formula starts with a closing bracket. -/
theorem refuses_primary (e : Rule Phrase) : Refuses (primary e) := by
  have hliteral : Refuses (leaf Terminal.literal .literal) :=
    .leaf (by rw [Terminal.literal_eq]; exact refuses_terminal rfl) _
  have hcall : Refuses (call e) :=
    .bind (by rw [Terminal.identifier_eq]; exact refuses_terminal rfl) _
  have hcolumn : Refuses
      (leaf (.firstOf [Terminal.quotedIdentifier, Terminal.identifier]) .column) :=
    .leaf (by rw [Terminal.column_eq]; exact refuses_terminal rfl) _
  have hbracketed : Refuses (bracketed e) :=
    .bind (by rw [Terminal.openBracket_eq]; exact refuses_terminal rfl) _
  exact hliteral.orElse (hcall.orElse (hcolumn.orElse hbracketed))

/-- No formula starts with a closing bracket. -/
theorem refuses_expression (budget : Nat) : Refuses (expression budget) := by
  cases budget with
  | zero => exact fun cs _ found h => nomatch h
  | succ budget =>
      have hsigned : Refuses (signed (expression budget)) := by
        rw [signed, Terminal.negOp_eq]
        exact (refuses_primary _).prefixed .neg (by decide)
      have hnegation : Refuses (negation (expression budget)) := by
        rw [negation, Terminal.notOp_eq]
        exact Refuses.prefixed (((hsigned.bind _).bind _).bind _) .not (by decide)
      exact (((hnegation.bind _).bind _).bind _).bind _

/-! ### Arguments, calls and brackets -/

/-- Reads the arguments up to the closing bracket, where there are some. -/
def readArguments (r : Reader Sketch) : Reader (List Sketch) := fun tokens => do
  let (first, rest) ← r tokens
  let (others, rest) ← Grammar.pairs Grammar.commaMark r rest
  return (first :: others.map (·.2), rest)

/-- Arguments are read if the bracket is not closed at once. -/
theorem arguments_of_ne {r : Reader Sketch} {tokens : List Token}
    (h : ∀ rest, tokens ≠ .closeBracket :: rest) :
    Grammar.arguments r tokens = (readArguments r tokens >>= fun (args, rest) => do
      let (_, rest) ← Grammar.expect .closeBracket rest
      return (args, rest)) := by
  rw [Grammar.arguments, readArguments]
  · simp only [bind_assoc, pure_bind]
  · exact fun rest heq => h rest heq

section Expression

variable {e : Rule Phrase} {r : Reader Sketch}

/-- The token between arguments is a comma. -/
theorem isToken_comma : isToken .comma = Grammar.commaMark := by
  funext t
  cases t <;> rfl

/-- A comma and a formula. -/
theorem separated_comma (e : Rule Phrase) :
    separated Grammar.commaMark (fun _ a => a) e = (fun cs => do
      let (_, rest) ← terminal (.symbol [','] ()) cs
      e rest) := by
  rw [Terminal.comma_eq, isToken_comma]
  funext cs
  exact bind_congr fun _ => bind_pure _

/-- Arguments go together if the formulas among them do. -/
theorem agrees_arguments (he : Agrees n dead e r)
    (hdead : ∀ t, dead t → Grammar.commaMark t = none) (hcs : (ofText cs).length < n) :
    AgreesOn (fun t => dead t ∨ (Grammar.commaMark t).isSome) (List.map Phrase.sketch) cs
      (readArguments r (ofText cs)) (arguments e cs) := by
  rw [arguments, ← separated_comma, readArguments]
  refine (he cs hcs).bind (fun first rest hle => ?_) fun first rest hstarts m => ?_
  · have hothers :=
      agrees_manyWithin (g := fun _ a => a) (f := fun a => ((), a.sketch)) he hdead
      (fun _ _ => rfl) rest (ofText rest) (Nat.le_refl _) (Nat.le_refl _)
      (Nat.le_of_lt (Nat.lt_of_le_of_lt hle.tokens hcs))
    refine hothers.bind (fun others rest' _ => ?_) fun others rest' hstarts m => ?_
    · have hsame : (others.map fun a => ((), a.sketch)).map (·.2) =
          others.map Phrase.sketch := by
        rw [List.map_map]
        rfl
      exact .done (by simp only [hsame]; rfl)
    · exact .stuck hstarts _ _ m
  · have hmiss : separated Grammar.commaMark (fun _ a => a) e rest = .error .mismatch :=
      separated_of_starts hstarts hdead
    change AgreesOn _ _ _ _
      (manyWithin (separated Grammar.commaMark (fun _ a => a) e) rest rest >>= _)
    rw [manyWithin_of_mismatch hmiss]
    exact .stuck (hstarts.mono fun _ => .inl) _ _ m

/-- A terminal for one token matches it where the reader expects it. -/
theorem agrees_expect (t : Token) (cs : List Char) :
    AgreesOn dead id cs (Grammar.expect t (ofText cs))
      (terminal (ofToken (isToken t)) cs) := by
  rcases ofText_eq_nil_or_next cs with hnil | ⟨u, rest, hnext⟩
  · rw [terminal_of_nil hnil, hnil]
    exact ⟨_, rfl⟩
  · rw [terminal_of_next hnext, hnext.ofText_eq, Grammar.expect, isToken]
    split
    · exact ⟨hnext.notLonger, .inl rfl⟩
    · exact ⟨_, rfl⟩

/-- What stands between the brackets of a call, and the closing one. -/
def closed (e : Rule Phrase) : Rule (List Phrase) := fun cs => do
  let (args, rest) ← optional (arguments e) cs
  let (_, rest) ← terminal (.symbol [')'] ()) rest
  return (args.getD [], rest)

/-- No text starts with a token of no kind. -/
theorem not_starts_false (cs : List Char) : ¬ Starts (fun _ => False) cs :=
  fun ⟨_, _, h⟩ => h

/-- Without arguments the closing bracket comes first, and no formula is tried in vain
before it. -/
theorem agrees_closed_of_starts (r : Reader Sketch) (hrefuses : Refuses e)
    (hstarts : Starts (· = .closeBracket) cs) :
    AgreesOn dead (List.map Phrase.sketch) cs (Grammar.arguments r (ofText cs))
      (closed e cs) := by
  obtain ⟨rest, hnext⟩ := hstarts.exists_next
  cases hx : e cs with
  | ok found => exact absurd hx (hrefuses cs hstarts found)
  | error miss =>
      have harguments : arguments e cs = .error miss := by
        rw [arguments, hx]
        rfl
      rw [closed, Terminal.closeBracket_eq]
      cases miss with
      | mismatch =>
          rw [optional_of_mismatch harguments]
          change AgreesOn _ _ _ _ (terminal (ofToken (isToken .closeBracket)) cs >>= _)
          rw [terminal_of_next hnext, hnext.ofText_eq]
          exact ⟨hnext.notLonger, .inl rfl⟩
      | overBudget =>
          rw [optional_of_overBudget harguments]
          trivial

/-- Arguments with their closing bracket go together if the formulas among them do. -/
theorem agrees_closed (he : Agrees n dead e r)
    (hcomma : ∀ t, dead t → Grammar.commaMark t = none) (hclose : ¬ dead .closeBracket)
    (hrefuses : Refuses e) (hcs : (ofText cs).length < n) :
    AgreesOn (fun _ => False) (List.map Phrase.sketch) cs (Grammar.arguments r (ofText cs))
      (closed e cs) := by
  by_cases hstarts : Starts (· = .closeBracket) cs
  · exact agrees_closed_of_starts r hrefuses hstarts
  have hne : ∀ rest, ofText cs ≠ .closeBracket :: rest := by
    intro rest heq
    exact hstarts ⟨_, by rw [heq]; rfl, rfl⟩
  have harguments := agrees_arguments he hcomma hcs
  rw [arguments_of_ne hne, closed, Terminal.closeBracket_eq]
  cases hx : arguments e cs with
  | error miss =>
      rw [hx] at harguments
      cases miss with
      | mismatch =>
          obtain ⟨m, hstuck⟩ := harguments
          rw [optional_of_mismatch hx, hstuck]
          change AgreesOn _ _ _ _ (terminal (ofToken (isToken .closeBracket)) cs >>= _)
          rw [terminal_of_not_starts hstarts]
          exact ⟨m, rfl⟩
      | overBudget =>
          rw [optional_of_overBudget hx]
          trivial
  | ok found =>
      obtain ⟨args, rest⟩ := found
      rw [hx] at harguments
      obtain ⟨hle, hread⟩ := harguments
      rw [optional_of_ok hx]
      refine AgreesOn.weaken ?_ hle
      rcases hread with hread | ⟨hstarts, m, hread⟩
      · rw [hread]
        exact (agrees_expect .closeBracket rest).bind (fun _ rest' _ => .done rfl)
          fun _ rest' hstarts m => absurd hstarts (not_starts_false rest')
      · rw [hread]
        change AgreesOn _ _ _ _ (terminal (ofToken (isToken .closeBracket)) rest >>= _)
        have hne : ¬ (dead .closeBracket ∨ (Grammar.commaMark .closeBracket).isSome) :=
          fun h => h.elim hclose fun h => nomatch h
        rw [terminal_of_not_starts (hstarts.not_starts hne)]
        exact ⟨m, rfl⟩

/-- A call whose name is matched. -/
def callRest (e : Rule Phrase) (name : String) : Rule Phrase := fun cs => do
  let (_, rest) ← terminal (.symbol ['('] ()) cs
  let (args, rest) ← closed e rest
  return (.call name args, rest)

/-- A formula in brackets, the first of which is matched. -/
def bracketedRest (e : Rule Phrase) : Rule Phrase := fun cs => do
  let (inner, rest) ← e cs
  let (_, rest) ← terminal (.symbol [')'] ()) rest
  return (inner, rest)

/-- A leaf is made of the token that comes next. -/
theorem leaf_of_next (h : Next cs t rest) (want : Token → Option α) (phrase : α → Phrase) :
    leaf (ofToken want) phrase cs = ((want t).map fun a => (phrase a, rest)).elim
      (.error .mismatch) .ok := by
  rw [leaf, terminal_of_next h]
  cases want t <;> rfl

/-- A call starts with a name. -/
theorem call_of_next (h : Next cs t rest) (e : Rule Phrase) :
    call e cs = ((Terminal.name? t).map fun name => callRest e name rest).getD
      (.error .mismatch) := by
  rw [call, Terminal.identifier_eq, terminal_of_next h]
  cases Terminal.name? t with
  | none => rfl
  | some name =>
      simp only [Option.map_some, Option.getD_some, callRest, closed, bind_assoc, pure_bind]
      rfl

/-- A bracketed formula starts with an opening bracket. -/
theorem bracketed_of_next (h : Next cs t rest) (e : Rule Phrase) :
    bracketed e cs = if t = .openBracket then bracketedRest e rest
      else .error .mismatch := by
  rw [bracketed, Terminal.openBracket_eq, terminal_of_next h, isToken]
  split <;> rfl

/-- An operand without operators whose first token is matched. A name may still be that of a
column when it is not that of a call. -/
def primaryRest (e : Rule Phrase) (rest : List Char) :
    Token → Except Miss (Phrase × List Char)
  | .literal l => .ok (.literal l, rest)
  | .word name => orElse (callRest e name) (fun rest => .ok (.column name, rest)) rest
  | .quotedName name => .ok (.column name, rest)
  | .openBracket => bracketedRest e rest
  | _ => .error .mismatch

/-- The first token tells which alternative can match. -/
theorem primary_of_next (h : Next cs t rest) (e : Rule Phrase) :
    primary e cs = primaryRest e rest t := by
  simp only [primary, Terminal.literal_eq, Terminal.column_eq, orElse, leaf_of_next h,
    call_of_next h, bracketed_of_next h]
  cases t with
  | word name =>
      have hname : Terminal.name? (.word name) = some name := rfl
      rw [hname, Option.map_some, Option.getD_some, primaryRest, orElse]
      cases callRest e name rest with
      | ok found => rfl
      | error miss => cases miss <;> rfl
  | literal _ | quotedName _ | openBracket | operator _ | not | question | colon | comma
  | closeBracket | illegal => rfl

/-- Behind its name and its opening bracket, a call goes together. -/
theorem agrees_callRest (he : Agrees n dead e r)
    (hcomma : ∀ t, dead t → Grammar.commaMark t = none) (hclose : ¬ dead .closeBracket)
    (hrefuses : Refuses e) (name : String) (hnext : Next cs .openBracket rest)
    (hrest : (ofText rest).length < n) :
    AgreesOn (fun _ => False) Phrase.sketch cs
      (Grammar.arguments r (ofText rest) >>= fun (args, rest) =>
          return (.call name args, rest))
      (callRest e name cs) := by
  rw [callRest, Terminal.openBracket_eq, terminal_of_next hnext]
  refine AgreesOn.weaken ?_ hnext.notLonger
  refine (agrees_closed he hcomma hclose hrefuses hrest).bind (fun args rest' _ => ?_)
    fun _ rest' hstarts m => absurd hstarts (not_starts_false rest')
  exact .done (by rw [Phrase.sketch, Phrase.sketchAll_eq]; rfl)

/-- Behind its opening bracket, a bracketed formula goes together. -/
theorem agrees_bracketedRest (he : Agrees n dead e r) (hclose : ¬ dead .closeBracket)
    (hcs : (ofText cs).length < n) :
    AgreesOn (fun _ => False) Phrase.sketch cs
      (r (ofText cs) >>= fun (inner, rest) => do
        let (_, rest) ← Grammar.expect .closeBracket rest
        return (inner, rest))
      (bracketedRest e cs) := by
  rw [bracketedRest, Terminal.closeBracket_eq]
  refine (he cs hcs).bind (fun inner rest _ => ?_) fun inner rest hstarts m => ?_
  · exact (agrees_expect .closeBracket rest).bind (fun _ rest' _ => .done rfl)
      fun _ rest' hstarts m => absurd hstarts (not_starts_false rest')
  · change AgreesOn _ _ _ _ (terminal (ofToken (isToken .closeBracket)) rest >>= _)
    rw [terminal_of_not_starts (hstarts.not_starts hclose)]
    exact ⟨m, rfl⟩

/-- What is left behind an operand without operators may start with an opening bracket: that
of a call whose arguments do not match. -/
theorem agrees_primary (he : Agrees n dead e r)
    (hcomma : ∀ t, dead t → Grammar.commaMark t = none) (hclose : ¬ dead .closeBracket)
    (hrefuses : Refuses e) :
    Agrees (n + 1) (· = .openBracket) (primary e) (Grammar.primary r) := by
  intro cs hcs
  rcases ofText_eq_nil_or_next cs with hnil | ⟨t, rest, hnext⟩
  · have hmiss : primary e cs = .error .mismatch := by
      rw [primary, Terminal.literal_eq, Terminal.column_eq]
      simp only [orElse, leaf, call, bracketed, Terminal.identifier_eq,
        Terminal.openBracket_eq, terminal_of_nil hnil]
      rfl
    rw [hmiss, hnil]
    exact ⟨_, rfl⟩
  rw [primary_of_next hnext, hnext.ofText_eq]
  rw [hnext.ofText_eq, List.length_cons] at hcs
  cases t with
  | literal _ | quotedName _ => exact ⟨hnext.notLonger, .inl rfl⟩
  | operator _ | not | question | colon | comma | closeBracket | illegal => exact ⟨_, rfl⟩
  | openBracket =>
      have hrest := agrees_bracketedRest he hclose (Nat.lt_of_succ_lt_succ hcs)
      exact (hrest.mono fun _ h => h.elim).weaken hnext.notLonger
  | word name =>
      refine AgreesOn.weaken ?_ hnext.notLonger
      by_cases hopen : Starts (· = .openBracket) rest
      · obtain ⟨rest', hnext'⟩ := hopen.exists_next
        rw [hnext'.ofText_eq, List.length_cons] at hcs
        have hcall := agrees_callRest he hcomma hclose hrefuses name hnext' (by omega)
        rw [hnext'.ofText_eq]
        exact hcall.orElse hopen (fun _ h => h.elim) (.column name)
      · have hcall : callRest e name rest = .error .mismatch := by
          rw [callRest, Terminal.openBracket_eq, terminal_of_not_starts hopen]
          rfl
        rw [primaryRest, orElse, hcall]
        refine .done ?_
        rw [Grammar.primary]
        · rfl
        · exact fun ts heq => hopen ⟨_, by rw [heq]; rfl, rfl⟩

/-! ### Formulas -/

/-- The tokens that a match may leave in the text after it has gone back: nothing around a
formula goes on with them. -/
def DeadEnd (t : Token) : Prop := t = .question ∨ Stops (fun _ => true) t

/-- No dead end is a comma. -/
theorem commaMark_of_deadEnd (h : DeadEnd t) : Grammar.commaMark t = none := by
  rcases h with rfl | rfl | h
  · rfl
  · rfl
  · cases t <;> first | rfl | cases h

/-- No dead end is a closing bracket. -/
theorem not_deadEnd_closeBracket : ¬ DeadEnd .closeBracket := by
  rintro (⟨⟨⟩⟩ | ⟨⟨⟩⟩ | ⟨⟨⟩⟩)

/-- No dead end is a colon. -/
theorem not_deadEnd_colon : ¬ DeadEnd .colon := by
  rintro (⟨⟨⟩⟩ | ⟨⟨⟩⟩ | ⟨⟨⟩⟩)

/-- Each level of operands may leave its own operators behind, and those that bind
tighter. -/
theorem agrees_operand (he : Agrees n DeadEnd e r) (hrefuses : Refuses e) :
    Agrees (n + 1) (Stops fun _ => true) (operand e) (Grammar.operand r) := by
  have hprimary : Agrees (n + 1) (Stops fun _ => false) (primary e) (Grammar.primary r) :=
    (agrees_primary he (fun _ => commaMark_of_deadEnd) not_deadEnd_closeBracket
        hrefuses).mono fun t => .inl
  have hsigned := hprimary.prefixed .neg (.operator .sub)
  have hproducts := hsigned.chain Grammar.isMultiplicative fun op h => nomatch h
  have hsums := hproducts.chain Grammar.isAdditive fun op => by cases op <;> decide
  have hnegations := (hsums.comparison fun op => by cases op <;> decide).prefixed .not .not
  have hands := hnegations.chain (· = .and) fun op => by cases op <;> decide
  have hors := hands.chain (· = .or) fun op => by cases op <;> decide
  have hcoalesces := hors.chain (· = .coalesce) fun op => by cases op <;> decide
  rw [operand, Terminal.coalesceOp_eq, Terminal.orOp_eq, Terminal.andOp_eq, negation,
    Terminal.notOp_eq, sum, Terminal.additiveOp_eq, Terminal.multiplicativeOp_eq, signed,
    Terminal.negOp_eq]
  refine hcoalesces.mono fun t ht => ht.imp_right fun ht => ?_
  cases t <;> first | rfl | cases ht

/-- The branches of a ternary whose question mark is matched. -/
def branchesRest (e : Rule Phrase) : Rule (Phrase × Phrase) := fun cs => do
  let (yes, rest) ← e cs
  let (_, rest) ← terminal (.symbol [':'] ()) rest
  let (no, rest) ← e rest
  return ((yes, no), rest)

/-- Behind its question mark, a ternary goes together. -/
theorem agrees_branchesRest (he : Agrees n DeadEnd e r) (condition : Sketch)
    (hcs : (ofText cs).length < n) :
    AgreesOn DeadEnd
      (fun found : Phrase × Phrase =>
          Tree.conditional condition found.1.sketch found.2.sketch) cs
      (r (ofText cs) >>= fun (yes, rest) => do
        let (_, rest) ← Grammar.expect .colon rest
        let (no, rest) ← r rest
        return (Tree.conditional condition yes no, rest))
      (branchesRest e cs) := by
  rw [branchesRest, Terminal.colon_eq]
  refine (he cs hcs).bind (fun yes rest hle => ?_) fun yes rest hstarts m => ?_
  · refine (agrees_expect .colon rest).bind (fun _ rest' hle' => ?_)
      fun _ rest' hstarts m => absurd hstarts (not_starts_false rest')
    have hrest' := Nat.lt_of_le_of_lt (Nat.le_trans hle'.tokens hle.tokens) hcs
    exact (he rest' hrest').bind (fun no rest'' _ => .done rfl)
      fun no rest'' hstarts m => .stuck hstarts _ _ m
  · change AgreesOn _ _ _ _ (terminal (ofToken (isToken .colon)) rest >>= _)
    rw [terminal_of_not_starts (hstarts.not_starts not_deadEnd_colon)]
    exact ⟨m, rfl⟩

/-- A formula goes together if the formulas inside it do. -/
theorem agrees_ternary (he : Agrees n DeadEnd e r) (hrefuses : Refuses e) :
    Agrees (n + 1) DeadEnd (ternary e) (Grammar.ternary r) := by
  intro cs hcs
  -- Without a question mark both stop after the operand.
  have hnone (rest : List Char) (h : ¬ Starts (· = .question) rest) :
      optional (branches e) rest = .ok (none, rest) := by
    refine optional_of_mismatch ?_
    rw [branches, Terminal.question_eq, terminal_of_not_starts h]
    rfl
  refine (agrees_operand he hrefuses cs hcs).bind (fun condition rest hle => ?_)
    fun condition rest hstarts m => ?_
  · by_cases hquestion : Starts (· = .question) rest
    · obtain ⟨rest', hnext⟩ := hquestion.exists_next
      have hrest' : (ofText rest').length < n := by
        have := hle.tokens
        rw [hnext.ofText_eq, List.length_cons] at this
        omega
      have hsplit : branches e rest = branchesRest e rest' := by
        rw [branches, Terminal.question_eq, terminal_of_next hnext]
        rfl
      have hbranches :=
        (agrees_branchesRest he condition.sketch hrest').weaken hnext.notLonger
      rw [← hsplit] at hbranches
      simp only [hnext.ofText_eq]
      refine (hbranches.optional (hquestion.mono fun _ => .inl)
          (fun _ h => h) condition.sketch).map
        (g := fun found => found.elim condition fun found =>
            .conditional condition found.1 found.2) ?_ ?_
      · rintro (_ | _) rest <;> rfl
      · rintro (_ | _) <;> rfl
    · simp only [hnone rest hquestion]
      refine .done ?_
      split
      · next heq => exact absurd ⟨_, by rw [heq]; rfl, rfl⟩ hquestion
      · rfl
  · have hquestion : ¬ Stops (fun _ => true) .question := by rintro (⟨⟨⟩⟩ | ⟨⟨⟩⟩)
    change AgreesOn _ _ _ _ (optional (branches e) rest >>= _)
    rw [hnone rest (hstarts.not_starts hquestion)]
    exact .stuck (hstarts.mono fun _ => .inr) _ _ m

end Expression

/-- **Formulas are matched as they are read**, with a budget of the reader that is larger
than the number of tokens. -/
theorem agrees_expression (budget n : Nat) :
    Agrees n DeadEnd (expression budget) (Grammar.formula n) := by
  induction budget generalizing n with
  | zero => exact fun _ _ => trivial
  | succ budget ih =>
      cases n with
      | zero => exact fun _ h => nomatch h
      | succ n => exact agrees_ternary (ih n) (refuses_expression budget)

/-! ### Whole texts -/

variable {budget : Nat} {text : List Char} {p : Phrase}

/-- A text without tokens is one of blanks. -/
theorem ofText_eq_nil_iff :
    ofText cs = [] ↔ (cs.dropWhile Token.isSpace).isEmpty = true := by
  cases hdrop : cs.dropWhile Token.isSpace with
  | nil => exact ⟨fun _ => rfl, fun _ => Token.ofText_eq_nil hdrop⟩
  | cons c tail =>
      rw [Token.ofText_eq_cons hdrop]
      exact ⟨fun h => (nomatch h), fun h => (nomatch h)⟩

/-- What is matched is read as the same formula. -/
theorem read_of_matchText (h : matchText budget text = .ok p) :
    Grammar.read (ofText text) = .ok p.sketch := by
  have hagrees :=
    agrees_expression budget ((ofText text).length + 1) text (Nat.lt_succ_self _)
  obtain ⟨⟨q, rest⟩, hfound, h⟩ := bind_eq_ok.1 h
  dsimp only at h
  split at h
  · next hblank =>
    cases h
    have hnil := ofText_eq_nil_iff.2 hblank
    rw [hfound] at hagrees
    rcases hagrees.2 with hread | ⟨⟨t, ht, -⟩, -⟩
    · rw [Grammar.read_eq_ok, hread, hnil]
    · rw [hnil] at ht
      cases ht
  · cases h

/-- Where nothing is matched, reading stops. -/
theorem isStuck_of_matchText (h : matchText budget text = .error .mismatch) :
    ∃ m, Grammar.read (ofText text) = .error (.stuck m) := by
  have hagrees :=
    agrees_expression budget ((ofText text).length + 1) text (Nat.lt_succ_self _)
  rcases bind_eq_error.1 h with hmiss | ⟨⟨q, rest⟩, hfound, h⟩
  · rw [hmiss] at hagrees
    obtain ⟨m, hstuck⟩ := hagrees
    exact ⟨m, by rw [Grammar.read, hstuck]; rfl⟩
  · rw [hfound] at hagrees
    rcases hagrees.2 with hread | ⟨-, m, hstuck⟩
    · dsimp only at h
      split at h
      · cases h
      · next hblank =>
        have hne : (ofText rest).isEmpty = false := by
          rw [← ofText_eq_nil_iff] at hblank
          simpa using hblank
        refine ⟨(ofText rest).length, ?_⟩
        rw [Grammar.read, hread]
        exact if_neg (by rw [hne]; decide)
    · exact ⟨m, by rw [Grammar.read, hstuck]; rfl⟩

end Matching

namespace Formula

/-- **What the program reads** is what the rules match, and what is built from it with the
depths foreseen. -/
theorem parse_eq_ok_iff_matchText {limit : Nat} {text : String} {f : Formula} :
    parse limit text = .ok f ↔ Nesting.within limit text.toList = true ∧
      ∃ p, Matching.matchText (limit + 1) text.toList = .ok p ∧
        p.build limit 1 = .ok f := by
  rw [parse_eq_ok]
  refine and_congr_right fun hwithin => ?_
  have hbudget := Matching.matchText_ne_overBudget (Nat.lt_succ_self limit) hwithin
  cases hmatch : Matching.matchText (limit + 1) text.toList with
  | ok p =>
      simp only [Matching.read_of_matchText hmatch, Phrase.build_eq_resolve,
        Except.ok.injEq, exists_eq_left']
  | error miss =>
      cases miss with
      | mismatch =>
          obtain ⟨m, hstuck⟩ := Matching.isStuck_of_matchText hmatch
          simp only [hstuck]
          simp
      | overBudget => exact absurd hmatch hbudget

end Formula

namespace Matching

/-- What the check of a text's nesting does for a matcher of the grammar. -/
structure RecursionBounded (text : String) : Prop where
  /-- Where the check accepts the text, at most one match of a formula more than the limit
  says is active at the same time: the matcher does not exceed such a budget, not even in
  attempts that it gives up. -/
  bounded : ∀ limit, Nesting.within limit text.toList = true →
    matchText (limit + 1) text.toList ≠ .error .overBudget
  /-- So the matcher does the same with any larger budget. -/
  unbudgeted : ∀ limit, Nesting.within limit text.toList = true → ∀ budget, limit < budget →
    matchText budget text.toList = matchText (limit + 1) text.toList
  /-- It is this matcher that the reader of formulas stands for. -/
  reads : ∀ limit f, Formula.parse limit text = .ok f ↔
    Nesting.within limit text.toList = true ∧
    ∃ p, matchText (limit + 1) text.toList = .ok p ∧ p.build limit 1 = .ok f
  /-- In every state of the check's scan the depth is the number of open brackets and of
  open ternaries, those of all brackets. -/
  balanced : ∀ l ∈ Nesting.states text.toList, l.Balanced
  /-- No subtraction of the scan takes more away than there is. -/
  exact : ∀ l ∈ Nesting.states text.toList, l.inner ≤ l.depth ∧
    (l.outer ≠ [] → l.inner + 1 ≤ l.depth)

/-- **The nesting check bounds the recursion** of the matcher, on any text. -/
theorem recursionBounded (text : String) : RecursionBounded text where
  bounded limit h := matchText_ne_overBudget (Nat.lt_succ_self limit) h
  unbudgeted limit h _ hbudget :=
    matchText_eq hbudget (matchText_ne_overBudget (Nat.lt_succ_self limit) h)
  reads _ _ := Formula.parse_eq_ok_iff_matchText
  balanced _ h := Nesting.balanced_of_mem_states h
  exact _ h := (Nesting.balanced_of_mem_states h).le_depth

end Matching

end FormulaTable
