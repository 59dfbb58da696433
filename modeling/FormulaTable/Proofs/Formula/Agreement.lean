import FormulaTable.Formula.Phrase
import FormulaTable.Proofs.Formula.Reader
import FormulaTable.Proofs.Formula.Terminals
import FormulaTable.Proofs.Result

/-!
# Rules and readers that go together

The rules of the grammar go back where the reader stops for good. They still come to the
same: where a rule has gone back it leaves the text at a token, such as an opening bracket
or an operator, that no rule around it can go on with, and so the whole match comes to
nothing.

* `AgreesOn` — how the result of a rule goes with the result of a reader.
* `Agrees` — how a rule and a reader go together; one lemma for each way to build operands.
-/

namespace FormulaTable.Matching

open Grammar (Reader Sketch Stop operatorIn)
open Terminal (ofToken isToken)
open Token (ofText)

variable {α β σ : Type} {n : Nat} {dead dead' : Token → Prop}
  {cs rest : List Char} {t : Token}

/-! ### How a match and a reading go together -/

/-- The first token of the text is of a kind. -/
def Starts (kind : Token → Prop) (cs : List Char) : Prop := ∃ t ∈ (ofText cs).head?, kind t

/-- Reading stops for good. -/
def IsStuck (y : Except Stop α) : Prop := ∃ m, y = .error (.stuck m)

/-- What is left is no longer than the text. -/
structure NotLonger (rest cs : List Char) : Prop where
  chars : rest.length ≤ cs.length
  tokens : (ofText rest).length ≤ (ofText cs).length

/-- A text is no longer than itself. -/
theorem NotLonger.refl (cs : List Char) : NotLonger cs cs := ⟨Nat.le_refl _, Nat.le_refl _⟩

/-- What is no longer than a part is no longer than the whole. -/
theorem NotLonger.trans {rest' : List Char} (h : NotLonger rest' rest)
    (h' : NotLonger rest cs) :
    NotLonger rest' cs :=
  ⟨Nat.le_trans h.chars h'.chars, Nat.le_trans h.tokens h'.tokens⟩

/-- How the result of a rule goes with the result of a reader. After a match either as much
is read, or reading stops and the match leaves a token with which nothing goes on. Nothing
is said about a rule for which the budget is too small. -/
def AgreesOn (dead : Token → Prop) (f : α → β) (cs : List Char)
    (y : Except Stop (β × List Token)) :
    Except Miss (α × List Char) → Prop
  | .ok (a, rest) => NotLonger rest cs ∧
    (y = .ok (f a, ofText rest) ∨ Starts dead rest ∧ IsStuck y)
  | .error .mismatch => IsStuck y
  | .error .overBudget => True

/-- The rule and the reader go together on texts of fewer than `n` tokens. -/
def Agrees (n : Nat) (dead : Token → Prop) (p : Rule Phrase) (r : Reader Sketch) : Prop :=
  ∀ cs, (ofText cs).length < n → AgreesOn dead Phrase.sketch cs (r (ofText cs)) (p cs)

section AgreesOn

variable {γ δ : Type} {f : α → β} {g : γ → δ} {x : Except Miss (α × List Char)}
  {y : Except Stop (β × List Token)}

/-- How results go together does not depend on the text that is counted from, if it is the
longer one. -/
theorem AgreesOn.weaken (h : AgreesOn dead f rest y x) (hle : NotLonger rest cs) :
    AgreesOn dead f cs y x := by
  cases x with
  | error miss => cases miss <;> exact h
  | ok found => exact ⟨h.1.trans hle, h.2⟩

/-- Results that go together still do so where more tokens are dead ends. -/
theorem AgreesOn.mono (h : AgreesOn dead f cs y x) (hle : ∀ t, dead t → dead' t) :
    AgreesOn dead' f cs y x := by
  cases x with
  | error miss => cases miss <;> exact h
  | ok found =>
      refine ⟨h.1, h.2.imp_right fun ⟨⟨t, ht, hdead⟩, hstuck⟩ => ?_⟩
      exact ⟨⟨t, ht, hle t hdead⟩, hstuck⟩

/-- Steps that go together one after another go together as a whole; where the first one
stops, so must the second. -/
theorem AgreesOn.bind {k : α × List Char → Except Miss (γ × List Char)}
    {k' : β × List Token → Except Stop (δ × List Token)} (h : AgreesOn dead f cs y x)
    (hok : ∀ a rest, NotLonger rest cs →
        AgreesOn dead' g rest (k' (f a, ofText rest)) (k (a, rest)))
    (hdead : ∀ a rest, Starts dead rest →
        ∀ m, AgreesOn dead' g rest (.error (.stuck m)) (k (a, rest))) :
    AgreesOn dead' g cs (y >>= k') (x >>= k) := by
  cases x with
  | error miss =>
      cases miss with
      | mismatch =>
          obtain ⟨m, rfl⟩ := h
          exact ⟨m, rfl⟩
      | overBudget => trivial
  | ok found =>
      obtain ⟨a, rest⟩ := found
      obtain ⟨hle, rfl | ⟨hstarts, m, rfl⟩⟩ := h
      · exact (hok a rest hle).weaken hle
      · exact (hdead a rest hstarts m).weaken hle

/-- The match ends, and as much is read. -/
theorem AgreesOn.done {a : α} (h : y = .ok (f a, ofText cs)) :
    AgreesOn dead f cs y (.ok (a, cs)) :=
  ⟨.refl cs, .inl h⟩

/-- The match ends where reading has stopped. -/
theorem AgreesOn.stuck (h : Starts dead cs) (f : α → β) (a : α) (m : Nat) :
    AgreesOn dead f cs (.error (.stuck m)) (.ok (a, cs)) :=
  ⟨.refl cs, .inr ⟨h, m, rfl⟩⟩

end AgreesOn

/-! ### The first token -/

/-- Behind a token the text is not longer. -/
theorem Next.notLonger (h : Next cs t rest) : NotLonger rest cs :=
  ⟨Nat.le_of_lt h.length_lt, by rw [h.ofText_eq]; exact Nat.le_succ _⟩

/-- A text starts with the token that comes next. -/
theorem starts_iff (h : Next cs t rest) {kind : Token → Prop} :
    Starts kind cs ↔ kind t := by
  rw [Starts, h.ofText_eq, List.head?_cons]
  simp

/-- A text that starts with a token has it as its next one. -/
theorem Starts.exists_next (h : Starts (· = t) cs) : ∃ rest, Next cs t rest := by
  rcases ofText_eq_nil_or_next cs with hnil | ⟨u, rest, hnext⟩
  · obtain ⟨_, ht, -⟩ := h
    rw [hnil] at ht
    cases ht
  · obtain rfl := (starts_iff hnext).1 h
    exact ⟨rest, hnext⟩

/-- A text that starts with a token of a kind starts with one of any kind that includes
it. -/
theorem Starts.mono (h : Starts dead cs) (hle : ∀ t, dead t → dead' t) :
    Starts dead' cs := by
  obtain ⟨t, ht, hdead⟩ := h
  exact ⟨t, ht, hle t hdead⟩

/-- A text that starts with a dead end does not start with a token that is none. -/
theorem Starts.not_starts (h : Starts dead cs) (ht : ¬ dead t) : ¬ Starts (· = t) cs := by
  obtain ⟨u, hu, hdead⟩ := h
  rintro ⟨_, hu', rfl⟩
  rw [hu] at hu'
  cases hu'
  exact ht hdead

/-- A terminal does not match a text that starts with another token. -/
theorem terminal_of_starts (h : Starts dead cs) {want : Token → Option α}
    (hwant : ∀ t, dead t → want t = none) :
    terminal (ofToken want) cs = .error .mismatch := by
  rcases ofText_eq_nil_or_next cs with hnil | ⟨t, rest, hnext⟩
  · exact terminal_of_nil hnil want
  · rw [terminal_of_next hnext, hwant t ((starts_iff hnext).1 h)]
    rfl

/-- A terminal does not match where the text starts with something else. -/
theorem terminal_of_not_starts (h : ¬ Starts (· = t) cs) :
    terminal (ofToken (isToken t)) cs = .error .mismatch := by
  rcases ofText_eq_nil_or_next cs with hnil | ⟨u, rest, hnext⟩
  · exact terminal_of_nil hnil _
  · rw [terminal_of_next hnext, isToken, if_neg (mt (starts_iff hnext).2 h)]
    rfl

/-! ### Repetitions -/

/-- A rule that matches a separator and an item. -/
def separated (want : Token → Option σ) (g : σ → Phrase → α) (item : Rule Phrase) :
    Rule α := fun cs => do
  let (s, rest) ← terminal (ofToken want) cs
  let (a, rest) ← item rest
  return (g s a, rest)

/-- Repeating a rule that does not match gives nothing, and takes nothing. -/
theorem manyWithin_of_mismatch {p : Rule α} (h : p cs = .error .mismatch)
    (budget : List Char) :
    manyWithin p budget cs = .ok ([], cs) := by
  cases budget with
  | nil => rfl
  | cons _ _ => rw [manyWithin, h]

section Repetition

variable {want : Token → Option σ} {g : σ → Phrase → α} {f : α → σ × Sketch}
  {item : Rule Phrase}
  {r : Reader Sketch}

/-- A link does not match where its sign does not. -/
theorem separated_of_mismatch (h : terminal (ofToken want) cs = .error .mismatch) :
    separated want g item cs = .error .mismatch := by
  rw [separated, h]
  rfl

/-- A link does not match where the text starts with a dead end. -/
theorem separated_of_starts (h : Starts dead cs) (hwant : ∀ t, dead t → want t = none) :
    separated want g item cs = .error .mismatch :=
  separated_of_mismatch (terminal_of_starts h hwant)

/-- A link starts with its sign. -/
theorem separated_of_next {s : σ} (h : Next cs t rest) (hs : want t = some s) :
    separated want g item cs = (item rest >>= fun (a, rest) => return (g s a, rest)) := by
  rw [separated, terminal_of_next h, hs]
  rfl

/-- Without a separator there is nothing to repeat. -/
theorem agrees_manyWithin_of_none (h : terminal (ofToken want) cs = .error .mismatch)
    (budget : List Char) (tokens : List Token) :
    AgreesOn dead (List.map f) cs (Grammar.pairsWithin want r tokens (ofText cs))
      (manyWithin (separated want g item) budget cs) := by
  rw [manyWithin_of_mismatch (separated_of_mismatch h)]
  refine .done ?_
  rcases ofText_eq_nil_or_next cs with hnil | ⟨t, rest, hnext⟩
  · rw [hnil, Grammar.pairsWithin_nil]
    rfl
  · rw [terminal_of_next hnext] at h
    have hwant : want t = none := by
      cases hwant : want t with
      | none => rfl
      | some s =>
          rw [hwant] at h
          cases h
    rw [hnext.ofText_eq]
    cases tokens with
    | nil => rfl
    | cons _ _ =>
        rw [Grammar.pairsWithin, hwant]
        rfl

/-- One separator, an item and what is repeated behind it. A separator whose item is missing
is left in the text, where nothing goes on with it. -/
theorem agrees_manyWithin_cons {s : σ} (hnext : Next cs t rest) (hs : want t = some s)
    (hitem : AgreesOn dead Phrase.sketch rest (r (ofText rest)) (item rest))
    (hdead : ∀ t, dead t → want t = none) (hf : ∀ s a, f (g s a) = (s, a.sketch))
    {budget : List Char} {tokens : List Token}
    (hmore : ∀ rest', NotLonger rest' rest → AgreesOn (fun t => dead t ∨ (want t).isSome)
        (List.map f) rest' (Grammar.pairsWithin want r tokens (ofText rest'))
        (manyWithin (separated want g item) budget rest'))
    (c : Char) (u : Token) :
    AgreesOn (fun t => dead t ∨ (want t).isSome) (List.map f) cs
      (Grammar.pairsWithin want r (u :: tokens) (ofText cs))
      (manyWithin (separated want g item) (c :: budget) cs) := by
  rw [hnext.ofText_eq, Grammar.pairsWithin, hs, manyWithin, separated_of_next hnext hs]
  simp only
  cases hx : item rest with
  | error miss =>
      rw [hx] at hitem
      cases miss with
      | mismatch =>
          obtain ⟨m, hstuck⟩ := hitem
          rw [hstuck]
          exact .stuck ((starts_iff hnext).2 (.inr (by rw [hs]; rfl))) _ _ m
      | overBudget => trivial
  | ok found =>
      obtain ⟨a, rest'⟩ := found
      rw [hx] at hitem
      obtain ⟨hle, hread⟩ := hitem
      refine AgreesOn.weaken ?_ (hle.trans hnext.notLonger)
      rcases hread with hread | ⟨hstarts, m, hread⟩
      · rw [hread]
        refine (hmore rest' hle).bind (fun more rest'' _ => ?_)
          fun more rest'' hstarts m => ?_
        · exact .done (by rw [List.map_cons, hf]; rfl)
        · exact .stuck hstarts _ _ m
      · rw [hread]
        have hmiss : separated want g item rest' = .error .mismatch :=
          separated_of_starts hstarts hdead
        change AgreesOn _ _ _ (.error (.stuck m))
          (manyWithin (separated want g item) budget rest' >>= _)
        rw [manyWithin_of_mismatch hmiss]
        exact .stuck (hstarts.mono fun _ => .inl) _ _ m

/-- **Repetitions agree**, by induction on the budget. -/
theorem agrees_manyWithin (hitem : Agrees n dead item r)
    (hdead : ∀ t, dead t → want t = none) (hf : ∀ s a, f (g s a) = (s, a.sketch))
    (budget : List Char) (tokens : List Token) {cs : List Char}
    (hchars : cs.length ≤ budget.length) (htokens : (ofText cs).length ≤ tokens.length)
    (hn : (ofText cs).length ≤ n) :
    AgreesOn (fun t => dead t ∨ (want t).isSome) (List.map f) cs
      (Grammar.pairsWithin want r tokens (ofText cs))
          (manyWithin (separated want g item) budget cs) := by
  induction budget generalizing cs tokens with
  | nil =>
      obtain rfl : cs = [] := List.length_eq_zero_iff.1 (Nat.le_zero.1 hchars)
      exact agrees_manyWithin_of_none
        (terminal_of_nil (Token.ofText_eq_nil rfl) want) [] tokens
  | cons c budget ih =>
      rcases ofText_eq_nil_or_next cs with hnil | ⟨t, rest, hnext⟩
      · exact agrees_manyWithin_of_none (terminal_of_nil hnil want) _ tokens
      cases hwant : want t with
      | none =>
          refine agrees_manyWithin_of_none ?_ _ tokens
          rw [terminal_of_next hnext, hwant]
          rfl
      | some s =>
          have hlength := hnext.length_lt
          rw [hnext.ofText_eq, List.length_cons] at htokens hn
          rw [List.length_cons] at hchars
          cases tokens with
          | nil => cases htokens
          | cons u tokens =>
              rw [List.length_cons] at htokens
              refine agrees_manyWithin_cons hnext hwant (hitem rest hn) hdead hf
                (fun rest' hle => ?_) c u
              have := hle.chars
              have := hle.tokens
              exact ih tokens (by omega) (by omega) (by omega)

end Repetition

/-! ### Operands -/

/-- The sketch of a chain is made from the left. -/
theorem sketchLinks_eq (left : Sketch) (links : List (BinaryOp × Phrase)) :
    Phrase.sketchLinks left links =
      (links.map fun link => (link.1, link.2.sketch)).foldl
        (fun left (op, right) => .binary op left right) left := by
  induction links generalizing left with
  | nil => rfl
  | cons link links ih => rw [Phrase.sketchLinks, ih, List.map_cons, List.foldl_cons]

/-- The sketch of a prefixed formula has one operator for each mark. -/
theorem prefixed_eq (op : UnaryOp) (marks : List Token) (s : Sketch) :
    s.prefixed op marks.length = marks.foldl (fun t _ => .unary op t) s := by
  induction marks generalizing s with
  | nil => rfl
  | cons _ marks ih => rw [List.length_cons, Tree.prefixed, ih, List.foldl_cons]

section Operands

/-- An opening bracket, or an operator of a kind. -/
def Stops (ops : BinaryOp → Bool) (t : Token) : Prop :=
  t = .openBracket ∨ (operatorIn ops t).isSome

/-- An operator that stops a level is none of the level. -/
theorem operatorIn_of_stops {ops level : BinaryOp → Bool}
    (h : ∀ op, ops op = true → level op = false) (ht : Stops ops t) :
    operatorIn level t = none := by
  rcases ht with rfl | ht
  · rfl
  cases t with
  | operator op =>
      rw [operatorIn] at ht ⊢
      split at ht
      · next hop => rw [h op hop, if_neg (by decide)]
      · cases ht
  | openBracket | question | closeBracket | comma | literal _ | word _ | quotedName _
  | not | colon | illegal => rfl

/-- The operators of another level are of a kind, too. -/
theorem stops_or {ops level : BinaryOp → Bool}
    (h : Stops ops t ∨ (operatorIn level t).isSome) :
    Stops (fun op => ops op || level op) t := by
  rcases h with (rfl | h) | h
  · exact .inl rfl
  all_goals
    cases t with
    | operator op =>
        refine .inr ?_
        rw [operatorIn] at h ⊢
        split at h
        · next hop => simp [hop]
        · cases h
    | openBracket | question | closeBracket | comma | literal _ | word _ | quotedName _
    | not | colon | illegal => cases h

variable {operand : Rule Phrase} {r : Reader Sketch} {ops level : BinaryOp → Bool}

/-- A rule and a reader that go together still do so where more tokens are dead ends. -/
theorem Agrees.mono (h : Agrees n dead operand r) (hle : ∀ t, dead t → dead' t) :
    Agrees n dead' operand r :=
  fun cs hcs => (h cs hcs).mono hle

/-- What is left behind a chain may also start with one of its operators. -/
theorem Agrees.chain (h : Agrees n (Stops ops) operand r) (level : BinaryOp → Bool)
    (hops : ∀ op, ops op = true → level op = false) :
    Agrees n (Stops fun op => ops op || level op)
      (Matching.chain (ofToken (operatorIn level)) operand)
      (Grammar.chain level r) := by
  have hdead : ∀ t, Stops ops t →
      operatorIn level t = none := fun t => operatorIn_of_stops hops
  intro cs hcs
  refine AgreesOn.mono ?_ fun t => stops_or
  refine (h cs hcs).bind (fun first rest hle => ?_) fun first rest hstarts m => ?_
  · have hlinks :=
      agrees_manyWithin (g := Prod.mk) (f := fun link => (link.1, link.2.sketch)) h hdead
      (fun _ _ => rfl) rest (ofText rest) (Nat.le_refl _) (Nat.le_refl _)
      (Nat.le_of_lt (Nat.lt_of_le_of_lt hle.tokens hcs))
    refine hlinks.bind (fun links rest' _ => ?_) fun links rest' hstarts m => ?_
    · exact .done (by rw [Phrase.sketch, sketchLinks_eq]; rfl)
    · exact .stuck hstarts _ _ m
  · have hmiss : link (ofToken (operatorIn level)) operand rest = .error .mismatch :=
      separated_of_starts hstarts hdead
    change AgreesOn _ _ _ _
      (manyWithin (link (ofToken (operatorIn level)) operand) rest rest >>= _)
    rw [manyWithin_of_mismatch hmiss]
    exact .stuck (hstarts.mono fun _ => .inl) _ _ m

/-- Marks in a row are matched as they are read. -/
theorem exists_manyWithin_mark (u : Token) (budget : List Char) {cs : List Char}
    (h : cs.length ≤ budget.length) :
    ∃ marks rest, manyWithin (terminal (ofToken (isToken u))) budget cs =
      .ok (marks, rest) ∧
      marks.length = ((ofText cs).takeWhile (· = u)).length ∧
      ofText rest = (ofText cs).dropWhile (· = u) ∧ NotLonger rest cs := by
  induction budget generalizing cs with
  | nil =>
      obtain rfl : cs = [] := List.length_eq_zero_iff.1 (Nat.le_zero.1 h)
      refine ⟨[], [], rfl, ?_, ?_, .refl _⟩ <;> rw [Token.ofText_eq_nil rfl] <;> rfl
  | cons c budget ih =>
      rcases ofText_eq_nil_or_next cs with hnil | ⟨t, rest, hnext⟩
      · refine ⟨[], cs, manyWithin_of_mismatch (terminal_of_nil hnil _) _, ?_, ?_,
          .refl _⟩ <;>
          (rw [hnil]; rfl)
      · have hterminal := terminal_of_next hnext (isToken u)
        rw [isToken] at hterminal
        rw [hnext.ofText_eq]
        by_cases ht : t = u
        · have hlength := hnext.length_lt
          rw [List.length_cons] at h
          obtain ⟨marks, rest', hmany, hmarks, hrest, hle⟩ :=
            ih (by omega : rest.length ≤ budget.length)
          refine ⟨() :: marks, rest', ?_, ?_, ?_, hle.trans hnext.notLonger⟩
          · rw [if_pos ht] at hterminal
            rw [manyWithin, hterminal]
            simp only [Option.map_some, Option.elim_some]
            rw [hmany]
            rfl
          · rw [List.takeWhile_cons_of_pos (by simp [ht]), List.length_cons,
              List.length_cons, hmarks]
          · rw [hrest, List.dropWhile_cons_of_pos (by simp [ht])]
        · rw [if_neg ht] at hterminal
          refine ⟨[], cs, manyWithin_of_mismatch hterminal _, ?_, ?_, .refl _⟩
          · rw [List.takeWhile_cons_of_neg (by simp [ht])]
            rfl
          · rw [hnext.ofText_eq, List.dropWhile_cons_of_neg (by simp [ht])]

/-- Prefixed operands go together if the operands do. -/
theorem Agrees.prefixed (h : Agrees n dead operand r) (op : UnaryOp) (u : Token) :
    Agrees n dead (prefixed op (ofToken (isToken u)) operand)
      (Grammar.prefixed op (· = u) r) := by
  intro cs hcs
  obtain ⟨marks, rest, hmany, hmarks, hrest, hle⟩ :=
    exists_manyWithin_mark u cs (Nat.le_refl _)
  rw [Matching.prefixed, many, hmany, Grammar.prefixed, ← hrest]
  refine AgreesOn.weaken ?_ hle
  refine (h rest (Nat.lt_of_le_of_lt hle.tokens hcs)).bind (fun inner rest' _ => ?_)
    fun inner rest' hstarts m => ?_
  · exact .done (by rw [Phrase.sketch, hmarks, prefixed_eq]; rfl)
  · exact .stuck hstarts _ _ m

/-! ### Optional parts -/

section Optional

variable {γ : Type} {f : α → β} {p : Rule α} {x : Except Miss (α × List Char)}
  {y : Except Stop (β × List Token)}

/-- An optional part that does not match is left out. -/
theorem optional_of_mismatch (h : p cs = .error .mismatch) :
    optional p cs = .ok (none, cs) := by
  rw [optional, orElse, h]
  rfl

/-- An optional part that matches is there. -/
theorem optional_of_ok {a : α} (h : p cs = .ok (a, rest)) :
    optional p cs = .ok (some a, rest) := by
  rw [optional, orElse, h]
  rfl

/-- An optional part that is over the budget makes the whole so. -/
theorem optional_of_overBudget (h : p cs = .error .overBudget) :
    optional p cs = .error .overBudget := by
  rw [optional, orElse, h]
  rfl

/-- Where a rule does not match, the text is left as it is for what takes its place. -/
theorem AgreesOn.orElse (h : AgreesOn dead f cs y (p cs)) (hstarts : Starts dead' cs)
    (hle : ∀ t, dead t → dead' t) (a : α) :
    AgreesOn dead' f cs y (orElse p (fun cs => .ok (a, cs)) cs) := by
  rw [Matching.orElse]
  cases hx : p cs with
  | error miss =>
      rw [hx] at h
      cases miss with
      | mismatch =>
          obtain ⟨m, rfl⟩ := h
          exact .stuck hstarts f a m
      | overBudget => trivial
  | ok found =>
      rw [hx] at h
      exact h.mono hle

/-- An optional part goes together with leaving it out, where the text starts with a dead
end. -/
theorem AgreesOn.optional (h : AgreesOn dead f cs y (p cs)) (hstarts : Starts dead' cs)
    (hle : ∀ t, dead t → dead' t) (b : β) :
    AgreesOn dead' (fun found => found.elim b f) cs y (optional p cs) := by
  refine AgreesOn.orElse
    (p := fun cs => (p cs).map fun (a, rest) => (some a, rest)) ?_ hstarts hle none
  cases hx : p cs with
  | error miss =>
      rw [hx] at h
      cases miss <;> exact h
  | ok found =>
      rw [hx] at h
      exact h

/-- What is made of a match does not matter. -/
theorem AgreesOn.map (h : AgreesOn dead f cs y x) {g : α → γ} {f' : γ → β}
    {k : α × List Char → Except Miss (γ × List Char)}
    (hk : ∀ a rest, k (a, rest) = .ok (g a, rest)) (hf : ∀ a, f' (g a) = f a) :
    AgreesOn dead f' cs y (x >>= k) := by
  cases x with
  | error miss => cases miss <;> exact h
  | ok found =>
      obtain ⟨a, rest⟩ := found
      change AgreesOn dead f' cs y (k (a, rest))
      rw [hk]
      refine ⟨h.1, ?_⟩
      rw [hf]
      exact h.2

end Optional

/-- An operator and an operand behind it. -/
theorem Agrees.link (h : Agrees n dead operand r) {op : BinaryOp} (hnext : Next cs t rest)
    (hop : operatorIn level t = some op) (hn : (ofText cs).length ≤ n) (left : Sketch) :
    AgreesOn dead (fun link : BinaryOp × Phrase => Tree.binary link.1 left link.2.sketch) cs
      (r (ofText rest) >>= fun found => return (.binary op left found.1, found.2))
      (Matching.link (ofToken (operatorIn level)) operand cs) := by
  have hlink : Matching.link (ofToken (operatorIn level)) operand cs =
      (operand rest >>= fun found => return ((op, found.1), found.2)) :=
        separated_of_next hnext hop
  rw [hlink]
  rw [hnext.ofText_eq, List.length_cons] at hn
  refine AgreesOn.weaken ?_ hnext.notLonger
  exact (h rest hn).bind (fun right rest' _ => .done rfl) fun right rest' hstarts m =>
    .stuck hstarts _ _ m

/-- What is left behind an operand may also start with a comparison. -/
theorem Agrees.comparison (h : Agrees n (Stops ops) operand r)
    (hops : ∀ op, ops op = true → op.isComparison = false) :
    Agrees n (Stops fun op => ops op || op.isComparison) (comparison operand)
      (Grammar.comparison r) := by
  have hdead : ∀ t, Stops ops t → operatorIn BinaryOp.isComparison t = none := fun t =>
    operatorIn_of_stops hops
  intro cs hcs
  refine AgreesOn.mono ?_ fun t => stops_or
  rw [Matching.comparison, Terminal.comparisonOp_eq]
  refine (h cs hcs).bind (fun left rest hle => ?_) fun left rest hstarts m => ?_
  · -- Without an operator both stop after the first operand.
    have hnone (hmiss : terminal (ofToken (operatorIn BinaryOp.isComparison)) rest =
          .error .mismatch) :
        optional (Matching.link (ofToken (operatorIn BinaryOp.isComparison)) operand) rest =
          .ok (none, rest) :=
      optional_of_mismatch (separated_of_mismatch hmiss)
    rcases ofText_eq_nil_or_next rest with hnil | ⟨t, rest', hnext⟩
    · simp only [hnone (terminal_of_nil hnil _), hnil]
      exact .done (by rw [hnil]; rfl)
    have hterminal := terminal_of_next hnext (operatorIn BinaryOp.isComparison)
    cases hop : operatorIn BinaryOp.isComparison t with
    | none =>
        rw [hop] at hterminal
        simp only [hnone hterminal, hnext.ofText_eq, hop]
        exact .done (by rw [hnext.ofText_eq]; rfl)
    | some op =>
        have hright :=
          h.link hnext hop (Nat.le_of_lt (Nat.lt_of_le_of_lt hle.tokens hcs)) left.sketch
        simp only [hnext.ofText_eq, hop]
        have hstarts : Starts
            (fun t => Stops ops t ∨ (operatorIn BinaryOp.isComparison t).isSome) rest :=
          (starts_iff hnext).2 (.inr (by rw [hop]; rfl))
        refine (hright.optional hstarts (fun _ => .inl) left.sketch).map
          (g := fun right => right.elim left fun link =>
              .comparison link.1 left link.2) ?_ ?_
        · rintro (_ | _) rest <;> rfl
        · rintro (_ | _) <;> rfl
  · have hmiss : Matching.link (ofToken (operatorIn BinaryOp.isComparison)) operand rest =
        .error .mismatch :=
      separated_of_starts hstarts hdead
    change AgreesOn _ _ _ _
      (optional
          (Matching.link (ofToken (operatorIn BinaryOp.isComparison)) operand) rest >>= _)
    rw [optional_of_mismatch hmiss]
    exact .stuck (hstarts.mono fun _ => .inl) _ _ m

end Operands

end FormulaTable.Matching
