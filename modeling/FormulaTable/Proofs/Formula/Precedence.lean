import FormulaTable.Proofs.Formula.Parts
import FormulaTable.Proofs.Formula.Reader

/-!
# Writing a formula with as few brackets as possible

Every kind of node binds at one of ten levels, from the ternary (0) to constants, columns,
calls and brackets (9), and every position in a formula takes nodes from some level up. A
formula is written with brackets around exactly those parts that bind looser than their
position allows.

* `read_write` — what is written so is read as the same formula.
-/

namespace FormulaTable

/-! ### Levels -/

/-- The level at which an infix operator binds; a higher one binds tighter. -/
def BinaryOp.level : BinaryOp → Nat
  | coalesce => 1
  | or => 2
  | and => 3
  | eq | ne | lt | le | gt | ge => 5
  | add | sub => 6
  | mul | div | mod => 7

/-- Infix operators stand below the level of primary formulas. -/
theorem BinaryOp.level_lt (op : BinaryOp) : op.level < 9 := by cases op <;> decide

/-- The comparison operators have a level to themselves. -/
theorem BinaryOp.level_eq_five {op : BinaryOp} : op.level = 5 ↔ op.isComparison = true := by
  cases op <;> decide

/-- The position of an operator's left operand: chains group to the left, and comparisons do
not chain. -/
def BinaryOp.leftPosition (op : BinaryOp) : Nat :=
  if op.isComparison then op.level + 1 else op.level

/-- The level at which a prefix operator binds, which is the position of its operand too. -/
def UnaryOp.level : UnaryOp → Nat
  | not => 4
  | neg => 8

/-- Prefix operators stand below the level of primary formulas. -/
theorem UnaryOp.level_lt (op : UnaryOp) : op.level < 9 := by cases op <;> decide

/-- Prefix operators have levels to themselves. -/
theorem UnaryOp.level_ne (op : UnaryOp) (op' : BinaryOp) : op.level ≠ op'.level := by
  cases op <;> cases op' <;> decide

/-- The token of a prefix operator. -/
def UnaryOp.token : UnaryOp → Token
  | not => .not
  | neg => .operator .sub

/-- The level at which the root of a tree binds. -/
def Tree.level {α : Type} : Tree α → Nat
  | literal _ => 9
  | column _ => 9
  | unary op _ => op.level
  | binary op _ _ => op.level
  | conditional _ _ _ => 0
  | call _ _ => 9

namespace Grammar

/-! ### Writing -/

/-- A tree's tokens at a position: in brackets if the root binds looser than the position
allows. -/
def bracketed (looser : Bool) (tokens : List Token) : List Token :=
  if looser then .openBracket :: (tokens ++ [.closeBracket]) else tokens

mutual

/-- The tokens of a formula. -/
def write : Sketch → List Token
  | .literal l => [.literal l]
  | .column name => [.quotedName name]
  | .unary op t => op.token :: bracketed (t.level < op.level) (write t)
  | .binary op l r =>
    bracketed (l.level < op.leftPosition) (write l) ++
      .operator op :: bracketed (r.level < op.level + 1) (write r)
  | .conditional c y n =>
    bracketed (c.level < 1) (write c) ++ .question :: (write y ++ .colon :: write n)
  | .call name [] => [.word name, .openBracket, .closeBracket]
  | .call name (t :: ts) => .word name :: .openBracket ::
    (write t ++ (writeMore ts ++ [.closeBracket]))

/-- The tokens of the arguments after the first one. -/
def writeMore : List Sketch → List Token
  | [] => []
  | t :: ts => .comma :: (write t ++ writeMore ts)

end

/-- The tokens of a formula at a position that takes nodes from a level up. -/
def writeAt (position : Nat) (t : Sketch) : List Token :=
  bracketed (t.level < position) (write t)

/-! ### The levels of the grammar -/

/-- The reader of each level. -/
def atLevel (formula : Reader Sketch) : Nat → Reader Sketch
  | 0 => ternary formula
  | 1 => operand formula
  | 2 => chain (· = .or) (chain (· = .and) (negation formula))
  | 3 => chain (· = .and) (negation formula)
  | 4 => negation formula
  | 5 => comparison (sum formula)
  | 6 => sum formula
  | 7 => chain isMultiplicative (signed formula)
  | 8 => signed formula
  | _ => primary formula

/-- Does the token carry a formula on at a position? -/
def carriesOn (position : Nat) : Token → Bool
  | .operator op => position ≤ op.level
  | .question => position = 0
  | _ => false

/-- Reading at a position stops before these tokens. -/
def StopsBefore (position : Nat) (rest : List Token) : Prop :=
  ∀ t ∈ rest.head?, carriesOn position t = false

/-- What stops reading at a position stops it at every later one. -/
theorem StopsBefore.mono {p q : Nat} {rest : List Token} (h : StopsBefore p rest)
    (hle : p ≤ q) :
    StopsBefore q rest := by
  intro t ht
  have := h t ht
  cases t with
  | operator op =>
      simp only [carriesOn, decide_eq_false_iff_not] at this ⊢
      omega
  | question =>
      simp only [carriesOn, decide_eq_false_iff_not] at this ⊢
      omega
  | _ => rfl

/-- Reading stops at the end of the text. -/
theorem stopsBefore_nil (p : Nat) : StopsBefore p [] := fun _ ht => nomatch ht

/-- Reading stops before a token that does not carry it on. -/
theorem stopsBefore_cons {p : Nat} {t : Token} {rest : List Token} :
    StopsBefore p (t :: rest) ↔ carriesOn p t = false := by
  simp [StopsBefore]

/-! ### From one level to the next -/

section Climb

variable {inner : Reader Sketch} {ts rest : List Token} {s : Sketch}

/-- Operators that group to the left bind at these levels. -/
def groupOf (level : Nat) (op : BinaryOp) : Bool := op.level = level

/-- The level of an operator that is no comparison is a chain of those of its group. -/
theorem atLevel_eq_chain (inner : Reader Sketch) {op : BinaryOp}
    (hop : op.isComparison = false) :
    atLevel inner op.level = chain (groupOf op.level) (atLevel inner (op.level + 1)) := by
  have hgroup {level : Nat} {group : BinaryOp → Bool}
      (h : ∀ op, groupOf level op = group op)
      (operand : Reader Sketch) : chain group operand = chain (groupOf level) operand :=
    congrArg (chain · operand) (funext fun op => (h op).symm)
  cases op with
  | coalesce => exact hgroup (fun op => by cases op <;> rfl) _
  | or => exact hgroup (fun op => by cases op <;> rfl) _
  | and => exact hgroup (fun op => by cases op <;> rfl) _
  | add | sub => exact hgroup (fun op => by cases op <;> rfl) _
  | mul | div | mod => exact hgroup (fun op => by cases op <;> rfl) _
  | eq | ne | lt | le | gt | ge => cases hop

/-- A chain goes on after its first operand. -/
def chainFrom (level : Nat) (operand : Reader Sketch) (first : Sketch) : Reader Sketch :=
  fun tokens => do
  let (links, rest) ← pairs (operatorIn (groupOf level)) operand tokens
  return (links.foldl (fun left (op, right) => .binary op left right) first, rest)

/-- A chain ends before a token that does not carry it on. -/
theorem chainFrom_stop {level : Nat} (operand : Reader Sketch) (first : Sketch)
    (h : StopsBefore level rest) :
    chainFrom level operand first rest = .ok (first, rest) := by
  cases rest with
  | nil => rfl
  | cons t rest =>
      have hnone : operatorIn (groupOf level) t = none := by
        cases t with
        | operator op =>
            have hop := stopsBefore_cons.1 h
            rw [carriesOn, decide_eq_false_iff_not] at hop
            rw [operatorIn, groupOf, if_neg]
            simp only [decide_eq_true_eq]
            omega
        | _ => rfl
      rw [chainFrom, pairs, pairsWithin, hnone]
      rfl

/-- A link of a chain joins the operand behind it to what stands before it. -/
theorem chainFrom_link {op : BinaryOp} {operand : Reader Sketch}
    (hoperand : Consumes operand) {left right : Sketch} {result : Sketch × List Token}
    (hright : operand ts = .ok (right, rest))
    (h : chainFrom op.level operand (.binary op left right) rest = .ok result) :
    chainFrom op.level operand left (.operator op :: ts) = .ok result := by
  obtain ⟨⟨links, rest'⟩, hlinks, h⟩ := bind_eq_ok.1 h
  cases h
  refine bind_eq_ok.2 ⟨((op, right) :: links, rest'), ?_, rfl⟩
  have hop : operatorIn (groupOf op.level) (.operator op) = some op := by
    rw [operatorIn, groupOf, if_pos (decide_eq_true rfl)]
  have hself : Extends [] operand operand := by
    intro ts a rest h
    rwa [List.append_nil, List.append_nil]
  have hcloses : Closes [] := fun t ht => (nomatch ht)
  have hlength := (hoperand _ _ _ hright).length_le
  have hmore :=
    extends_pairsWithin hcloses rfl hoperand hself (Nat.le_refl _) hlength hlinks
  rw [List.append_nil, List.append_nil] at hmore
  rw [pairs, pairsWithin, hop]
  exact bind_eq_ok.2 ⟨_, hright, bind_eq_ok.2 ⟨_, hmore, rfl⟩⟩

/-- Without a link, a chain is its first operand. -/
theorem atLevel_of_operand (op : BinaryOp) (hop : op.isComparison = false)
    (h : atLevel inner (op.level + 1) ts = .ok (s, rest))
    (hstop : StopsBefore op.level rest) :
    atLevel inner op.level ts = .ok (s, rest) := by
  rw [atLevel_eq_chain inner hop]
  exact bind_eq_ok.2 ⟨(s, rest), h, chainFrom_stop _ s hstop⟩

/-- Without a mark, a prefix level is the one below. -/
theorem prefixed_of_operand {op : UnaryOp} {isMark : Token → Bool} {operand : Reader Sketch}
    (hmark : ∀ t tail, isMark t = true → ∃ e, operand (t :: tail) = .error e)
    (h : operand ts = .ok (s, rest)) : prefixed op isMark operand ts = .ok (s, rest) := by
  cases ts with
  | nil => exact bind_eq_ok.2 ⟨(s, rest), h, rfl⟩
  | cons t tail =>
      cases ht : isMark t with
      | true =>
          obtain ⟨e, he⟩ := hmark t tail ht
          rw [he] at h
          cases h
      | false =>
          rw [prefixed, List.takeWhile_cons_of_neg (by rw [ht]; decide),
            List.dropWhile_cons_of_neg (by rw [ht]; decide)]
          exact bind_eq_ok.2 ⟨(s, rest), h, rfl⟩

/-- What one level reads, the level above it reads too, unless it goes on. -/
theorem atLevel_of_succ {p : Nat} (hp : p < 9)
    (h : atLevel inner (p + 1) ts = .ok (s, rest)) (hstop : StopsBefore p rest) :
    atLevel inner p ts = .ok (s, rest) := by
  match p with
  | 0 =>
      refine bind_eq_ok.2 ⟨(s, rest), h, ?_⟩
      simp only
      split
      · cases hstop _ rfl
      · rfl
  | 1 => exact atLevel_of_operand .coalesce rfl h hstop
  | 2 => exact atLevel_of_operand .or rfl h hstop
  | 3 => exact atLevel_of_operand .and rfl h hstop
  | 4 =>
      refine prefixed_of_operand (fun t tail ht => ?_) h
      cases of_decide_eq_true ht
      exact ⟨_, rfl⟩
  | 5 =>
      refine bind_eq_ok.2 ⟨(s, rest), h, ?_⟩
      cases rest with
      | nil => rfl
      | cons t rest =>
          have hnone : operatorIn BinaryOp.isComparison t = none := by
            cases t with
            | operator op =>
                have := stopsBefore_cons.1 hstop
                cases op <;> first | rfl | cases this
            | _ => rfl
          simp only [hnone]
          rfl
  | 6 => exact atLevel_of_operand .add rfl h hstop
  | 7 => exact atLevel_of_operand .mul rfl h hstop
  | 8 =>
      refine prefixed_of_operand (fun t tail ht => ?_) h
      cases of_decide_eq_true ht
      exact ⟨_, rfl⟩

/-- What a level reads, every level above it reads too, unless it goes on. -/
theorem atLevel_of_le {p q : Nat} (hle : p ≤ q) (hq : q ≤ 9)
    (h : atLevel inner q ts = .ok (s, rest)) (hstop : StopsBefore p rest) :
    atLevel inner p ts = .ok (s, rest) := by
  induction q, hle using Nat.le_induction with
  | base => exact h
  | succ q hle ih => exact ih (by omega) (atLevel_of_succ (by omega) h (hstop.mono hle))

/-- Reading at every level takes legal tokens off the front, if formulas inside it do. -/
theorem consumes_atLevel (h : Consumes inner) (p : Nat) : Consumes (atLevel inner p) := by
  have hnegation := consumes_negation h
  match p with
  | 0 => exact consumes_ternary h
  | 1 => exact consumes_operand h
  | 2 => exact consumes_chain (consumes_chain hnegation)
  | 3 => exact consumes_chain hnegation
  | 4 => exact hnegation
  | 5 => exact consumes_comparison (consumes_sum h)
  | 6 => exact consumes_sum h
  | 7 => exact consumes_chain (consumes_signed h)
  | 8 => exact consumes_signed h
  | _ + 9 => exact consumes_primary h

/-- A formula in brackets binds tightest. -/
theorem primary_bracketed
    (h : inner (ts ++ .closeBracket :: rest) = .ok (s, .closeBracket :: rest)) :
    primary inner (.openBracket :: (ts ++ .closeBracket :: rest)) = .ok (s, rest) :=
  bind_eq_ok.2 ⟨_, h, rfl⟩

/-- Arguments are read one after another. -/
theorem arguments_of_first {first : Sketch} {others : List (Unit × Sketch)}
    {more : List Token} (hclose : ∀ tail, ∃ e, inner (.closeBracket :: tail) = .error e)
    (hfirst : inner ts = .ok (first, more))
    (hothers : pairs commaMark inner more = .ok (others, .closeBracket :: rest)) :
    arguments inner ts = .ok (first :: others.map (·.2), rest) := by
  rw [arguments.eq_def]
  split
  · next tail =>
    obtain ⟨e, he⟩ := hclose tail
    rw [he] at hfirst
    cases hfirst
  · exact bind_eq_ok.2 ⟨_, hfirst, bind_eq_ok.2 ⟨_, hothers, rfl⟩⟩

/-- A prefix operator applies to what its own level reads behind it. -/
theorem prefixed_mark {op : UnaryOp} {isMark : Token → Bool} {operand : Reader Sketch}
    {t : Token} (ht : isMark t = true) (h : prefixed op isMark operand ts = .ok (s, rest)) :
    prefixed op isMark operand (t :: ts) = .ok (.unary op s, rest) := by
  have hfold (s : Sketch) (marks : List Token) :
      marks.foldl (fun t _ => Tree.unary op t) (.unary op s) =
        .unary op (marks.foldl (fun t _ => Tree.unary op t) s) := by
    induction marks generalizing s with
    | nil => rfl
    | cons _ marks ih => exact ih _
  obtain ⟨⟨s, rest'⟩, hs, h⟩ := bind_eq_ok.1 h
  cases h
  rw [prefixed, List.takeWhile_cons_of_pos ht, List.dropWhile_cons_of_pos ht]
  exact bind_eq_ok.2 ⟨_, hs, congrArg (fun t => Except.ok (t, rest)) (hfold s _)⟩

end Climb

/-! ### Reading back -/

/-- What is written for a tree is read as the tree, at every position. -/
def ReadsBack (t : Sketch) : Prop :=
  ∀ budget p rest, p ≤ 9 → (writeAt p t).length ≤ budget → StopsBefore p rest →
    atLevel (formula budget) p (writeAt p t ++ rest) = .ok (t, rest)

/-- A chain goes on after a tree that stands at its front as it does after an operand. -/
def ChainsBack (t : Sketch) : Prop :=
  ∀ (budget : Nat) (op : BinaryOp) rest result, op.isComparison = false →
    (writeAt op.level t).length ≤ budget → StopsBefore (op.level + 1) rest →
    chainFrom op.level (atLevel (formula budget) (op.level + 1)) t rest = .ok result →
    atLevel (formula budget) op.level (writeAt op.level t ++ rest) = .ok result

/-- Reading stops before a closing bracket. -/
theorem stopsBefore_closeBracket (p : Nat) (rest : List Token) :
    StopsBefore p (.closeBracket :: rest) :=
  stopsBefore_cons.2 rfl

/-- There are nine levels above the lowest one. -/
theorem level_le (t : Sketch) : t.level ≤ 9 := by
  cases t with
  | unary op t => exact Nat.le_of_lt op.level_lt
  | binary op l r => exact Nat.le_of_lt op.level_lt
  | conditional c y n => exact Nat.zero_le 9
  | _ => exact Nat.le_refl 9

/-- A tree read back at its own level is read back at every position. -/
theorem readsBack_of_level {t : Sketch}
    (h : ∀ budget rest, (write t).length ≤ budget → StopsBefore t.level rest →
        atLevel (formula budget) t.level (write t ++ rest) = .ok (t, rest)) :
    ReadsBack t := by
  intro budget p rest hp hbudget hstop
  rw [writeAt, bracketed] at hbudget ⊢
  split at hbudget
  · cases budget with
    | zero => cases hbudget
    | succ budget =>
        rw [List.length_cons, List.length_append] at hbudget
        have hinner :=
          h budget (.closeBracket :: rest) (by omega) (stopsBefore_closeBracket _ rest)
        have hformula := atLevel_of_le (Nat.zero_le _) (level_le t) hinner
          (stopsBefore_closeBracket 0 rest)
        rw [if_pos ‹_›, List.cons_append, List.append_assoc, List.singleton_append]
        exact atLevel_of_le hp (Nat.le_refl 9) (primary_bracketed hformula) hstop
  · next hlevel =>
    rw [if_neg hlevel]
    have hle : p ≤ t.level := by simpa using hlevel
    exact atLevel_of_le hle (level_le t) (h budget rest hbudget (hstop.mono hle)) hstop

/-- A tree that is no chain of an operator's level is an operand of it. -/
theorem chain_of_readsBack {t : Sketch} (h : ReadsBack t) {op : BinaryOp}
    (hop : op.isComparison = false) (hlevel : t.level ≠ op.level) {budget : Nat}
    {rest : List Token} {result : Sketch × List Token}
    (hbudget : (writeAt op.level t).length ≤ budget)
    (hstop : StopsBefore (op.level + 1) rest)
    (hfrom : chainFrom op.level (atLevel (formula budget) (op.level + 1)) t
        rest = .ok result) :
    atLevel (formula budget) op.level (writeAt op.level t ++ rest) = .ok result := by
  have hsame : writeAt op.level t = writeAt (op.level + 1) t := by
    rw [writeAt, writeAt]
    congr 1
    simp only [decide_eq_decide]
    omega
  rw [hsame] at hbudget ⊢
  rw [atLevel_eq_chain _ hop]
  exact bind_eq_ok.2 ⟨(t, rest),
    h budget (op.level + 1) rest op.level_lt hbudget hstop, hfrom⟩

/-- A formula read back at its own level is read back inside a larger one. -/
theorem formula_of_readsBack {t : Sketch} (h : ReadsBack t) {budget : Nat}
    {rest : List Token} (hbudget : (write t).length < budget) (hstop : StopsBefore 0 rest) :
    formula budget (write t ++ rest) = .ok (t, rest) := by
  cases budget with
  | zero => cases hbudget
  | succ budget =>
      exact h budget 0 rest (Nat.zero_le 9) (Nat.le_of_lt_succ hbudget) hstop

/-- An operator of a chain, written between its operands, is read by its own level. -/
theorem chain_of_operands {op : BinaryOp} (hop : op.isComparison = false) {l r : Sketch}
    (hl : ChainsBack l) (hr : ReadsBack r) {budget : Nat} {rest : List Token}
    {result : Sketch × List Token} (hbudget : (write (.binary op l r)).length ≤ budget)
    (hstop : StopsBefore (op.level + 1) rest)
    (hfrom : chainFrom op.level (atLevel (formula budget) (op.level + 1)) (.binary op l r)
        rest = .ok result) :
    atLevel (formula budget) op.level (write (.binary op l r) ++ rest) = .ok result := by
  have hposition : op.leftPosition = op.level := by rw [BinaryOp.leftPosition, hop]; rfl
  have hwrite : write (.binary op l r) =
      writeAt op.level l ++ .operator op :: writeAt (op.level + 1) r := by
    rw [write, hposition]
    rfl
  rw [hwrite, List.length_append, List.length_cons] at hbudget
  rw [hwrite, List.append_assoc, List.cons_append]
  refine hl budget op _ result hop (by omega) ?_ ?_
  · refine stopsBefore_cons.2 ?_
    simp [carriesOn]
  · have hright := hr budget (op.level + 1) rest op.level_lt (by omega) hstop
    exact chainFrom_link (consumes_atLevel (consumes_formula budget) _) hright hfrom

/-- A comparison is read back between operands that bind tighter. -/
theorem readsBack_comparison {op : BinaryOp} (hop : op.isComparison = true) {l r : Sketch}
    (hl : ReadsBack l) (hr : ReadsBack r) : ReadsBack (.binary op l r) := by
  have hlevel : op.level = 5 := BinaryOp.level_eq_five.2 hop
  have hposition : op.leftPosition = 6 := by rw [BinaryOp.leftPosition, hop, hlevel]; rfl
  refine readsBack_of_level fun budget rest hbudget hstop => ?_
  have hwrite : write (.binary op l r) = writeAt 6 l ++ .operator op :: writeAt 6 r := by
    rw [write, hposition, hlevel]
    rfl
  rw [hwrite, List.length_append, List.length_cons] at hbudget
  rw [hwrite, List.append_assoc, List.cons_append]
  rw [Tree.level, hlevel] at hstop ⊢
  have hstopLeft : StopsBefore 6 (.operator op :: (writeAt 6 r ++ rest)) := by
    refine stopsBefore_cons.2 ?_
    rw [carriesOn, hlevel]
    rfl
  have hleft := hl budget 6 _ (by omega) (by omega) hstopLeft
  have hright := hr budget 6 rest (by omega) (by omega) (hstop.mono (by omega))
  have hop' : operatorIn BinaryOp.isComparison (.operator op) = some op := by
    rw [operatorIn, if_pos hop]
  refine bind_eq_ok.2 ⟨_, hleft, ?_⟩
  simp only [hop']
  exact bind_eq_ok.2 ⟨_, hright, rfl⟩

/-- A prefix operator is read back in front of its operand. -/
theorem readsBack_unary (op : UnaryOp) {t : Sketch} (ht : ReadsBack t) :
    ReadsBack (.unary op t) := by
  refine readsBack_of_level fun budget rest hbudget hstop => ?_
  rw [write, List.length_cons] at hbudget
  have hinner :=
    ht budget op.level rest (Nat.le_of_lt op.level_lt) (Nat.le_of_succ_le hbudget) hstop
  cases op with
  | not => exact prefixed_mark rfl hinner
  | neg => exact prefixed_mark rfl hinner

/-- A ternary is read back if its parts are. -/
theorem readsBack_conditional {c y n : Sketch} (hc : ReadsBack c) (hy : ReadsBack y)
    (hn : ReadsBack n) :
    ReadsBack (.conditional c y n) := by
  refine readsBack_of_level fun budget rest hbudget hstop => ?_
  rw [write] at hbudget ⊢
  simp only [List.length_append, List.length_cons] at hbudget
  simp only [List.append_assoc, List.cons_append]
  have hcondition :=
    hc budget 1 (.question :: (write y ++ .colon :: (write n ++ rest))) (by omega)
    (by rw [writeAt]; omega) (stopsBefore_cons.2 rfl)
  refine bind_eq_ok.2 ⟨_, hcondition, ?_⟩
  have hybudget : (write y).length < budget := by omega
  have hnbudget : (write n).length < budget := by omega
  have hyes := formula_of_readsBack hy hybudget
    (stopsBefore_cons.2 rfl : StopsBefore 0 (.colon :: (write n ++ rest)))
  have hno := formula_of_readsBack hn hnbudget hstop
  exact bind_eq_ok.2 ⟨_, hyes, bind_eq_ok.2 ⟨_, rfl, bind_eq_ok.2 ⟨_, hno, rfl⟩⟩⟩

/-- Reading stops behind an argument. -/
theorem stopsBefore_writeMore (ts : List Sketch) (rest : List Token) :
    StopsBefore 0 (writeMore ts ++ .closeBracket :: rest) := by
  cases ts with
  | nil => exact stopsBefore_closeBracket 0 rest
  | cons t ts =>
      rw [writeMore]
      exact stopsBefore_cons.2 rfl

/-- The arguments after the first one are read back. -/
theorem pairs_writeMore {ts : List Sketch} (hts : ∀ t ∈ ts, ReadsBack t) (rest : List Token)
    {budget : Nat} (hbudget : (writeMore ts).length ≤ budget) {more : List Token}
    (hmore : (writeMore ts).length ≤ more.length) :
    pairsWithin commaMark (formula budget) more (writeMore ts ++ .closeBracket :: rest) =
      .ok (ts.map ((), ·), .closeBracket :: rest) := by
  induction ts generalizing more with
  | nil => cases more <;> rfl
  | cons t ts ih =>
      obtain ⟨ht, hts⟩ := List.forall_mem_cons.1 hts
      rw [writeMore, List.length_cons, List.length_append] at hbudget hmore
      cases more with
      | nil => cases hmore
      | cons b more =>
          rw [List.length_cons] at hmore
          rw [writeMore, List.cons_append, List.append_assoc, pairsWithin]
          have hbudget' : (write t).length < budget := by omega
          have hfirst := formula_of_readsBack ht hbudget' (stopsBefore_writeMore ts rest)
          exact bind_eq_ok.2
            ⟨_, hfirst, bind_eq_ok.2 ⟨_, ih hts (by omega) (by omega), rfl⟩⟩

/-- No formula is read from a closing bracket. -/
theorem formula_closeBracket (budget : Nat) (tail : List Token) :
    ∃ e, formula budget (.closeBracket :: tail) = .error e := by
  cases budget <;> exact ⟨_, rfl⟩

/-- A call is read back with its arguments. -/
theorem readsBack_call (name : String) {args : List Sketch}
    (hargs : ∀ t ∈ args, ReadsBack t) :
    ReadsBack (.call name args) := by
  refine readsBack_of_level fun budget rest hbudget hstop => ?_
  cases args with
  | nil => rfl
  | cons t ts =>
      obtain ⟨ht, hts⟩ := List.forall_mem_cons.1 hargs
      rw [write] at hbudget ⊢
      simp only [List.length_cons, List.length_append] at hbudget
      simp only [List.cons_append, List.append_assoc, List.nil_append]
      have hbudget' : (write t).length < budget := by omega
      have hfirst := formula_of_readsBack ht hbudget' (stopsBefore_writeMore ts rest)
      have hlength : (writeMore ts).length ≤
          (writeMore ts ++ .closeBracket :: rest).length := by
        rw [List.length_append]
        exact Nat.le_add_right ..
      have hmoreBudget : (writeMore ts).length ≤ budget := by omega
      have hmore := pairs_writeMore hts rest hmoreBudget hlength
      have harguments := arguments_of_first (formula_closeBracket budget) hfirst hmore
      have hsecond : (ts.map fun t => ((), t)).map (·.2) = ts := by
        rw [List.map_map]
        exact List.map_id ts
      rw [hsecond] at harguments
      exact bind_eq_ok.2 ⟨_, harguments, rfl⟩

/-- Both properties of every tree, by induction on the tree. -/
theorem readsBack_and_chainsBack (t : Sketch) : ReadsBack t ∧ ChainsBack t := by
  -- A tree that is no chain is read back as an operand of every chain.
  have hchains {t : Sketch} (h : ReadsBack t)
      (hlevel : ∀ op : BinaryOp, op.isComparison = false → t.level ≠ op.level) :
      ReadsBack t ∧ ChainsBack t :=
    ⟨h, fun _ _ _ _ hop hbudget hstop hfrom =>
      chain_of_readsBack h hop (hlevel _ hop) hbudget hstop hfrom⟩
  induction t using Tree.induction with
  | literal l =>
      refine hchains (readsBack_of_level fun budget rest hbudget hstop => rfl)
        fun op _ => ?_
      exact Nat.ne_of_gt op.level_lt
  | column name =>
      refine hchains (readsBack_of_level fun budget rest hbudget hstop => rfl)
        fun op _ => ?_
      exact Nat.ne_of_gt op.level_lt
  | unary op t ih =>
      exact hchains (readsBack_unary op ih.1) fun op' _ => op.level_ne op'
  | binary op l r hl hr =>
      cases hop : op.isComparison with
      | true =>
          refine hchains (readsBack_comparison hop hl.1 hr.1) fun op' hop' heq => ?_
          have hlevel : op'.level = 5 := heq.symm.trans (BinaryOp.level_eq_five.2 hop)
          rw [BinaryOp.level_eq_five.1 hlevel] at hop'
          cases hop'
      | false =>
          have hback : ReadsBack (.binary op l r) := by
            refine readsBack_of_level fun budget rest hbudget hstop => ?_
            exact chain_of_operands hop hl.2 hr.1 hbudget (hstop.mono (Nat.le_succ _))
              (chainFrom_stop _ _ hstop)
          refine ⟨hback, fun budget op' rest result hop' hbudget hstop hfrom => ?_⟩
          by_cases hlevel : op.level = op'.level
          · have hwrite : writeAt op'.level (.binary op l r) = write (.binary op l r) := by
              rw [writeAt, Tree.level, hlevel, decide_eq_false (Nat.lt_irrefl _)]
              rfl
            rw [hwrite] at hbudget ⊢
            rw [← hlevel] at hstop hfrom ⊢
            exact chain_of_operands hop hl.2 hr.1 hbudget hstop hfrom
          · exact chain_of_readsBack hback hop' hlevel hbudget hstop hfrom
  | conditional c y n hc hy hn =>
      refine hchains (readsBack_conditional hc.1 hy.1 hn.1) fun op h => ?_
      cases op <;> first | (cases h; done) | exact Nat.zero_ne_add_one _
  | call name args ih =>
      refine hchains (readsBack_call name fun t ht => (ih t ht).1) fun op _ => ?_
      exact Nat.ne_of_gt op.level_lt

/-- **Brackets where they are needed, and nowhere else**, are enough to read a formula
back. -/
theorem read_write (t : Sketch) : read (write t) = .ok t := by
  have hback :=
    formula_of_readsBack (readsBack_and_chainsBack t).1 (Nat.lt_succ_self (write t).length)
    (stopsBefore_nil 0)
  rw [List.append_nil] at hback
  exact read_eq_ok.2 hback

end Grammar

end FormulaTable
