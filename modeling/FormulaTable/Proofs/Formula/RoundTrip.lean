import FormulaTable.Proofs.Formula.Nesting
import FormulaTable.Proofs.Formula.Precedence
import FormulaTable.Proofs.Formula.Reading
import FormulaTable.Proofs.Formula.Spelling

/-!
# Writing and reading a formula

`Formula.render` writes a formula as a text: with the canonical symbols, a blank around
every token, and brackets around those parts only that bind looser than their position
allows. Reading the text gives the formula back, as long as its constants and names can be
written at all.

* `parse_render` — reading undoes writing.
-/

namespace FormulaTable

/-- A constant as it is written. -/
def Literal.written : Literal → WrittenLiteral
  | int n => .integer (int n).spelling
  | l => .known l

/-! ### What can be written -/

/-- Can the leaf of a formula be written? Negative integers, numbers with a fraction, the
empty name and names with a back-quote cannot. -/
def Formula.isWritableLeaf : Formula → Bool
  | .literal (.int n) => 0 ≤ n.toInt
  | .literal (.float _) => false
  | .literal _ => true
  | .column name => name != "" && !name.toList.contains '\x60'
  | _ => false

/-- A formula can be written when its leaves can and its calls are of functions with proper
names. -/
structure Formula.Writable (f : Formula) : Prop where
  leaves : ∀ t ∈ f.leaves, Formula.isWritableLeaf t = true
  calls : ∀ call ∈ f.calls, Token.isFunctionName call.1 = true

namespace Formula

/-- The text of a formula. -/
def render (f : Formula) : String :=
  String.ofList (Token.spell (Grammar.write (f.map Literal.written)))

end Formula

/-! ### The tokens of a formula -/

namespace Grammar

section Tokens

variable {P : Token → Prop} (hmark : ∀ t : Token, t.isMark = true → P t)

include hmark

/-- Brackets around tokens add nothing but themselves. -/
theorem forall_mem_bracketed {looser : Bool} {ts : List Token} (h : ∀ t ∈ ts, P t) :
    ∀ t ∈ bracketed looser ts, P t := by
  rw [bracketed]
  split
  · rw [List.forall_mem_cons, List.forall_mem_append, List.forall_mem_singleton]
    exact ⟨hmark _ rfl, h, hmark _ rfl⟩
  · exact h

/-- What is true of the tokens of arguments, and of marks, is true of the tokens of several
of them. -/
theorem forall_mem_writeMore {ts : List Sketch} (h : ∀ s ∈ ts, ∀ t ∈ write s, P t) :
    ∀ t ∈ writeMore ts, P t := by
  induction ts with
  | nil => exact List.forall_mem_nil _
  | cons s ts ih =>
      obtain ⟨hs, hts⟩ := List.forall_mem_cons.1 h
      rw [writeMore, List.forall_mem_cons, List.forall_mem_append]
      exact ⟨hmark _ rfl, hs, ih hts⟩

/-- What is true of marks, of the tokens of leaves and of the names of calls is true of
every token. -/
theorem forall_mem_write {s : Sketch} (hleaves : ∀ l ∈ s.leaves, ∀ t ∈ write l, P t)
    (hcalls : ∀ call ∈ s.calls, P (.word call.1)) : ∀ t ∈ write s, P t := by
  induction s using Tree.induction with
  | literal l => exact hleaves _ (List.mem_singleton_self _)
  | column name => exact hleaves _ (List.mem_singleton_self _)
  | unary op s ih =>
      rw [write, List.forall_mem_cons]
      exact ⟨hmark _ (by cases op <;> rfl), forall_mem_bracketed hmark (ih hleaves hcalls)⟩
  | binary op l r hl hr =>
      rw [Tree.leaves, List.forall_mem_append] at hleaves
      rw [Tree.calls, List.forall_mem_append] at hcalls
      rw [write, List.forall_mem_append, List.forall_mem_cons]
      exact ⟨forall_mem_bracketed hmark (hl hleaves.1 hcalls.1), hmark _ rfl,
        forall_mem_bracketed hmark (hr hleaves.2 hcalls.2)⟩
  | conditional c y n hc hy hn =>
      rw [Tree.leaves, List.forall_mem_append, List.forall_mem_append] at hleaves
      rw [Tree.calls, List.forall_mem_append, List.forall_mem_append] at hcalls
      simp only [write, List.forall_mem_append, List.forall_mem_cons]
      exact ⟨forall_mem_bracketed hmark (hc hleaves.1.1 hcalls.1.1), hmark _ rfl,
        hy hleaves.1.2 hcalls.1.2, hmark _ rfl, hn hleaves.2 hcalls.2⟩
  | call name args ih =>
      rw [Tree.leaves, Tree.leavesOfAll_eq] at hleaves
      rw [Tree.calls, Tree.callsOfAll_eq, List.forall_mem_cons] at hcalls
      have hargs : ∀ s ∈ args, ∀ t ∈ write s, P t := fun s hs =>
        ih s hs (fun l hl => hleaves l (List.mem_flatMap.2 ⟨s, hs, hl⟩))
          (fun call hcall => hcalls.2 call (List.mem_flatMap.2 ⟨s, hs, hcall⟩))
      cases args with
      | nil =>
          rw [write, List.forall_mem_cons, List.forall_mem_cons, List.forall_mem_singleton]
          exact ⟨hcalls.1, hmark _ rfl, hmark _ rfl⟩
      | cons s args =>
          obtain ⟨hs, hargs⟩ := List.forall_mem_cons.1 hargs
          simp only [write, List.forall_mem_append, List.forall_mem_cons]
          exact ⟨hcalls.1, hmark _ rfl, hs, forall_mem_writeMore hmark hargs, hmark _ rfl,
            List.forall_mem_nil _⟩

end Tokens

end Grammar

namespace Formula

/-- The leaves that can be written are spelled. -/
theorem isSpelled_leaf {l : Formula} (h : isWritableLeaf l = true) :
    ∀ t ∈ Grammar.write (l.map Literal.written), t.IsSpelled := by
  cases l with
  | literal l =>
      refine List.forall_mem_singleton.2 ?_
      cases l with
      | null => exact ⟨by decide, _, _, rfl, rfl, by decide +kernel⟩
      | bool b => cases b <;> exact ⟨by decide, _, _, rfl, rfl, by decide +kernel⟩
      | int n =>
          refine Token.isSpelled_integer (List.ne_nil_of_length_pos Nat.length_toDigits_pos)
            fun c hc => ?_
          exact Nat.isDigit_of_mem_toDigits (by decide) (by decide) hc
      | float x => cases h
      | text s => exact Token.isSpelled_text s
  | column name =>
      refine List.forall_mem_singleton.2 ?_
      rw [isWritableLeaf, Bool.and_eq_true] at h
      exact Token.isSpelled_quotedName (by simpa using h.1) (by simpa using h.2)
  | unary op t => cases h
  | binary op l r => cases h
  | conditional c y n => cases h
  | call name args => cases h

/-- Every token of a formula that can be written is spelled. -/
theorem isSpelled_of_mem_write {f : Formula} (h : f.Writable) :
    ∀ t ∈ Grammar.write (f.map Literal.written), t.IsSpelled := by
  refine Grammar.forall_mem_write (fun t => Token.isSpelled_mark) ?_ ?_
  · rw [Tree.leaves_map, List.forall_mem_map]
    exact fun l hl => isSpelled_leaf (h.leaves l hl)
  · rw [Tree.calls_map]
    exact fun call hcall => Token.isSpelled_word (h.calls call hcall)

/-- A written formula has the tokens of its sketch. -/
theorem ofText_render {f : Formula} (h : f.Writable) :
    Token.ofText f.render.toList = Grammar.write (f.map Literal.written) := by
  rw [render, String.toList_ofList, Token.ofText_spell (isSpelled_of_mem_write h)]

end Formula

/-! ### The values of constants -/

namespace WrittenLiteral

/-- Digits are the integer that they stand for, unless it does not fit. -/
theorem resolve_integer_eq (digits : List Char) : (integer digits).resolve =
    (int64? (Decimal.digitsValue digits)).elim (.error (.integerOutOfRange digits)) fun n =>
      .ok (.int n) := by
  -- The range check would be run on an unknown number when the constant is opened, so it is
  -- hidden before.
  obtain ⟨value, hvalue⟩ : ∃ value : List Char → Option Int64,
      ∀ ds, int64? (Decimal.digitsValue ds) = value ds := ⟨_, fun _ => rfl⟩
  generalize hw : integer digits = w
  rw [resolve.eq_def]
  simp only [hvalue]
  subst hw
  dsimp only
  cases value digits <;> rfl

/-- Digits whose value fits are that integer. -/
theorem resolve_integer {digits : List Char} {n : Int64}
    (h : int64? (Decimal.digitsValue digits) = some n) :
    (integer digits).resolve = .ok (.int n) := by
  rw [resolve_integer_eq, h]
  rfl

/-- Digits whose value does not fit are refused. -/
theorem resolve_integer_of_none {digits : List Char}
    (h : int64? (Decimal.digitsValue digits) = none) :
    (integer digits).resolve = .error (.integerOutOfRange digits) := by
  rw [resolve_integer_eq, h]
  rfl

end WrittenLiteral

/-- The digits of an integer that is not negative are read as the integer. -/
theorem int64?_digitsValue {n : Int64} (h : 0 ≤ n.toInt) :
    int64? (Decimal.digitsValue (Literal.int n).spelling) = some n := by
  have hdigits : Decimal.digitsValue (Literal.int n).spelling = n.toInt.toNat :=
    Nat.ofDigitChars_ten_toDigits
  have hvalue : n.toInt = (Decimal.digitsValue (Literal.int n).spelling : Int) := by
    rw [hdigits, Int.toNat_of_nonneg h]
  exact int64?_eq_some.2 hvalue

/-- A literal that can be written is resolved to itself. -/
theorem Literal.resolve_written {l : Literal}
    (h : Formula.isWritableLeaf (.literal l) = true) :
    l.written.resolve = .ok l := by
  cases l with
  | int n => exact WrittenLiteral.resolve_integer (int64?_digitsValue (of_decide_eq_true h))
  | null => rfl
  | bool b => rfl
  | text s => rfl
  | float x => cases h

namespace Grammar

/-- The constants of a written formula get their values when the formula is not too deep. -/
theorem resolve_written {f : Formula} (h : ∀ l ∈ f.leaves, Formula.isWritableLeaf l = true)
    {limit depth : Nat} (hdepth : f.depth + depth ≤ limit + 1) :
    resolve limit depth (f.map Literal.written) = .ok f := by
  induction f using Tree.induction generalizing depth with
  | literal l =>
      rw [Tree.depth] at hdepth
      rw [Tree.map, resolve, if_neg (by omega)]
      have hvalue := Literal.resolve_written (h _ (List.mem_singleton_self _))
      exact bind_eq_ok.2 ⟨l, hvalue, rfl⟩
  | column name =>
      rw [Tree.depth] at hdepth
      rw [Tree.map, resolve, if_neg (by omega)]
      rfl
  | unary op t ih =>
      rw [Tree.depth] at hdepth
      rw [Tree.map, resolve, if_neg (by omega)]
      exact bind_eq_ok.2 ⟨t, ih h (by omega), rfl⟩
  | binary op l r hl hr =>
      rw [Tree.depth] at hdepth
      rw [Tree.leaves, List.forall_mem_append] at h
      rw [Tree.map, resolve, if_neg (by omega)]
      exact bind_eq_ok.2 ⟨l, hl h.1 (by omega), bind_eq_ok.2 ⟨r, hr h.2 (by omega), rfl⟩⟩
  | conditional c y n hc hy hn =>
      rw [Tree.depth] at hdepth
      rw [Tree.leaves, List.forall_mem_append, List.forall_mem_append] at h
      rw [Tree.map, resolve, if_neg (by omega)]
      exact bind_eq_ok.2 ⟨c, hc h.1.1 (by omega),
        bind_eq_ok.2 ⟨y, hy h.1.2 (by omega), bind_eq_ok.2 ⟨n, hn h.2 (by omega), rfl⟩⟩⟩
  | call name args ih =>
      rw [Tree.depth] at hdepth
      rw [Tree.leaves, Tree.leavesOfAll_eq] at h
      rw [Tree.map, resolve, if_neg (by omega), resolveAll_eq, Tree.mapAll_eq]
      have hargs : (args.map (Tree.map Literal.written)).mapM (resolve limit (depth + 1)) =
          .ok args := by
        rw [mapM_eq_ok, List.forall₂_map_left_iff, List.forall₂_same]
        intro t ht
        have hle : Tree.depthOfAll args ≤ limit + 1 - (depth + 1) := by omega
        have := Tree.depthOfAll_le.1 hle t ht
        exact ih t ht (fun l hl => h l (List.mem_flatMap.2 ⟨t, ht, hl⟩)) (by omega)
      exact bind_eq_ok.2 ⟨args, hargs, rfl⟩

end Grammar

namespace Formula

/-- **Reading undoes writing**: a formula that can be written is what its text is read as,
for every limit that is large enough. -/
theorem parse_render {f : Formula} (h : f.Writable) :
    ∃ enough, ∀ limit, enough ≤ limit → parse limit f.render = .ok f := by
  refine ⟨max f.render.toList.length f.depth, fun limit hlimit => ?_⟩
  rw [Nat.max_le] at hlimit
  have hwithin : Nesting.within limit f.render.toList = true :=
    Nesting.within_of_length_le hlimit.1
  have hread := Grammar.read_write (f.map Literal.written)
  rw [← ofText_render h] at hread
  have hresolve : Grammar.resolve limit 1 (f.map Literal.written) = .ok f :=
    Grammar.resolve_written h.leaves (Nat.succ_le_succ hlimit.2)
  exact parse_eq_ok.2 ⟨hwithin, _, hread, hresolve⟩

/-- A formula with operators at several levels, a call and a text with both kinds of
escapes. -/
def sample : Formula :=
  .conditional (.unary .not (.binary .or (.column "a b") (.column "c")))
    (.binary .sub (.literal (.int 1))
        (.binary .sub (.literal (.int 2)) (.literal (.int 3))))
    (.call "f" [.unary .neg (.literal (.int 7)), .literal (.text "\"\\")])

/-- A formula with operators of all kinds is written, and read back under every limit that
is large enough. -/
theorem parse_render_sample :
    sample.Writable ∧ ∃ enough, ∀ limit, enough ≤ limit →
      parse limit sample.render = .ok sample :=
  have h : sample.Writable := ⟨by decide +kernel, by decide +kernel⟩
  ⟨h, parse_render h⟩

example : sample.render =
    " ! ( `a b` || `c` ) ? 1 - ( 2 - 3 ) : f ( - 7 , \"\\\"\\\\\" ) " := by decide +kernel

end Formula

end FormulaTable
