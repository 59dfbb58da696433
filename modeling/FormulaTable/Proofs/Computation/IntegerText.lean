import FormulaTable.Proofs.Computation.Inputs
import FormulaTable.Proofs.Computation.Whitelist
import FormulaTable.Proofs.Decimal.Digits
import FormulaTable.Proofs.Formula.RoundTrip
import FormulaTable.Proofs.Formula.Scanning

/-!
# Integers as formulas

The text of an integer is a formula: its digits, after a minus sign if it is negative. The
sign is no part of the constant but a prefix operator, so that it is the digits alone that
have to fit into 64 bits. They do for every integer of 64 bits but the smallest, which is
one further from zero than the largest.

* `Formula.parse_toString` — what the text of an integer is read as, and where it is
  refused.
* `Computation.Yields` — a computation whose rows all have one value.
* `Draft.integerText` — the text of an integer as a draft.
-/

namespace FormulaTable

/-- A text that neither opens nor closes anything stays within every limit. -/
theorem Nesting.within_of_isInert {limit : Nat} {text : List Char}
    (h : ∀ c ∈ text, isInert c = true) :
    within limit text = true := by
  rw [within, ← List.append_nil text, scan_inert h, scan]

/-! ### The tokens of an integer -/

namespace Token

/-- A token at the front of a text is its first one, and starts where the text does. -/
theorem lexemes_of_take {c : Char} {rest tail : List Char} {t : Token}
    (hspace : isSpace c = false) (htake : take c rest = (t, tail)) :
    lexemes (c :: rest) = ⟨t, c :: rest⟩ :: lexemes tail := by
  have hfront : (c :: rest).dropWhile isSpace = c :: rest :=
    List.dropWhile_cons_of_neg (by rw [hspace]; decide)
  rw [lexemes]
  split
  · next heq =>
    rw [hfront] at heq
    cases heq
  · next heq =>
    rw [hfront] at heq
    cases heq
    show (⟨(take c rest).1, c :: rest⟩ : Lexeme) :: lexemes (take c rest).2 = _
    rw [htake]

/-- An empty text has no lexemes. -/
theorem lexemes_nil : lexemes [] = [] := by
  rw [lexemes]
  rfl

/-- A spelled token is the one lexeme of its spelling. -/
theorem lexemes_of_isSpelled {t : Token} (h : t.IsSpelled) :
    lexemes t.spelling = [⟨t, t.spelling⟩] := by
  obtain ⟨-, c, rest, hspelling, hspace, htake⟩ := h
  rw [hspelling, lexemes_of_take hspace htake, lexemes_nil]

/-- Digits are one token. -/
theorem lexemes_digits (n : Nat) :
    lexemes (Nat.toDigits 10 n) =
      [⟨literal (.integer (Nat.toDigits 10 n)), Nat.toDigits 10 n⟩] :=
  lexemes_of_isSpelled
    (isSpelled_integer Nat.toDigits_ne_nil (Decimal.allDigits_toDigits n))

/-- A minus sign is a token of its own. -/
theorem lexemes_minus (cs : List Char) :
    lexemes ('-' :: cs) = ⟨operator .sub, '-' :: cs⟩ :: lexemes cs :=
  lexemes_of_take rfl rfl

end Token

/-! ### Reading an integer -/

namespace Formula

open Grammar (Sketch)

/-- The tree of an integer: its digits, below a minus sign if it is negative. -/
def integerSketch (n : Int) : Sketch :=
  if 0 ≤ n then .literal (.integer (Nat.toDigits 10 n.natAbs))
  else .unary .neg (.literal (.integer (Nat.toDigits 10 n.natAbs)))

/-- The formula of an integer, given the value of its digits. -/
def integerFormula (n : Int) (magnitude : Int64) : Formula :=
  if 0 ≤ n then .literal (.int magnitude) else .unary .neg (.literal (.int magnitude))

/-- The text of an integer has no brackets that could be nested too deeply. -/
theorem within_toString {limit : Nat} (n : Int) :
    Nesting.within limit (toString n).toList = true := by
  have hdigits : ∀ c ∈ Nat.toDigits 10 n.natAbs, Nesting.isInert c = true := fun c hc =>
    Nesting.isInert_of (p := Char.isDigit) rfl (Decimal.allDigits_toDigits _ c hc)
  refine Nesting.within_of_isInert ?_
  rw [Decimal.toList_toString]
  split
  · exact hdigits
  · exact List.forall_mem_cons.2 ⟨rfl, hdigits⟩

/-- The text of an integer has the tokens of its sketch. -/
theorem ofText_toString (n : Int) :
    Token.ofText (toString n).toList = Grammar.write (integerSketch n) := by
  rw [Token.ofText, Decimal.toList_toString, integerSketch]
  split
  · rw [Token.lexemes_digits]
    rfl
  · rw [Token.lexemes_minus, Token.lexemes_digits]
    rfl

/-- The text of an integer is read as its sketch. -/
theorem read_toString (n : Int) :
    Grammar.read (Token.ofText (toString n).toList) = .ok (integerSketch n) := by
  rw [ofText_toString, Grammar.read_write]

/-- The sketch of an integer is resolved if its digits make an integer of 64 bits. -/
theorem resolve_integerSketch {limit : Nat} (hlimit : 2 ≤ limit) {n : Int}
    {magnitude : Int64} (h : int64? n.natAbs = some magnitude) :
    Grammar.resolve limit 1 (integerSketch n) = .ok (integerFormula n magnitude) := by
  have hvalue : (WrittenLiteral.integer (Nat.toDigits 10 n.natAbs)).resolve =
      .ok (.int magnitude) :=
    WrittenLiteral.resolve_integer (by rwa [Decimal.digitsValue_toDigits])
  rw [integerSketch, integerFormula]
  split
  · rw [Grammar.resolve, Grammar.guard_eq_ok, bind_eq_ok]
    exact ⟨by omega, _, hvalue, rfl⟩
  · rw [Grammar.resolve, Grammar.guard_eq_ok, bind_eq_ok]
    refine ⟨by omega, _, ?_, rfl⟩
    rw [Grammar.resolve, Grammar.guard_eq_ok, bind_eq_ok]
    exact ⟨hlimit, _, hvalue, rfl⟩

/-- **The text of an integer is read** as its digits, below a minus sign if it is
negative. -/
theorem parse_toString {limit : Nat} (hlimit : 2 ≤ limit) {n : Int} {magnitude : Int64}
    (h : int64? n.natAbs = some magnitude) :
    parse limit (toString n) = .ok (integerFormula n magnitude) :=
  parse_eq_ok.2 ⟨within_toString n, _, read_toString n, resolve_integerSketch hlimit h⟩

/-- The sketch of an integer is refused, with its digits, if they make no integer of 64
bits. -/
theorem resolve_integerSketch_of_none {limit : Nat} (hlimit : 2 ≤ limit) {n : Int}
    (h : int64? n.natAbs = none) :
    Grammar.resolve limit 1 (integerSketch n) =
      .error (.integerOutOfRange (Nat.toDigits 10 n.natAbs)) := by
  have hvalue : (WrittenLiteral.integer (Nat.toDigits 10 n.natAbs)).resolve =
      .error (.integerOutOfRange (Nat.toDigits 10 n.natAbs)) :=
    WrittenLiteral.resolve_integer_of_none (by rwa [Decimal.digitsValue_toDigits])
  rw [integerSketch]
  split
  · rw [Grammar.resolve, if_neg (by omega), hvalue]
    rfl
  · rw [Grammar.resolve, if_neg (by omega), Grammar.resolve, if_neg (by omega), hvalue]
    rfl

/-- The digits that do not fit start where the sign ends. -/
theorem positionOfOverflow_toString {n : Int} (h : int64? n.natAbs = none) :
    positionOfOverflow (toString n).toList (Token.lexemes (toString n).toList) =
      ⟨1, if 0 ≤ n then 1 else 2⟩ := by
  have hdigits (text : List Char) :
      [(⟨.literal (.integer (Nat.toDigits 10 n.natAbs)), text⟩ : Lexeme)].find?
        (fun l => isOutOfRange l.token) =
        some ⟨.literal (.integer (Nat.toDigits 10 n.natAbs)), text⟩ := by
    refine List.find?_cons_of_pos ?_
    rw [isOutOfRange, Decimal.digitsValue_toDigits, h]
    rfl
  rw [Decimal.toList_toString, positionOfOverflow]
  split_ifs
  · rw [Token.lexemes_digits, hdigits]
    dsimp only
    rw [positionAt, Nat.sub_self]
    rfl
  · rw [Token.lexemes_minus, Token.lexemes_digits,
      List.find?_cons_of_neg Bool.false_ne_true, hdigits]
    dsimp only
    rw [positionAt, List.length_cons, Nat.add_sub_cancel_left]
    rfl

/-- **The text of an integer whose digits do not fit is refused** at its first digit. -/
theorem parse_toString_of_none {limit : Nat} (hlimit : 2 ≤ limit) {n : Int}
    (h : int64? n.natAbs = none) :
    parse limit (toString n) =
      .error (.syntaxError ⟨1, if 0 ≤ n then 1 else 2⟩
        (.integerOutOfRange (toString n.natAbs))) := by
  have hread := read_toString n
  rw [Token.ofText] at hread
  rw [parse, parseChars, within_toString]
  simp only [Bool.not_true, Bool.false_eq_true, if_false, hread,
    resolve_integerSketch_of_none hlimit h, positionOfOverflow_toString h]
  rw [Nat.toString_eq_repr, Nat.repr_eq_ofList_toDigits]

/-- The text of an integer is not blank. -/
theorem isBlankText_toString (n : Int) : Text.isBlankText (toString n) = false := by
  obtain ⟨c, digits, hdigits⟩ :=
    List.exists_cons_of_ne_nil (Nat.toDigits_ne_nil (b := 10) (n := n.natAbs))
  have hmem : c ∈ Nat.toDigits 10 n.natAbs := hdigits ▸ List.mem_cons_self
  have htext : c ∈ (toString n).toList := by
    rw [Decimal.toList_toString]
    split
    · exact hmem
    · exact List.mem_cons_of_mem _ hmem
  have hblank := Decimal.isBlank_eq_false_of_isDigit (Decimal.allDigits_toDigits _ c hmem)
  exact List.all_eq_false.2 ⟨c, htext, Bool.eq_false_iff.1 hblank⟩

/-! ### The value of an integer's formula -/

variable {n : Int} {magnitude : Int64}

/-- The formula of an integer is a number with a sign at most. -/
theorem depth_integerFormula : (integerFormula n magnitude).depth ≤ 2 := by
  rw [integerFormula]
  split
  · exact Nat.le_succ 1
  · exact Nat.le_refl 2

/-- The formula of an integer mentions no column. -/
theorem mentions_integerFormula : (integerFormula n magnitude).mentions = [] := by
  rw [integerFormula]
  split <;> rfl

/-- The formula of an integer calls nothing. -/
theorem permitted_integerFormula (env : Environment) :
    (integerFormula n magnitude).Permitted env := by
  rw [integerFormula]
  split <;> exact List.forall_mem_nil _

/-- The negated digits of a negative integer are the integer. -/
theorem meaning_integerFormula (env : Environment) (column : String → Value) {n : Int64}
    (h : int64? n.toInt.natAbs = some magnitude) :
    (integerFormula n.toInt magnitude).meaning env column = .ok (.int n) := by
  have hmagnitude : magnitude.toInt = n.toInt.natAbs := int64?_eq_some.1 h
  rw [integerFormula]
  split
  · next hsign =>
    have hsame : magnitude.toInt = n.toInt := by omega
    rw [Int64.toInt_inj.1 hsame]
    rfl
  · next hsign =>
    have hopposite : int64? (-magnitude.toInt) = some n := int64?_eq_some.2 (by omega)
    show Value.exact64 .int .sub (-magnitude.toInt) = _
    rw [Value.exact64, hopposite]

/-- The digits of an integer fit, unless it is the smallest one. -/
theorem exists_magnitude {n : Int64} (h : n ≠ Int64.minValue) :
    ∃ magnitude, int64? n.toInt.natAbs = some magnitude := by
  have hlow := n.le_toInt
  have hhigh := n.toInt_lt
  have hne : n.toInt ≠ -0x8000000000000000 := fun heq => h (Int64.toInt_inj.1 heq)
  exact ⟨.ofInt n.toInt.natAbs, by rw [int64?, if_pos (by omega)]⟩

end Formula

/-! ### Integers as drafts -/

namespace Computation

variable {x : Computation} {v : Value}

/-- Every row has the value, whatever the columns are, and none fails; but the columns have
to be acceptable, and their cells readable. -/
def Yields (x : Computation) (v : Value) : Prop :=
  ∀ columns rows, x.Accepts columns rows → (∀ row < rows, x.unreadables columns row = []) →
    ∃ e, x.evaluateRows columns rows = .ok e ∧ e.errors = [] ∧ e.series.size = rows ∧
      ∀ row < rows, e.series.value? row = some v

/-- Rows without failures have no messages. -/
theorem messages_eq_nil {results : List (Except RowError Value)}
    (h : ∀ r ∈ results, ∃ v, r = .ok v) :
    messages results = [] := by
  rw [messages, List.filterMap_eq_nil_iff]
  rintro ⟨result, row⟩ hmem
  obtain ⟨v, rfl⟩ := h result (List.fst_mem_of_mem_zipIdx hmem)
  rfl

/-- A computation whose readable rows have one value yields it. -/
theorem yields_of_evalRow
    (h : ∀ columns row, x.unreadables columns row = [] → x.evalRow columns row = .ok v) :
    x.Yields v := by
  intro columns rows haccepts hreadable
  obtain ⟨e, he⟩ := exists_evaluateRows_eq_ok haccepts
  refine ⟨e, he, ?_, size_evaluateRows he, fun row hrow => ?_⟩
  · obtain ⟨-, s, -, rfl⟩ := evaluateRows_eq_ok.1 he
    refine messages_eq_nil (List.forall_mem_map.2 fun row hrow => ⟨v, ?_⟩)
    exact h columns row (hreadable row (List.mem_range.1 hrow))
  · rw [value?_evaluateRows he hrow, h columns row (hreadable row hrow)]
    rfl

end Computation

namespace Draft

variable {d : Draft} {n : Int64}

/-- The text of an integer as a draft. -/
structure IntegerText (d : Draft) (n : Int64) : Prop where
  /-- It compiles, reads no more than it is told to, and yields the integer. -/
  compiled : n ≠ Int64.minValue →
    ∃ x, d.compile = .ok x ∧ x.inputs = d.inputs.getD [] ∧ x.Yields (.int n)
  /-- The digits of the smallest integer are refused, behind its sign. -/
  refused : n = Int64.minValue →
    d.compile = .error (.syntaxError ⟨1, 2⟩ (.integerOutOfRange "9223372036854775808"))

/-- A formula without columns has the inputs that are given, if they are distinct, or
none. -/
theorem chooseInputs_of_nodup {given : Option (List String)}
    (h : ∀ inputs ∈ given, inputs.Nodup) {f : Formula} (hf : f.mentions = []) :
    chooseInputs given f = .ok (given.getD []) := by
  cases given with
  | none =>
      rw [chooseInputs, Tree.columns, hf]
      rfl
  | some inputs =>
      rw [chooseInputs, firstRepeat?_eq_none.2 (h inputs rfl)]
      rfl

/-- **A formula of constants**: if it has a value that does not depend on any column, the
draft yields that value. -/
theorem compile_of_constant {f : Formula} {k : Kind} {v : Value} (hkind : d.kind = some k)
    (hvalid : d.config.validate = .ok ()) (hinputs : ∀ inputs ∈ d.inputs, inputs.Nodup)
    (hparse : Formula.parse d.config.depthLimit d.source = .ok f)
    (hdepth : f.depth ≤ d.config.depthLimit)
    (hpermitted : f.Permitted (environment (d.registry.getD .standard) d.config))
    (hmentions : f.mentions = [])
    (hmeaning : ∀ column,
        f.meaning (environment (d.registry.getD .standard) d.config) column = .ok v)
    (hv : v.HasKind k) :
    ∃ x, d.compile = .ok x ∧ x.inputs = d.inputs.getD [] ∧ x.Yields v := by
  have hblank := Formula.isBlankText_of_parse hparse
  have hcheck := Formula.check_eq_ok.2 ⟨hdepth, hpermitted⟩
  have hchosen := chooseInputs_of_nodup hinputs hmentions
  have hnodup : (d.inputs.getD []).Nodup := by
    cases hgiven : d.inputs with
    | none => exact List.nodup_nil
    | some inputs => exact hinputs inputs hgiven
  refine ⟨_, compile_eq_ok.2 ⟨hblank, k, f, _, hkind, hvalid, hparse, hcheck, hchosen, rfl⟩,
    rfl, Computation.yields_of_evalRow fun columns row hreadable => ?_⟩
  rw [Computation.evalRow_eq_meaning ⟨hnodup, rfl⟩ hpermitted hreadable, hmeaning]
  exact Value.convert_of_hasKind hv

/-- Settings whose limit leaves room for one more level are valid. -/
theorem validate_of_le {limit : Nat} {c : Config} (hlimit : limit + 1 ≤ c.depthLimit) :
    c.validate = .ok () := by
  rw [Config.validate, if_neg (by omega)]

section Compile

variable (hsource : d.source = (Value.int n).toText) (hkind : d.kind = some .int64)
  (hlimit : 2 ≤ d.config.depthLimit)

include hsource hkind hlimit

/-- An integer whose digits fit is read as their formula, which has one value on all
rows. -/
theorem compile_of_magnitude (hinputs : ∀ inputs ∈ d.inputs, inputs.Nodup)
    {magnitude : Int64} (h : int64? n.toInt.natAbs = some magnitude) :
    ∃ x, d.compile = .ok x ∧ x.inputs = d.inputs.getD [] ∧ x.Yields (.int n) := by
  have htext : d.source = toString n.toInt := hsource
  have hparse : Formula.parse d.config.depthLimit d.source =
      .ok (Formula.integerFormula n.toInt magnitude) :=
    htext ▸ Formula.parse_toString hlimit h
  exact compile_of_constant hkind (validate_of_le hlimit) hinputs hparse
    (Nat.le_trans Formula.depth_integerFormula hlimit) (Formula.permitted_integerFormula _)
    Formula.mentions_integerFormula
      (fun column => Formula.meaning_integerFormula _ column h) (.inr rfl)

/-- Digits that do not fit are refused, behind the sign if there is one. -/
theorem compile_of_none (h : int64? n.toInt.natAbs = none) :
    d.compile = .error (.syntaxError ⟨1, if 0 ≤ n.toInt then 1 else 2⟩
      (.integerOutOfRange (toString n.toInt.natAbs))) := by
  have htext : d.source = toString n.toInt := hsource
  refine compile_eq_error_of_parse (htext ▸ Formula.isBlankText_toString _) hkind
    (validate_of_le hlimit) ?_
  rw [htext, Formula.parse_toString_of_none hlimit h]

end Compile

/-- **The text of an integer is a formula for it**, unless it is the smallest one, whose
digits are refused. -/
theorem integerText (hsource : d.source = (Value.int n).toText)
    (hkind : d.kind = some .int64) (hlimit : 2 ≤ d.config.depthLimit)
    (hinputs : ∀ inputs ∈ d.inputs, inputs.Nodup) : IntegerText d n where
  compiled hn := by
    obtain ⟨magnitude, hmagnitude⟩ := Formula.exists_magnitude hn
    exact compile_of_magnitude hsource hkind hlimit hinputs hmagnitude
  refused hn := by
    subst hn
    exact compile_of_none hsource hkind hlimit (by decide)

/-- The integer next to the smallest one, on three rows without any columns; and the
smallest one. -/
theorem integerText_smallest :
    (∃ x,
        compile ⟨"-9223372036854775807", none, some .int64, none, Config.standard⟩ = .ok x ∧
      ∃ e, x.evaluateRows [] 3 = .ok e ∧ e.errors = [] ∧
        e.series.value? 2 = some (.int (-9223372036854775807))) ∧
    compile ⟨"-9223372036854775808", none, some .int64, none, Config.standard⟩ =
      .error (.syntaxError ⟨1, 2⟩ (.integerOutOfRange "9223372036854775808")) := by
  have hnext : IntegerText
      ⟨"-9223372036854775807", none, some .int64, none, Config.standard⟩
      (-9223372036854775807) :=
    integerText rfl rfl (by decide) nofun
  have hsmallest : IntegerText
      ⟨"-9223372036854775808", none, some .int64, none, Config.standard⟩ Int64.minValue :=
    integerText rfl rfl (by decide) nofun
  obtain ⟨x, hx, hinputs, hyields⟩ := hnext.compiled (by decide)
  have haccepts : x.Accepts [] 3 := by
    rw [Computation.Accepts, hinputs]
    exact .nil
  have hreadable (row : Nat) : x.unreadables [] row = [] := by
    rw [Computation.unreadables, Computation.arrays, List.zip_nil_right]
    rfl
  obtain ⟨e, he, herrors, -, hvalue⟩ := hyields [] 3 haccepts fun row _ => hreadable row
  exact ⟨⟨x, hx, e, he, herrors, hvalue 2 (by decide)⟩, hsmallest.refused rfl⟩

/-- **An integer that cannot be written**: the smallest one has a text, which is refused. -/
theorem smallest_integer_refused :
    (Value.int Int64.minValue).toText = "-9223372036854775808" ∧
      compile ⟨"-9223372036854775808", none, some .int64, none, Config.standard⟩ =
        .error (.syntaxError ⟨1, 2⟩ (.integerOutOfRange "9223372036854775808")) :=
  ⟨rfl, compile_of_none (n := Int64.minValue) rfl rfl (by decide) (by decide)⟩

end Draft

end FormulaTable
