import FormulaTable.Proofs.Formula.Terminals

/-!
# Terminals that read names and constants

A name and a constant are read as one token, as operators are. The alternatives of a
constant exclude each other by the first character, except for the kinds of numbers, where
the longest is tried first.

* `identifier_eq`, `column_eq`, `literal_eq` — the tokens that these terminals stand for.
-/

namespace FormulaTable.Matching.Terminal

open Token
  (take takeChars? takeText? takeQuotedName? takeExponent? takeNumber isWordChar isWordStart
  fractionDigits ofWord)

variable {α : Type} {c : Char} {rest text : List Char}

/-! ### Names -/

/-- The name of a word. -/
def name? : Token → Option String
  | .word name => some name
  | _ => none

/-- The name between back-quotes. -/
def quotedName? : Token → Option String
  | .quotedName name => some name
  | _ => none

/-- The meaning of a keyword, whatever it is. -/
def keyword? : Token → Option Unit
  | .word _ => none
  | _ => some ()

/-- A keyword is a word that is spelled like it, in any case of its letters. -/
theorem keyword_eq (c : Char) (rest : List Char) :
    keyword (c :: rest) =
      if isWordStart c then
        (keyword? (ofWord (String.ofList (c :: rest.takeWhile isWordChar)))).map
          (·, rest.dropWhile isWordChar)
      else none :=
  firstOf_words_of_want [(['a', 'n', 'd'], ()), (['o', 'r'], ()), (['n', 'o', 't'], ()),
    (['t', 'r', 'u', 'e'], ()), (['f', 'a', 'l', 's', 'e'], ()),
    (['n', 'u', 'l', 'l'], ())] rfl (fun _ => rfl)
    c rest

/-- A word is a name unless it is a keyword. -/
theorem name?_ofWord (name : String) :
    name? (ofWord name) = if (keyword? (ofWord name)).isSome then none else some name := by
  rw [ofWord]
  split <;> rfl

/-- A mark is no name. -/
theorem name?_of_isMark : ∀ t : Token, t.isMark = true → name? t = none
  | .word _, h => nomatch h
  | .operator _, _ | .literal _, _ | .quotedName _, _ | .not, _ | .question, _ | .colon,
    _ | .comma, _
  | .openBracket, _ | .closeBracket, _ | .illegal, _ => rfl

/-- The rule for identifiers takes the tokens that are names. -/
theorem identifier_eq : identifier = ofToken name? := by
  funext text
  cases text with
  | nil => rfl
  | cons c rest =>
      rw [ofToken, identifier, keyword_eq]
      cases hword : isWordStart c with
      | true =>
          rw [take_of_isWordStart hword, name?_ofWord]
          cases keyword? (ofWord (String.ofList (c :: rest.takeWhile isWordChar))) <;> rfl
      | false =>
          have hname : name? (take c rest).1 = none :=
            take_fst (P := fun t => name? t = none) rfl (fun _ _ => rfl)
              (fun h => by rw [hword] at h; cases h) (fun _ _ => rfl)
                (fun _ => name?_of_isMark) rest
          rw [hname]
          rfl

/-- A mark is no quoted name. -/
theorem quotedName?_of_isMark : ∀ t : Token, t.isMark = true → quotedName? t = none
  | .quotedName _, h => nomatch h
  | .operator _, _ | .literal _, _ | .word _, _ | .not, _ | .question, _ | .colon,
    _ | .comma, _
  | .openBracket, _ | .closeBracket, _ | .illegal, _ => rfl

/-- A word is no quoted name. -/
theorem quotedName?_ofWord (name : String) : quotedName? (ofWord name) = none := by
  rw [ofWord]
  split <;> rfl

/-- The rule for quoted identifiers takes the tokens that are quoted names. -/
theorem quotedIdentifier_eq : quotedIdentifier = ofToken quotedName? := by
  funext text
  cases text with
  | nil => rfl
  | cons c rest =>
      rw [ofToken, quotedIdentifier]
      by_cases hc : c = '\x60'
      · subst hc
        have htake : take '\x60' rest = ((takeQuotedName? rest).map fun found =>
            (Token.quotedName (String.ofList found.1), found.2)).getD (.illegal, []) := by
          rw [take, if_neg (by decide), if_neg (by decide), if_neg (by decide), if_pos rfl]
          cases takeQuotedName? rest <;> rfl
        rw [htake]
        simp only [takeChars?, if_true, Option.bind_eq_bind, Option.bind_some]
        cases takeQuotedName? rest <;> rfl
      · have hname : quotedName? (take c rest).1 = none :=
          take_fst (P := fun t => quotedName? t = none) rfl (fun _ _ => rfl)
            (fun _ => quotedName?_ofWord)
            (fun h => absurd h hc) (fun _ => quotedName?_of_isMark) rest
        rw [hname, takeChars?_eq_none (Ne.symm hc)]
        rfl

/-! ### Constants -/

/-- The constant of a token. -/
def literal? : Token → Option WrittenLiteral
  | .literal l => some l
  | _ => none

/-- A mark is no constant. -/
theorem literal?_of_isMark : ∀ t : Token, t.isMark = true → literal? t = none
  | .literal _, h => nomatch h
  | .operator _, _ | .quotedName _, _ | .word _, _ | .not, _ | .question, _ | .colon,
    _ | .comma, _
  | .openBracket, _ | .closeBracket, _ | .illegal, _ => rfl

/-- The constants that are numbers. -/
def number : Terminal WrittenLiteral := firstOf [pointNumber, exponentNumber, integer]

/-- Digits go as far as they can. -/
theorem digits_cons (h : c.isDigit = true) (rest : List Char) :
    digits (c :: rest) =
      some (c :: rest.takeWhile Char.isDigit, rest.dropWhile Char.isDigit) := by
  rw [digits, List.takeWhile_cons_of_pos h, List.dropWhile_cons_of_pos h]
  rfl

/-- There are no digits in front of another character. -/
theorem digits_eq_none (h : c.isDigit = false) (rest : List Char) :
    digits (c :: rest) = none := by
  rw [digits, List.takeWhile_cons_of_neg (by simp [h])]
  rfl

/-- The digits after a point, where there are some. -/
theorem point_digits (text : List Char) :
    (takeChars? ['.'] text).bind digits =
      if (fractionDigits text).isEmpty then none
      else some (fractionDigits text, text.drop ((fractionDigits text).length + 1)) := by
  rcases Token.fractionDigits_cases text with ⟨tail, rfl, hdigits⟩ | ⟨hpoint, hnil⟩
  · rw [hdigits, List.drop_succ_cons, drop_length_takeWhile]
    rfl
  · have hnone : takeChars? ['.'] text = none := by
      cases text with
      | nil => rfl
      | cons c rest => exact takeChars?_eq_none (fun h => hpoint rest (by rw [h])) []
    rw [hnone, hnil]
    rfl

/-- What starts with a digit is a number, or no token at all. -/
theorem number_of_isDigit (h : c.isDigit = true) (rest : List Char) :
    number (c :: rest) = ofToken literal? (c :: rest) := by
  rw [ofToken, take_of_isDigit h]
  simp only [number, firstOf, List.findSome?_cons, List.findSome?_nil, pointNumber,
    exponentNumber, integer, digits_cons h, Option.bind_eq_bind, Option.bind_some]
  generalize c :: rest.takeWhile Char.isDigit = whole
  generalize rest.dropWhile Char.isDigit = after
  rw [← Option.bind_assoc, point_digits, takeNumber]
  cases (fractionDigits after).isEmpty with
  | true =>
      simp only [if_true, Option.bind_none]
      cases takeExponent? after with
      | some found => rfl
      | none =>
          rw [Option.bind_none, endsWord]
          cases after.head?.any isWordChar <;> rfl
  | false =>
      simp only [Bool.false_eq_true, if_false, Option.bind_some]
      cases takeExponent? (after.drop ((fractionDigits after).length + 1)) <;> rfl

/-- A number starts with a digit. -/
theorem number_eq_none (h : c.isDigit = false) (rest : List Char) :
    number (c :: rest) = none := by
  simp only [number, firstOf, List.findSome?_cons, List.findSome?_nil, pointNumber,
    exponentNumber, integer, digits_eq_none h, Option.bind_eq_bind, Option.bind_none]

/-- The constants that are words. -/
def constant : Terminal WrittenLiteral :=
  firstOf [word ['t', 'r', 'u', 'e'] (.known (.bool true)),
    word ['f', 'a', 'l', 's', 'e'] (.known (.bool false)),
    word ['n', 'u', 'l', 'l'] (.known .null)]

/-- A constant in words is a word that is spelled like it. -/
theorem constant_eq (c : Char) (rest : List Char) :
    constant (c :: rest) =
      if isWordStart c then
        (literal? (ofWord (String.ofList (c :: rest.takeWhile isWordChar)))).map
          (·, rest.dropWhile isWordChar)
      else none :=
  firstOf_words_of_want [(['t', 'r', 'u', 'e'], WrittenLiteral.known (.bool true)),
    (['f', 'a', 'l', 's', 'e'], .known (.bool false)),
    (['n', 'u', 'l', 'l'], .known .null)] rfl (fun _ => rfl)
    c rest

/-- Of two lists of terminals the first one is tried first. -/
theorem firstOf_append (ps qs : List (Terminal α)) (text : List Char) :
    firstOf (ps ++ qs) text = (firstOf ps text).or (firstOf qs text) := by
  rw [firstOf, List.findSome?_append]
  rfl

/-- A quoted text starts with its mark. -/
theorem quoted_eq_none {mark : Char} (h : c ≠ mark) (rest : List Char) :
    quoted mark (c :: rest) = none := by
  rw [quoted, takeChars?_eq_none (Ne.symm h)]
  rfl

/-- What starts with a quotation mark is a quoted text, or no token at all. -/
theorem quoted_of_mark (h : c = '"' ∨ c = '\'') (rest : List Char) :
    quoted c (c :: rest) = ofToken literal? (c :: rest) := by
  have htake : take c rest = ((takeText? c rest).map fun found =>
      (Token.literal (.known (.text (String.ofList found.1))), found.2)).getD
        (.illegal, []) := by
    rcases h with rfl | rfl
    all_goals
      rw [take, if_neg (by decide), if_neg (by decide), if_pos (by decide)]
      cases takeText? _ rest <;> rfl
  rw [ofToken, htake, quoted]
  simp only [takeChars?, if_true, Option.bind_eq_bind, Option.bind_some]
  cases takeText? c rest <;> rfl

/-- A literal is a number, a quoted text or a constant in words. -/
theorem literal_cons (c : Char) (rest : List Char) :
    literal (c :: rest) = (number (c :: rest)).or ((quoted '"' (c :: rest)).or
      ((quoted '\'' (c :: rest)).or (constant (c :: rest)))) := by
  rw [← firstOf_singleton (quoted '"'), ← firstOf_singleton (quoted '\''), number, constant,
    ← firstOf_append, ← firstOf_append, ← firstOf_append]
  rfl

/-- **The constants**: the first character tells which alternative can match. -/
theorem literal_eq : literal = ofToken literal? := by
  funext text
  cases text with
  | nil => rfl
  | cons c rest =>
      rw [literal_cons]
      by_cases hquote : c = '"' ∨ c = '\''
      · have hnone : number (c :: rest) = none ∧ constant (c :: rest) = none := by
          rw [constant_eq]
          rcases hquote with rfl | rfl <;> exact ⟨number_eq_none rfl rest, rfl⟩
        rw [hnone.1, hnone.2, Option.none_or, Option.or_none, ← quoted_of_mark hquote]
        rcases hquote with rfl | rfl
        · rw [quoted_eq_none (by decide : '"' ≠ '\''), Option.or_none]
        · rw [quoted_eq_none (by decide : '\'' ≠ '"'), Option.none_or]
      rw [not_or] at hquote
      rw [quoted_eq_none hquote.1, quoted_eq_none hquote.2, Option.none_or, Option.none_or,
        constant_eq]
      cases hdigit : c.isDigit with
      | true =>
          have hword : isWordStart c = false := by
            by_contra hword
            rw [Token.isDigit_of_isWordStart (by simpa using hword)] at hdigit
            cases hdigit
          rw [number_of_isDigit hdigit, hword, if_neg (by decide), Option.or_none]
      | false =>
          rw [number_eq_none hdigit, Option.none_or, ofToken]
          cases hword : isWordStart c with
          | true => rw [if_pos rfl, take_of_isWordStart hword]
          | false =>
              have hnone : literal? (take c rest).1 = none :=
                take_fst (P := fun t => literal? t = none) rfl
                  (fun h => by rw [hdigit] at h; simp [hquote] at h)
                    (fun h => by rw [hword] at h; cases h)
                  (fun _ _ => rfl) (fun _ => literal?_of_isMark) rest
              rw [hnone]
              rfl

/-- The column of a token: a name of either kind. -/
def column? (t : Token) : Option String := (quotedName? t).or (name? t)

/-- A column is a name, with quotes or without. -/
theorem column_eq : firstOf [quotedIdentifier, identifier] = ofToken column? := by
  rw [quotedIdentifier_eq, identifier_eq]
  funext text
  cases text with
  | nil => rfl
  | cons c rest =>
      rw [firstOf, List.findSome?_cons, List.findSome?_cons, List.findSome?_nil]
      simp only [ofToken, column?]
      cases quotedName? (take c rest).1 <;> cases name? (take c rest).1 <;> rfl

end FormulaTable.Matching.Terminal
