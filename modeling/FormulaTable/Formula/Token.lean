import FormulaTable.Decimal.Reader
import FormulaTable.Formula.Basic

/-!
# Tokens of a formula

A formula's text is cut into tokens, with blanks, tabs and line ends between them skipped.
Words are read without regard to case when they are the keywords `and`, `or`, `not`, `true`,
`false` and `null`. The first character that starts no token ends the list with the token
`illegal`.

* `length_take_le` — reading a token leaves a shorter text.
-/

namespace FormulaTable

/-- A constant as it is written: an integer may be too large for its value to exist. -/
inductive WrittenLiteral where
  | integer (digits : List Char)
  | known (l : Literal)
deriving DecidableEq

/-- The tokens of formulas. -/
inductive Token where
  | literal (l : WrittenLiteral)
  /-- A name that stands for a column or, before a bracket, for a function. -/
  | word (name : String)
  /-- A name between back-quotes, which stands for a column. -/
  | quotedName (name : String)
  /-- An infix operator; `sub` is the minus sign, as infix and as prefix. -/
  | operator (op : BinaryOp)
  | not
  | question
  | colon
  | comma
  | openBracket
  | closeBracket
  /-- No token starts here. -/
  | illegal
deriving DecidableEq

/-- A token and what is left of the text from its first character on. -/
structure Lexeme where
  token : Token
  text : List Char

namespace Token

/-- The characters skipped between tokens. -/
def isSpace (c : Char) : Bool := c = ' ' || c = '\t' || c = '\r' || c = '\n'

/-- The characters that a word may continue with. -/
def isWordChar (c : Char) : Bool := c.isAlphanum || c = '_'

/-- The characters that a word may start with. -/
def isWordStart (c : Char) : Bool := c.isAlpha || c = '_'

/-- The symbols and the tokens that they write. A symbol stands before the symbols that it
begins with. -/
def symbols : List (List Char × Token) :=
  [(['?', '?'], operator .coalesce), (['|', '|'], operator .or),
   (['&', '&'], operator .and),
   (['=', '='], operator .eq), (['!', '='], operator .ne), (['<', '>'], operator .ne),
   (['<', '='], operator .le), (['>', '='], operator .ge), (['<'], operator .lt),
   (['>'], operator .gt), (['='], operator .eq), (['+'], operator .add),
   (['-'], operator .sub),
   (['*'], operator .mul), (['/'], operator .div), (['%'], operator .mod), (['!'], not),
   (['?'], question), ([':'], colon), ([','], comma), (['('], openBracket),
   ([')'], closeBracket)]

/-- The token of a word: a keyword in any case, or a name. -/
def ofWord (name : String) : Token :=
  match Text.foldName name with
  | "and" => operator .and
  | "or" => operator .or
  | "not" => not
  | "true" => literal (.known (.bool true))
  | "false" => literal (.known (.bool false))
  | "null" => literal (.known .null)
  | _ => word name

/-- Reads `e` and an integer, the exponent of a number. -/
def takeExponent? : List Char → Option (Int × List Char)
  | [] => none
  | c :: rest =>
    if c = 'e' || c = 'E' then
      let (negative, rest) := Decimal.takeSign rest
      let digits := rest.takeWhile Char.isDigit
      if digits.isEmpty then none
      else
        let n : Int := Decimal.digitsValue digits
        some (if negative then -n else n, rest.dropWhile Char.isDigit)
    else none

/-- The token of a number with a fraction or an exponent. -/
def ofFloat (whole fraction : List Char) (exponent : Int) : Token :=
  literal (.known (.float
    (Decimal.nearestDouble (Decimal.digitsValue (whole ++ fraction))
        (exponent - (fraction.length : Int)))))

/-- The digits after a point at the front. -/
def fractionDigits : List Char → List Char
  | '.' :: tail => tail.takeWhile Char.isDigit
  | _ => []

/-- Reads a number whose digits before the point are given. A whole number must not run into
a word. -/
def takeNumber (whole : List Char) (rest : List Char) : Token × List Char :=
  let fraction := fractionDigits rest
  if fraction.isEmpty then
    match takeExponent? rest with
    | some (exponent, tail) => (ofFloat whole [] exponent, tail)
    | none =>
      if rest.head?.any isWordChar then (illegal, []) else (literal (.integer whole), rest)
  else
    let afterFraction := rest.drop (fraction.length + 1)
    match takeExponent? afterFraction with
    | some (exponent, tail) => (ofFloat whole fraction exponent, tail)
    | none => (ofFloat whole fraction 0, afterFraction)

/-- The character that a backslash and the given character stand for. -/
def unescape (c : Char) : Char :=
  if c = 'n' then '\n' else if c = 't' then '\t' else if c = 'r' then '\r' else c

/-- Reads a text up to its closing mark. -/
def takeText? (mark : Char) : List Char → Option (List Char × List Char)
  | [] => none
  | '\\' :: c :: rest => (takeText? mark rest).map fun (body, rest) =>
    (unescape c :: body, rest)
  | c :: rest =>
    if c = mark then some ([], rest)
    else if c = '\\' then none
    else (takeText? mark rest).map fun (body, rest) => (c :: body, rest)

/-- Reads a name up to the closing back-quote. -/
def takeQuotedName? (cs : List Char) : Option (List Char × List Char) :=
  let name := cs.takeWhile (· != '\x60')
  match cs.dropWhile (· != '\x60') with
  | _ :: rest => if name.isEmpty then none else some (name, rest)
  | [] => none

/-- Reads the given characters. -/
def takeChars? : List Char → List Char → Option (List Char)
  | [], cs => some cs
  | s :: ss, c :: cs => if s = c then takeChars? ss cs else none
  | _ :: _, [] => none

/-- Reads a symbol. -/
def takeSymbol? (cs : List Char) : Option (Token × List Char) :=
  symbols.findSome? fun (symbol, token) => (takeChars? symbol cs).map fun rest =>
    (token, rest)

/-- Reads the token that starts with `c`, where `rest` follows `c`. After an illegal
character nothing more is read. -/
def take (c : Char) (rest : List Char) : Token × List Char :=
  if c.isDigit then
    takeNumber (c :: rest.takeWhile Char.isDigit) (rest.dropWhile Char.isDigit)
  else if isWordStart c then
    (ofWord (String.ofList (c :: rest.takeWhile isWordChar)), rest.dropWhile isWordChar)
  else if c = '"' || c = '\'' then
    match takeText? c rest with
    | some (body, tail) => (literal (.known (.text (String.ofList body))), tail)
    | none => (illegal, [])
  else if c = '\x60' then
    match takeQuotedName? rest with
    | some (name, tail) => (quotedName (String.ofList name), tail)
    | none => (illegal, [])
  else
    match takeSymbol? (c :: rest) with
    | some (token, tail) => (token, tail)
    | none => (illegal, [])

/-! ### Reading a token leaves a shorter text -/

/-- Dropping a prefix makes no list longer. -/
theorem length_dropWhile_le {α : Type} (p : α → Bool) (l : List α) :
    (l.dropWhile p).length ≤ l.length :=
  (List.dropWhile_suffix p).length_le

/-- An exponent is taken off the front of the text. -/
theorem length_takeExponent?_le {cs tail : List Char} {n : Int}
    (h : takeExponent? cs = some (n, tail)) : tail.length ≤ cs.length := by
  cases cs with
  | nil => simp [takeExponent?] at h
  | cons c rest =>
    have signed : (Decimal.takeSign rest).2.length ≤ rest.length := by
      unfold Decimal.takeSign
      split <;> simp
    have digits := length_dropWhile_le Char.isDigit (Decimal.takeSign rest).2
    simp only [takeExponent?] at h
    split at h
    · split at h
      · simp at h
      · simp only [Option.some.injEq, Prod.mk.injEq] at h
        rw [← h.2, List.length_cons]
        omega
    · simp at h

/-- A number is taken off the front of the text. -/
theorem length_takeNumber_le (whole rest : List Char) :
    (takeNumber whole rest).2.length ≤ rest.length := by
  unfold takeNumber
  simp only
  split
  · split
    · next h => exact length_takeExponent?_le h
    · split <;> simp
  · split
    · next h =>
      have := length_takeExponent?_le h
      simp only [List.length_drop] at this ⊢
      omega
    · simp only [List.length_drop]
      omega

/-- A quoted text is taken off the front, with its closing mark. -/
theorem length_takeText?_le {mark : Char} {cs body tail : List Char}
    (h : takeText? mark cs = some (body, tail)) : tail.length ≤ cs.length := by
  fun_induction takeText? mark cs generalizing body with
  | case1 => simp at h
  | case2 c rest ih =>
    simp only [Option.map_eq_some_iff, Prod.mk.injEq, Prod.exists] at h
    obtain ⟨b, t, hb, -, rfl⟩ := h
    have := ih hb
    simp only [List.length_cons]
    omega
  | case3 => simp_all
  | case4 => simp at h
  | case5 c rest _ _ _ ih =>
    simp only [Option.map_eq_some_iff, Prod.mk.injEq, Prod.exists] at h
    obtain ⟨b, t, hb, -, rfl⟩ := h
    have := ih hb
    simp only [List.length_cons]
    omega

/-- A quoted name is taken off the front, with its closing mark. -/
theorem length_takeQuotedName?_le {cs name tail : List Char}
    (h : takeQuotedName? cs = some (name, tail)) : tail.length ≤ cs.length := by
  have drop := length_dropWhile_le (· != '\x60') cs
  unfold takeQuotedName? at h
  simp only at h
  split at h
  · next c rest hrest =>
    rw [hrest] at drop
    split at h
    · simp at h
    · simp only [Option.some.injEq, Prod.mk.injEq] at h
      rw [← h.2]
      simp only [List.length_cons] at drop
      omega
  · simp at h

/-- What is taken is what stands in front. -/
theorem append_of_takeChars? {symbol cs tail : List Char}
    (h : takeChars? symbol cs = some tail) :
    symbol ++ tail = cs := by
  fun_induction takeChars? symbol cs with
  | case1 => simpa using h.symm
  | case2 s ss cs ih => rw [List.cons_append, ih h]
  | case3 => simp at h
  | case4 => simp at h

/-- A symbol has at least one character. -/
theorem length_takeSymbol?_lt {cs tail : List Char} {t : Token}
    (h : takeSymbol? cs = some (t, tail)) : tail.length < cs.length := by
  obtain ⟨⟨symbol, token⟩, hmem, hfound⟩ := List.exists_of_findSome?_eq_some h
  simp only [Option.map_eq_some_iff, Prod.mk.injEq] at hfound
  obtain ⟨rest, hrest, rfl, rfl⟩ := hfound
  have hsymbol : ∀ s ∈ symbols, 0 < s.1.length := by decide
  have := hsymbol _ hmem
  rw [← append_of_takeChars? hrest, List.length_append]
  simp only at this
  omega

/-- Reading a token leaves at most what follows its first character. -/
theorem length_take_le (c : Char) (rest : List Char) :
    (take c rest).2.length ≤ rest.length := by
  unfold take
  split
  · exact Nat.le_trans (length_takeNumber_le _ _) (length_dropWhile_le _ _)
  split
  · exact length_dropWhile_le _ _
  split
  · split
    · next h => exact length_takeText?_le h
    · simp
  split
  · split
    · next h => exact length_takeQuotedName?_le h
    · simp
  · split
    · next h =>
      have := length_takeSymbol?_lt h
      simp only [List.length_cons] at this
      exact Nat.lt_succ_iff.1 this
    · simp

/-- The tokens of a text, each with the place where it starts. -/
def lexemes (cs : List Char) : List Lexeme :=
  match h : cs.dropWhile isSpace with
  | [] => []
  | c :: rest =>
    have shorter : (take c rest).2.length < cs.length := by
      have taken := length_take_le c rest
      have skipped := length_dropWhile_le isSpace cs
      rw [h, List.length_cons] at skipped
      omega
    ⟨(take c rest).1, c :: rest⟩ :: lexemes (take c rest).2
termination_by cs.length

/-- The tokens of a text. -/
def ofText (cs : List Char) : List Token := (lexemes cs).map (·.token)

end Token

end FormulaTable
