import FormulaTable.Document.Number
import FormulaTable.Text.Blank

/-!
# Tokens of a document

The text of a document is cut into brackets, commas, colons, texts and other scalars, with
blanks between them skipped. The first character that starts no token ends the list with the
token `illegal`.
-/

namespace FormulaTable.Document

/-- The tokens of documents. -/
inductive Token where
  | openBrace
  | closeBrace
  | openBracket
  | closeBracket
  | comma
  | colon
  /-- A text, or `none` when it has half of a surrogate pair. -/
  | text (s : Option String)
  /-- A number or one of the words `true`, `false` and `null`. -/
  | scalar (d : Document)
  /-- No token starts here. -/
  | illegal

namespace Token

/-- The characters between tokens. -/
def isSpace (c : Char) : Bool := c = ' ' || c = '\t' || c = '\r' || c = '\n'

/-- The value of a hexadecimal digit. -/
def hexDigit? (c : Char) : Option Nat :=
  if c.isDigit then some (c.toNat - '0'.toNat)
  else if 'a' ≤ c ∧ c ≤ 'f' then some (c.toNat - 'a'.toNat + 10)
  else if 'A' ≤ c ∧ c ≤ 'F' then some (c.toNat - 'A'.toNat + 10)
  else none

/-- The code unit that four hexadecimal digits write. -/
def unit? (a b c d : Char) : Option Nat := do
  return ((← hexDigit? a) * 16 + (← hexDigit? b)) * 256 + (← hexDigit? c) * 16 +
    (← hexDigit? d)

/-- The character that a letter after a backslash stands for. -/
def escapes : List (Char × Char) :=
  [('"', '"'), ('\\', '\\'), ('/', '/'), ('b', '\x08'), ('f', '\x0c'), ('n', '\n'),
    ('r', '\r'), ('t', '\t')]

/-- Reads the rest of a text, after its opening quote: its code units, and what follows the
closing quote. -/
def takeUnits? : List Char → Option (List Nat × List Char)
  | [] => none
  | '"' :: rest => some ([], rest)
  | '\\' :: 'u' :: a :: b :: c :: d :: rest => do
    let unit ← unit? a b c d
    let (units, rest) ← takeUnits? rest
    return (unit :: units, rest)
  | '\\' :: c :: rest => do
    let escaped ← escapes.lookup c
    let (units, rest) ← takeUnits? rest
    return (escaped.toNat :: units, rest)
  | c :: rest =>
    if c.toNat < 0x20 ∨ c = '\\' then none
    else do
      let (units, rest) ← takeUnits? rest
      return (c.toNat :: units, rest)

/-- Is this the first half of a surrogate pair? -/
def isHighHalf (unit : Nat) : Bool := 0xD800 ≤ unit && unit ≤ 0xDBFF

/-- Is this the second half of a surrogate pair? -/
def isLowHalf (unit : Nat) : Bool := 0xDC00 ≤ unit && unit ≤ 0xDFFF

/-- The characters of a row of code units, where the halves of surrogate pairs are
joined. -/
def joinPairs : List Nat → Option (List Char)
  | [] => some []
  | [unit] => if isHighHalf unit || isLowHalf unit then none else some [Char.ofNat unit]
  | unit :: next :: rest =>
    if isHighHalf unit then
      if isLowHalf next then
        (joinPairs rest).map
          (Char.ofNat (0x10000 + (unit - 0xD800) * 0x400 + (next - 0xDC00)) :: ·)
      else none
    else if isLowHalf unit then none
    else (joinPairs (next :: rest)).map (Char.ofNat unit :: ·)

/-- Splits the digits off the front of a list. -/
def spanDigits (cs : List Char) : List Char × List Char :=
  (cs.takeWhile Char.isDigit, cs.dropWhile Char.isDigit)

/-- Reads the fraction of a number, if a point follows. -/
def takeFraction? : List Char → Option (Option (List Char) × List Char)
  | '.' :: rest =>
    let (digits, rest) := spanDigits rest
    if digits.isEmpty then none else some (some digits, rest)
  | rest => some (none, rest)

/-- Reads the exponent of a number, if `e` follows. -/
def takeExponent? : List Char → Option (Option (Bool × List Char) × List Char)
  | [] => some (none, [])
  | c :: rest =>
    if c = 'e' ∨ c = 'E' then
      let (negative, rest) := Decimal.takeSign rest
      let (digits, rest) := spanDigits rest
      if digits.isEmpty then none else some (some (negative, digits), rest)
    else some (none, c :: rest)

/-- Reads a number. Its digits do not start with a zero, unless that is the only one. -/
def takeNumber? (cs : List Char) : Option (WrittenNumber × List Char) := do
  let (negative, rest) :=
    match cs with
    | '-' :: rest => (true, rest)
    | rest => (false, rest)
  let (whole, rest) := spanDigits rest
  if whole.isEmpty ∨ (whole.head? = some '0' ∧ whole.length ≠ 1) then none
  else do
    let (fraction, rest) ← takeFraction? rest
    let (exponent, rest) ← takeExponent? rest
    return (⟨negative, whole, fraction, exponent⟩, rest)

/-- The token of a character that is one by itself. -/
def ofMark? : Char → Option Token
  | '\x7b' => some openBrace
  | '\x7d' => some closeBrace
  | '[' => some openBracket
  | ']' => some closeBracket
  | ',' => some comma
  | ':' => some colon
  | _ => none

/-- The words and what they stand for. -/
def words : List (List Char × Document) :=
  [(['t', 'r', 'u', 'e'], .bool true), (['f', 'a', 'l', 's', 'e'], .bool false),
   (['n', 'u', 'l', 'l'], .null)]

/-- Reads the token at the front of a text that does not start with a blank. -/
def take? (cs : List Char) : Option (Token × List Char) :=
  match cs with
  | [] => none
  | c :: rest =>
    match ofMark? c with
    | some mark => some (mark, rest)
    | none =>
      if c = '"' then
        (takeUnits? rest).map fun (units, rest) =>
          (text ((joinPairs units).map String.ofList), rest)
      else
        match words.find? fun w => w.1.isPrefixOf (c :: rest) with
        | some (word, d) => some (scalar d, (c :: rest).drop word.length)
        | none => (takeNumber? (c :: rest)).map fun (w, rest) => (scalar w.toDocument, rest)

/-- Reads the next token after the blanks; where none starts, all that is left is
illegal. -/
def takeNext? (cs : List Char) : Option (Token × List Char) :=
  match cs.dropWhile isSpace with
  | [] => none
  | c :: rest => some ((take? (c :: rest)).getD (illegal, []))

/-- The tokens of a text. Every token shortens the text, so that the last branch is never
taken. -/
def ofChars (cs : List Char) : List Token :=
  match takeNext? cs with
  | none => []
  | some (t, rest) => if rest.length < cs.length then t :: ofChars rest else [illegal]
termination_by cs.length

end Token

end FormulaTable.Document
