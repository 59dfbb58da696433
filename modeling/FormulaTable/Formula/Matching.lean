import FormulaTable.Formula.Phrase

/-!
# Matching a formula by rules

The rules of the grammar as they are written down for a matcher that goes back: of several
alternatives the first that matches counts, a repetition takes as much as it can, and a rule
that does not match leaves the text to the next alternative. A terminal reads characters;
blanks are skipped before it, and not inside it.

Only `expression` contains itself, inside brackets, calls and ternaries. The matcher counts
how many matches of it are active at the same time, in attempts that come to nothing too,
and gives up when there are more than a budget.
-/

namespace FormulaTable.Matching

open Token
  (isSpace isWordChar isWordStart takeChars? takeText? takeQuotedName? takeExponent?)

/-! ### Terminals -/

/-- A terminal reads characters at the front of a text, or does not match. -/
abbrev Terminal (α : Type) := List Char → Option (α × List Char)

namespace Terminal

variable {α : Type}

/-- The first alternative that matches. -/
def firstOf (ps : List (Terminal α)) : Terminal α := fun cs => ps.findSome? fun p => p cs

/-- The given characters, which stand for `a`. -/
def symbol (cs : List Char) (a : α) : Terminal α :=
  fun text => (takeChars? cs text).map fun rest => (a, rest)

/-- The given characters, unless they begin a longer symbol. -/
def symbolUnless (longer cs : List Char) (a : α) : Terminal α := fun text =>
  if (takeChars? longer text).isSome then none else symbol cs a text

/-- Reads the given lower-case letters in any case. -/
def takeFolded? : List Char → List Char → Option (List Char)
  | [], text => some text
  | s :: ss, c :: text => if c.toLower = s then takeFolded? ss text else none
  | _ :: _, [] => none

/-- Does the text not go on with a character of a word? -/
def endsWord (text : List Char) : Bool := !text.head?.any isWordChar

/-- The given word in any case, which stands for `a`. -/
def word (cs : List Char) (a : α) : Terminal α := fun text =>
  match takeFolded? cs text with
  | some rest => if endsWord rest then some (a, rest) else none
  | none => none

/-- One digit or more. -/
def digits : Terminal (List Char) := fun text =>
  let found := text.takeWhile Char.isDigit
  if found.isEmpty then none else some (found, text.dropWhile Char.isDigit)

/-- The number with the given digits and exponent. -/
def float (whole fraction : List Char) (exponent : Int) : WrittenLiteral :=
  .known (.float
    (Decimal.nearestDouble (Decimal.digitsValue (whole ++ fraction))
        (exponent - (fraction.length : Int))))

/-- Digits, a point and digits, and perhaps an exponent. -/
def pointNumber : Terminal WrittenLiteral := fun text => do
  let (whole, rest) ← digits text
  let rest ← takeChars? ['.'] rest
  let (fraction, rest) ← digits rest
  match takeExponent? rest with
  | some (exponent, tail) => some (float whole fraction exponent, tail)
  | none => some (float whole fraction 0, rest)

/-- Digits and an exponent. -/
def exponentNumber : Terminal WrittenLiteral := fun text => do
  let (whole, rest) ← digits text
  let (exponent, tail) ← takeExponent? rest
  return (float whole [] exponent, tail)

/-- Digits that do not run into a word. -/
def integer : Terminal WrittenLiteral := fun text => do
  let (whole, rest) ← digits text
  if endsWord rest then some (.integer whole, rest) else none

/-- A text between two marks. -/
def quoted (mark : Char) : Terminal WrittenLiteral := fun text => do
  let rest ← takeChars? [mark] text
  let (body, tail) ← takeText? mark rest
  return (.known (.text (String.ofList body)), tail)

/-- A constant. -/
def literal : Terminal WrittenLiteral :=
  firstOf [pointNumber, exponentNumber, integer, quoted '"', quoted '\'',
    word ['t', 'r', 'u', 'e'] (.known (.bool true)),
    word ['f', 'a', 'l', 's', 'e'] (.known (.bool false)),
    word ['n', 'u', 'l', 'l'] (.known .null)]

/-- A word with a meaning of its own. -/
def keyword : Terminal Unit :=
  firstOf [word ['a', 'n', 'd'] (), word ['o', 'r'] (), word ['n', 'o', 't'] (),
    word ['t', 'r', 'u', 'e'] (), word ['f', 'a', 'l', 's', 'e'] (),
    word ['n', 'u', 'l', 'l'] ()]

/-- A name: a word that is no keyword. -/
def identifier : Terminal String := fun text =>
  if (keyword text).isSome then none
  else
    match text with
    | c :: rest =>
      if isWordStart c then
        some (String.ofList (c :: rest.takeWhile isWordChar), rest.dropWhile isWordChar)
      else none
    | [] => none

/-- A name between back-quotes. -/
def quotedIdentifier : Terminal String := fun text => do
  let rest ← takeChars? ['\x60'] text
  let (name, tail) ← takeQuotedName? rest
  return (String.ofList name, tail)

def coalesceOp : Terminal BinaryOp := symbol ['?', '?'] .coalesce

def orOp : Terminal BinaryOp := firstOf [symbol ['|', '|'] .or, word ['o', 'r'] .or]

def andOp : Terminal BinaryOp := firstOf [symbol ['&', '&'] .and, word ['a', 'n', 'd'] .and]

def notOp : Terminal Unit :=
  firstOf [symbolUnless ['!', '='] ['!'] (), word ['n', 'o', 't'] ()]

def comparisonOp : Terminal BinaryOp :=
  firstOf [symbol ['=', '='] .eq, symbol ['!', '='] .ne, symbol ['<', '>'] .ne,
    symbol ['<', '='] .le,
    symbol ['>', '='] .ge, symbol ['<'] .lt, symbol ['>'] .gt, symbol ['='] .eq]

def additiveOp : Terminal BinaryOp := firstOf [symbol ['+'] .add, symbol ['-'] .sub]

def multiplicativeOp : Terminal BinaryOp :=
  firstOf [symbol ['*'] .mul, symbol ['/'] .div, symbol ['%'] .mod]

def negOp : Terminal Unit := symbol ['-'] ()

/-- A question mark that is not one of two. -/
def question : Terminal Unit := symbolUnless ['?', '?'] ['?'] ()

end Terminal

/-! ### Rules -/

/-- Why a rule does not match. -/
inductive Miss where
  /-- The text is not as the rule says. -/
  | mismatch
  /-- More matches of `expression` are active than the budget allows. -/
  | overBudget
deriving DecidableEq

/-- A rule takes what it matches off the front of a text. -/
abbrev Rule (α : Type) := List Char → Except Miss (α × List Char)

variable {α : Type}

/-- Skips blanks and matches a terminal. -/
def terminal (p : Terminal α) : Rule α := fun cs =>
  match p (cs.dropWhile isSpace) with
  | some found => .ok found
  | none => .error .mismatch

/-- The second rule is tried where the first one does not match. -/
def orElse (p q : Rule α) : Rule α := fun cs =>
  match p cs with
  | .error .mismatch => q cs
  | found => found

/-- A match, or nothing. -/
def optional (p : Rule α) : Rule (Option α) :=
  orElse (fun cs => (p cs).map fun (a, rest) => (some a, rest)) fun cs => .ok (none, cs)

/-- Matches one after the other, but no more than there are members of the first list. -/
def manyWithin (p : Rule α) : List Char → Rule (List α)
  | [], cs => .ok ([], cs)
  | _ :: budget, cs =>
    match p cs with
    | .ok (a, rest) => do
      let (more, rest) ← manyWithin p budget rest
      return (a :: more, rest)
    | .error .mismatch => .ok ([], cs)
    | .error .overBudget => .error .overBudget

/-- As many matches as there are. Each takes a character, so that the text itself is budget
enough. -/
def many (p : Rule α) : Rule (List α) := fun cs => manyWithin p cs cs

/-- An operator and an operand. -/
def link (op : Terminal BinaryOp) (operand : Rule Phrase) : Rule (BinaryOp × Phrase) :=
  fun cs => do
  let (o, rest) ← terminal op cs
  let (right, rest) ← operand rest
  return ((o, right), rest)

/-- Operands joined by the operators of one level. -/
def chain (op : Terminal BinaryOp) (operand : Rule Phrase) : Rule Phrase := fun cs => do
  let (first, rest) ← operand cs
  let (links, rest) ← many (link op operand) rest
  return (.chain first links, rest)

/-- An operand after any number of prefix operators. -/
def prefixed (op : UnaryOp) (mark : Terminal Unit) (operand : Rule Phrase) : Rule Phrase :=
  fun cs => do
  let (marks, rest) ← many (terminal mark) cs
  let (inner, rest) ← operand rest
  return (.prefixed op marks.length inner, rest)

/-- One operand, or two with a comparison between them. -/
def comparison (operand : Rule Phrase) : Rule Phrase := fun cs => do
  let (left, rest) ← operand cs
  match ← optional (link Terminal.comparisonOp operand) rest with
  | (some (op, right), rest) => return (.comparison op left right, rest)
  | (none, rest) => return (left, rest)

/-- Formulas with commas between them. -/
def arguments (expression : Rule Phrase) : Rule (List Phrase) := fun cs => do
  let (first, rest) ← expression cs
  let (others, rest) ← many (fun cs => do
    let (_, rest) ← terminal (.symbol [','] ()) cs
    expression rest) rest
  return (first :: others, rest)

/-- A name and arguments in brackets. -/
def call (expression : Rule Phrase) : Rule Phrase := fun cs => do
  let (name, rest) ← terminal Terminal.identifier cs
  let (_, rest) ← terminal (.symbol ['('] ()) rest
  let (args, rest) ← optional (arguments expression) rest
  let (_, rest) ← terminal (.symbol [')'] ()) rest
  return (.call name (args.getD []), rest)

/-- A formula in brackets. -/
def bracketed (expression : Rule Phrase) : Rule Phrase := fun cs => do
  let (_, rest) ← terminal (.symbol ['('] ()) cs
  let (inner, rest) ← expression rest
  let (_, rest) ← terminal (.symbol [')'] ()) rest
  return (inner, rest)

/-- A phrase for what a terminal reads. -/
def leaf (p : Terminal α) (phrase : α → Phrase) : Rule Phrase := fun cs =>
  (terminal p cs).map fun (a, rest) => (phrase a, rest)

/-- A constant, a call, a column or a formula in brackets. -/
def primary (expression : Rule Phrase) : Rule Phrase :=
  orElse (leaf Terminal.literal .literal)
    (orElse (call expression)
      (orElse (leaf (.firstOf [Terminal.quotedIdentifier, Terminal.identifier]) .column)
        (bracketed expression)))

def signed (expression : Rule Phrase) : Rule Phrase :=
  prefixed .neg Terminal.negOp (primary expression)

def sum (expression : Rule Phrase) : Rule Phrase :=
  chain Terminal.additiveOp (chain Terminal.multiplicativeOp (signed expression))

def negation (expression : Rule Phrase) : Rule Phrase :=
  prefixed .not Terminal.notOp (comparison (sum expression))

def operand (expression : Rule Phrase) : Rule Phrase :=
  chain Terminal.coalesceOp
    (chain Terminal.orOp (chain Terminal.andOp (negation expression)))

/-- The branches of a ternary. -/
def branches (expression : Rule Phrase) : Rule (Phrase × Phrase) := fun cs => do
  let (_, rest) ← terminal Terminal.question cs
  let (yes, rest) ← expression rest
  let (_, rest) ← terminal (.symbol [':'] ()) rest
  let (no, rest) ← expression rest
  return ((yes, no), rest)

/-- An operand, and perhaps the branches of a ternary. -/
def ternary (expression : Rule Phrase) : Rule Phrase := fun cs => do
  let (condition, rest) ← operand expression cs
  match ← optional (branches expression) rest with
  | (some (yes, no), rest) => return (.conditional condition yes no, rest)
  | (none, rest) => return (condition, rest)

/-- A formula, where at most `budget` matches of this rule are active at the same time,
itself included. -/
def expression : Nat → Rule Phrase
  | 0 => fun _ => .error .overBudget
  | budget + 1 => ternary (expression budget)

/-- The whole text as a formula. -/
def matchText (budget : Nat) (text : List Char) : Except Miss Phrase := do
  let (p, rest) ← expression budget text
  if (rest.dropWhile isSpace).isEmpty then return p else .error .mismatch

end FormulaTable.Matching
