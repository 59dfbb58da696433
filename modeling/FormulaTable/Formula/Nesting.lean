/-!
# Nesting of a formula's text

Formulas come from outside, so their nesting is bounded before they are read. The scan works
on any text, well formed or not. Every open bracket and every `?` that waits for its `:` is
a level; a bracket that closes ends the levels opened inside it, and a comma ends those
opened since the last comma of its bracket. Quoted sections are skipped, and `??` is no
ternary.
-/

namespace FormulaTable.Nesting

/-- Is the scan inside a quoted section? -/
inductive Mode where
  | plain
  /-- Inside a section that ends with `mark`. -/
  | quoted (mark : Char)
  /-- After a backslash in such a section. -/
  | escaped (mark : Char)
deriving DecidableEq

/-- The levels that are open: how many in all, how many ternaries in the innermost bracket,
and how many in each bracket around it. -/
structure Levels where
  depth : Nat
  inner : Nat
  outer : List Nat
deriving DecidableEq

namespace Levels

/-- Nothing is open. -/
def start : Levels := ⟨0, 0, []⟩

/-- A bracket opens. -/
def openBracket (l : Levels) : Levels := ⟨l.depth + 1, 0, l.inner :: l.outer⟩

/-- A ternary opens. -/
def openTernary (l : Levels) : Levels := ⟨l.depth + 1, l.inner + 1, l.outer⟩

/-- A bracket closes; one that was never opened is ignored. -/
def closeBracket (l : Levels) : Levels :=
  match l.outer with
  | inner :: outer => ⟨l.depth - (l.inner + 1), inner, outer⟩
  | [] => l

/-- A comma ends the ternaries of the innermost bracket. -/
def comma (l : Levels) : Levels := ⟨l.depth - l.inner, 0, l.outer⟩

end Levels

/-- Does the character start a quoted section? The third one is the back-quote. -/
def isQuote (c : Char) : Bool := c = '\'' || c = '"' || c = '\x60'

/-- The mode after a character of a quoted section. There is no escape between
back-quotes. -/
def insideQuotes (mark c : Char) : Mode :=
  if c = '\\' && mark != '\x60' then .escaped mark
  else if c = mark then .plain
  else .quoted mark

/-- Do the levels of the text stay within the limit? -/
def scan (limit : Nat) : Mode → Levels → List Char → Bool
  | _, _, [] => true
  | .escaped mark, l, _ :: rest => scan limit (.quoted mark) l rest
  | .quoted mark, l, c :: rest => scan limit (insideQuotes mark c) l rest
  | .plain, l, '?' :: '?' :: rest => scan limit .plain l rest
  | .plain, l, c :: rest =>
    if isQuote c then scan limit (.quoted c) l rest
    else if c = '(' then l.openBracket.depth ≤ limit && scan limit .plain l.openBracket rest
    else if c = '?' then l.openTernary.depth ≤ limit && scan limit .plain l.openTernary rest
    else if c = ')' then scan limit .plain l.closeBracket rest
    else if c = ',' then scan limit .plain l.comma rest
    else scan limit .plain l rest

/-- Does the nesting of a text stay within the limit? -/
def within (limit : Nat) (text : List Char) : Bool := scan limit .plain .start text

end FormulaTable.Nesting
