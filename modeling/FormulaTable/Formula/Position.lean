/-!
# Places in a text

Lines and columns are counted from 1. A line ends with its line feed, and a column is one
code point.
-/

namespace FormulaTable

/-- A place in a text. -/
structure Position where
  line : Nat
  column : Nat
deriving DecidableEq

/-- The place after the given characters. -/
def Position.after (before : List Char) : Position :=
  before.foldl (fun p c => if c = '\n' then ⟨p.line + 1, 1⟩
      else ⟨p.line, p.column + 1⟩) ⟨1, 1⟩

end FormulaTable
