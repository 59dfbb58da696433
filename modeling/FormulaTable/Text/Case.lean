import FormulaTable.Text.CaseTable
import FormulaTable.Text.WordTable

/-!
# Upper and lower case

Two notions of case. Names are compared without regard to the case of the ASCII letters
alone (`foldName`); the functions `upper` and `lower` map every letter by the full Unicode
rules, where one letter may become several and a capital sigma that ends a word becomes a
final sigma.
-/

namespace FormulaTable.Text

/-- The form under which names are compared: ASCII letters in lower case, all else
unchanged. -/
def foldName (s : String) : String :=
  s.map Char.toLower

/-- Do two names differ in the case of ASCII letters at most? -/
def sameName (a b : String) : Bool :=
  foldName a == foldName b

/-- The image of a character under a table of runs and expansions. -/
def mapCase (runs : List CaseRun) (expansions : List (Nat × List Nat)) (c : Char) :
    List Char :=
  match expansions.lookup c.toNat with
  | some images => images.map Char.ofNat
  | none =>
    match runs.find? (·.covers c.toNat) with
    | some run => [Char.ofNat (c.toNat + run.shift).toNat]
    | none => [c]

/-- The full upper-case form of one character. -/
def upperChar (c : Char) : List Char :=
  if c.toNat < 0x80 then [c.toUpper] else mapCase upperRuns upperExpansions c

/-- The full lower-case form of one character, wherever it stands. -/
def lowerChar (c : Char) : List Char :=
  if c.toNat < 0x80 then [c.toLower] else mapCase lowerRuns lowerExpansions c

/-- Is the code point in one of the inclusive ranges? -/
def inRanges (ranges : List (Nat × Nat)) (c : Char) : Bool :=
  ranges.any fun (low, high) => low ≤ c.toNat && c.toNat ≤ high

/-- Is a letter with case reached from here by stepping over ignorable marks only? -/
def reachesCased (cs : List Char) : Bool :=
  match cs.dropWhile (inRanges ignorableRanges) with
  | c :: _ => inRanges casedRanges c
  | [] => false

/-- Lower case of the text `rest`, where `before` is what precedes it, nearest character
first. A capital sigma with a cased letter before it and none after it ends a word. -/
def lowerFrom : List Char → List Char → List Char
  | _, [] => []
  | before, c :: rest =>
    let image :=
      if c = 'Σ' then
        if reachesCased before && !reachesCased rest then ['ς'] else ['σ']
      else lowerChar c
    image ++ lowerFrom (c :: before) rest

/-- The text in upper case. -/
def upper (s : String) : String :=
  String.ofList (s.toList.flatMap upperChar)

/-- The text in lower case. -/
def lower (s : String) : String :=
  String.ofList (lowerFrom [] s.toList)

end FormulaTable.Text
