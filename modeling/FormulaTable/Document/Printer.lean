import FormulaTable.Decimal.Layout
import FormulaTable.Document.Basic

/-!
# Writing a document

Documents are written without blanks. Quotes, backslashes and control characters are
escaped, and every number that is not written as an integer has a point or an exponent. A
number that is none is written as `null`.
-/

namespace FormulaTable.Document

/-- The letter that stands after a backslash for a character. -/
def escapeLetters : List (Char × Char) :=
  [('"', '"'), ('\\', '\\'), ('\x08', 'b'), ('\x0c', 'f'), ('\n', 'n'), ('\r', 'r'),
    ('\t', 't')]

/-- A number below 256 in two hexadecimal digits. -/
def hexPair (n : Nat) : List Char := [Nat.digitChar (n / 16), Nat.digitChar (n % 16)]

/-- One character inside a written text. -/
def writeChar (c : Char) : List Char :=
  match escapeLetters.lookup c with
  | some letter => ['\\', letter]
  | none => if c.toNat < 0x20 then ['\\', 'u', '0', '0'] ++ hexPair c.toNat else [c]

/-- A text in quotes. -/
def writeText (s : String) : List Char := '"' :: s.toList.flatMap writeChar ++ ['"']

/-- A double; only finite ones are numbers here. -/
def writeFloat (x : Float) : List Char :=
  match Binary.parts x with
  | .finite _ _ _ => (Decimal.compactText x).toList
  | _ => ['n', 'u', 'l', 'l']

/-- Written parts with commas between them. -/
def separated : List (List Char) → List Char
  | [] => []
  | [part] => part
  | part :: rest => part ++ ',' :: separated rest

mutual

/-- The text of a document. What stands for nothing is written as `null`. -/
def write : Document → List Char
  | null => ['n', 'u', 'l', 'l']
  | bool b => if b then ['t', 'r', 'u', 'e'] else ['f', 'a', 'l', 's', 'e']
  | integer n => (toString n).toList
  | number x => writeFloat x
  | text s => writeText s
  | array items => '[' :: separated (writeAll items) ++ [']']
  | object fields => '\x7b' :: separated (writeFields fields) ++ ['\x7d']
  | unreadable => ['n', 'u', 'l', 'l']

/-- The texts of several documents. -/
def writeAll : List Document → List (List Char)
  | [] => []
  | d :: rest => d.write :: writeAll rest

/-- The texts of the fields of an object. -/
def writeFields : List (String × Document) → List (List Char)
  | [] => []
  | (key, d) :: rest => (writeText key ++ ':' :: d.write) :: writeFields rest

end

/-- The text of a document. -/
def toText (d : Document) : String := String.ofList d.write

end FormulaTable.Document
