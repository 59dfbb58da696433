import FormulaTable.Text.Case
import FormulaTable.Text.VisibleTable

/-!
# Quoted text for diagnostics

A text between double quotes, in which tabs, line ends, backslashes and double quotes are
written with a backslash, and every character that cannot be seen on its own by its code
point in braces.
-/

namespace FormulaTable.Text

/-- The code point of a character in lower-case hexadecimal, between braces. -/
def codePointEscape (c : Char) : List Char :=
  ['\\', 'u', '\x7b'] ++ Nat.toDigits 16 c.toNat ++ ['\x7d']

/-- One character as it stands inside a quoted text. -/
def quotedChar (c : Char) : List Char :=
  if c = '\x00' then ['\\', '0']
  else if c = '\t' then ['\\', 't']
  else if c = '\r' then ['\\', 'r']
  else if c = '\n' then ['\\', 'n']
  else if c = '\\' then ['\\', '\\']
  else if c = '"' then ['\\', '"']
  else if inRanges visibleRanges c then [c]
  else codePointEscape c

/-- The text between double quotes, with escapes. -/
def quoted (s : String) : String :=
  String.ofList ('"' :: s.toList.flatMap quotedChar ++ ['"'])

/-- A list of quoted texts between square brackets. -/
def quotedList (texts : List String) : String :=
  "[" ++ ", ".intercalate (texts.map quoted) ++ "]"

end FormulaTable.Text
