/-!
# JSON documents

A document is read as a whole before anything is taken from it. Some parts are well formed
and yet stand for nothing: a number beyond the doubles, or a text or a key with half of a
surrogate pair. Such a part does no harm where nobody asks for it; asking for it fails.
-/

namespace FormulaTable

/-- A JSON document. -/
inductive Document where
  | null
  | bool (b : Bool)
  /-- A number that is written as an integer and fits 64 bits, signed or unsigned. -/
  | integer (n : Int)
  /-- Any other number. -/
  | number (x : Float)
  | text (s : String)
  | array (items : List Document)
  | object (fields : List (String × Document))
  /-- A part that is well formed and stands for nothing. -/
  | unreadable
deriving Inhabited

namespace Document

/-- The truth value that a document is. -/
def bool? : Document → Option Bool
  | bool b => some b
  | _ => none

/-- The text that a document is. -/
def text? : Document → Option String
  | text s => some s
  | _ => none

/-- The integer that a document is. -/
def int? : Document → Option Int
  | integer n => some n
  | _ => none

/-- The double that a document is; an integer is rounded to the nearest one. -/
def float? : Document → Option Float
  | integer n => some (Float.ofInt n)
  | number x => some x
  | _ => none

/-- Does the document say that there is nothing? -/
def isNull : Document → Bool
  | null => true
  | _ => false

/-- The fields of an object under a name. -/
def fieldsNamed (name : String) (fields : List (String × Document)) : List Document :=
  (fields.filter (·.1 = name)).map (·.2)

end Document

end FormulaTable
