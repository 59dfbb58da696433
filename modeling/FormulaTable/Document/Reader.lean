import FormulaTable.Document.Token

/-!
# Reading a document

A document is read from its tokens. What is inside brackets is read by the reader of the
level below; the number of tokens is budget enough for the levels.
-/

namespace FormulaTable.Document

/-- A reader takes what it reads off the front of a list of tokens. -/
abbrev Reader (α : Type) := List Token → Option (α × List Token)

/-- Reads items with commas between them, up to and with the closing token, but at most one
for each member of the first list. -/
def itemsWithin {α : Type} (isClose : Token → Bool) (item : Reader α) :
    List Token → Reader (List α)
  | [], _ => none
  | _ :: budget, tokens => do
    let (first, rest) ← item tokens
    match rest with
    | .comma :: rest => do
      let (others, rest) ← itemsWithin isClose item budget rest
      return (first :: others, rest)
    | t :: rest => if isClose t then return ([first], rest) else none
    | [] => none

/-- Reads items with commas between them, perhaps none, up to and with the closing token.
Every item takes a token, so that the tokens themselves are budget enough. -/
def items {α : Type} (isClose : Token → Bool) (item : Reader α) : Reader (List α)
  | [] => none
  | t :: rest => if isClose t then some ([], rest)
    else itemsWithin isClose item (t :: rest) (t :: rest)

/-- Does the token close an object? -/
def closesObject : Token → Bool
  | .closeBrace => true
  | _ => false

/-- Does the token close an array? -/
def closesArray : Token → Bool
  | .closeBracket => true
  | _ => false

/-- Reads a key, a colon and a document. -/
def field (inner : Reader Document) : Reader (Option String × Document)
  | .text key :: .colon :: rest => (inner rest).map fun (d, rest) => ((key, d), rest)
  | _ => none

/-- The object of the given fields; nothing can be read from it if a key stands for no
text. -/
def ofFields (fields : List (Option String × Document)) : Document :=
  match fields.mapM fun (key, d) => key.map (·, d) with
  | some named => .object named
  | none => .unreadable

/-- The document that a written text is. -/
def ofText : Option String → Document
  | some s => .text s
  | none => .unreadable

/-- Reads a document in which at most `budget` documents are inside one another, itself
included. -/
def document : Nat → Reader Document
  | 0, _ => none
  | _ + 1, .scalar d :: rest => some (d, rest)
  | _ + 1, .text s :: rest => some (ofText s, rest)
  | budget + 1, .openBracket :: rest =>
    (items closesArray (document budget) rest).map fun (ds, rest) => (.array ds, rest)
  | budget + 1, .openBrace :: rest =>
    (items closesObject (field (document budget)) rest).map fun (fields, rest) =>
      (ofFields fields, rest)
  | _, _ => none

/-- Reads the whole list of tokens as one document. -/
def ofTokens? (tokens : List Token) : Option Document :=
  match document (tokens.length + 1) tokens with
  | some (d, []) => some d
  | _ => none

/-- Reads a text as a document. -/
def parse? (text : String) : Option Document := ofTokens? (Token.ofChars text.toList)

end FormulaTable.Document
