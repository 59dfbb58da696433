import FormulaTable.Document.Printer
import FormulaTable.Document.Reader
import FormulaTable.Value.Basic

/-!
# Cells of a table

A cell shows a value. A cell of a row that failed holds a stand-in for the value, and the
message of the failure says so. Cells, values and kinds can be written as documents and read
back: a value is an object with its kind as the only key.
-/

namespace FormulaTable

/-- A cell as a reader of a table sees it. -/
structure Cell where
  value : Value
  display : String
  /-- The message of the failure whose stand-in the value is. -/
  error : Option String
deriving DecidableEq

namespace Cell

/-- A cell that holds data. -/
def ofValue (v : Value) : Cell := ⟨v, v.toText, none⟩

/-- A cell that holds the stand-in for a failure. -/
def failed (marker : Value) (message : String) : Cell :=
  ⟨marker, marker.toText, some message⟩

/-- Does the cell stand for a failure? -/
def isError (c : Cell) : Bool := c.error.isSome

end Cell

/-- The document of a kind. -/
def Kind.toDocument (k : Kind) : Document := .text k.tag

/-- The kind of a document: its tag alone, or with nothing under it. -/
def Kind.ofDocument? : Document → Option Kind
  | .text tag => Kind.ofTag? tag
  | .object [(tag, .null)] => Kind.ofTag? tag
  | _ => none

namespace Value

/-- The document of a value. -/
def toDocument : Value → Document
  | null => .text "Null"
  | int n => .object [(Kind.int64.tag, .integer n.toInt)]
  | float x => .object [(Kind.float64.tag, .number x)]
  | bool b => .object [(Kind.bool.tag, .bool b)]
  | text s => .object [(Kind.string.tag, .text s)]
  | date day => .object [(Kind.date.tag, .integer day.toInt)]
  | timestamp micros => .object [(Kind.timestamp.tag, .integer micros.toInt)]

/-- The value of a kind that a document holds. -/
def ofContent? (d : Document) : Kind → Option Value
  | .int64 => (d.int?.bind int64?).map int
  | .float64 => d.float?.map float
  | .bool => d.bool?.map bool
  | .string => d.text?.map text
  | .date => (d.int?.bind int32?).map date
  | .timestamp => (d.int?.bind int64?).map timestamp

/-- The value of a document. -/
def ofDocument? : Document → Option Value
  | .text "Null" => some null
  | .object [("Null", .null)] => some null
  | .object [(tag, content)] => (Kind.ofTag? tag).bind (ofContent? content)
  | _ => none

end Value

namespace Cell

/-- The document of a cell. -/
def toDocument (c : Cell) : Document :=
  .object [("value", c.value.toDocument), ("display", .text c.display),
    ("error", (c.error.map .text).getD .null)]

/-- The message of a failure, where nothing stands for none. -/
def errorOf? : Document → Option (Option String)
  | .null => some none
  | .text message => some (some message)
  | _ => none

/-- The cell of a document: an object, in which the message may be left out, or an array of
the three parts. -/
def ofDocument? : Document → Option Cell
  | .object fields => do
    let value ← only (Document.fieldsNamed "value" fields)
    let display ← only (Document.fieldsNamed "display" fields)
    let error ← match Document.fieldsNamed "error" fields with
      | [] => some none
      | [d] => errorOf? d
      | _ => none
    return ⟨← Value.ofDocument? value, ← display.text?, error⟩
  | .array [value, display, error] => do
    return ⟨← Value.ofDocument? value, ← display.text?, ← errorOf? error⟩
  | _ => none
where
  /-- The one document of a list. -/
  only : List Document → Option Document
    | [d] => some d
    | _ => none

end Cell

end FormulaTable
