import FormulaTable.Document.Reader
import FormulaTable.Error
import FormulaTable.Formula.Reading

/-!
# Configuration

How formulas are compiled and what the rows that fail are filled with. A configuration can
be read from a document: an object, in which fields may be left out and unknown ones are
skipped, or an array of the fields in their order, of which the last ones may be left out.
-/

namespace FormulaTable

/-- Settings for compiling and evaluating formulas. -/
structure Config where
  /-- The greatest depth of a formula. -/
  depthLimit : Nat
  /-- What is stored in failed rows of numbers, days and instants. -/
  errorSentinel : Int64
  /-- What the message in failed rows of texts starts with. -/
  errorLabel : String
  /-- May formulas call the functions of the registry? -/
  callsRegistry : Bool
deriving DecidableEq

namespace Config

/-- The settings that hold unless others are chosen. -/
def standard : Config := ⟨defaultDepthLimit, -1, "#ERROR: ", true⟩

/-- Refuses settings under which no formula could be compiled. -/
def validate (c : Config) : Except Error Unit :=
  if c.depthLimit = 0 then .error (.config .zeroDepth) else .ok ()

/-- The settings with one field taken from a document. -/
abbrev Setter := Config → Document → Option Config

/-- Takes the depth limit from a document. -/
def setDepthLimit : Setter := fun c d =>
  d.int?.bind fun n => if 0 ≤ n then some { c with depthLimit := n.toNat } else none

/-- Takes the sentinel from a document. -/
def setErrorSentinel : Setter := fun c d =>
  (d.int?.bind int64?).map fun n => { c with errorSentinel := n }

/-- Takes the label of failed texts from a document. -/
def setErrorLabel : Setter := fun c d =>
  d.text?.map fun s => { c with errorLabel := s }

/-- Takes the choice about registered functions from a document. -/
def setCallsRegistry : Setter := fun c d =>
  d.bool?.map fun b => { c with callsRegistry := b }

/-- The fields of a document, in their order. -/
def setters : List (String × Setter) :=
  [("max_nesting_depth", setDepthLimit), ("error_sentinel", setErrorSentinel),
   ("string_error_prefix", setErrorLabel), ("registry_wrappers", setCallsRegistry)]

/-- The settings of an object; a field of settings may occur once at most. -/
def ofFields? (fields : List (String × Document)) : Option Config :=
  setters.foldlM
    (fun c (name, set) =>
      match Document.fieldsNamed name fields with
      | [] => some c
      | [d] => set c d
      | _ => none)
    standard

/-- The settings of an array; there may be fewer items than fields, but not more. -/
def ofItems? (items : List Document) : Option Config :=
  if setters.length < items.length then none
  else (setters.zip items).foldlM (fun c ((_, set), d) => set c d) standard

/-- The settings of a document. -/
def ofDocument? : Document → Option Config
  | .object fields => ofFields? fields
  | .array items => ofItems? items
  | _ => none

/-- Reads settings from the text of a document. -/
def parse (text : String) : Except Error Config :=
  match (Document.parse? text).bind ofDocument? with
  | none => .error (.config .invalidDocument)
  | some c => do
    c.validate
    return c

end Config

end FormulaTable
