/-!
# Kinds of cell values

The six kinds that a column can be declared to hold.
-/

namespace FormulaTable

/-- The kinds of values. -/
inductive Kind where
  /-- 64-bit signed integers. -/
  | int64
  /-- Double-precision numbers. -/
  | float64
  | bool
  | string
  /-- Days. -/
  | date
  /-- Instants, to the microsecond. -/
  | timestamp
deriving DecidableEq

namespace Kind

/-- The name of a kind in messages. -/
def name : Kind → String
  | int64 => "INT64"
  | float64 => "FLOAT64"
  | bool => "BOOL"
  | string => "STRING"
  | date => "DATE"
  | timestamp => "TIMESTAMP"

/-- The name of a kind in documents and diagnostics. -/
def tag : Kind → String
  | int64 => "Int64"
  | float64 => "Float64"
  | bool => "Bool"
  | string => "String"
  | date => "Date"
  | timestamp => "Timestamp"

/-- Every kind. -/
def all : List Kind := [int64, float64, bool, string, date, timestamp]

/-- The kind with the given tag. -/
def ofTag? (s : String) : Option Kind :=
  all.find? (·.tag = s)

/-- The name of the kind of a value in messages, where null has no kind. -/
def nameOrNull : Option Kind → String
  | some k => k.name
  | none => "NULL"

end Kind

end FormulaTable
