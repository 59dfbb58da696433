import FormulaTable.Calendar.Interchange
import FormulaTable.Error
import FormulaTable.Series.Element
import FormulaTable.Value.Conversion

/-!
# Casting a column

A cast turns a whole column into one of another kind. It is stricter than the conversion of
single values: texts are not trimmed, days have a fixed width, and one element that has no
image fails the whole column. Missing elements stay missing, and a column that has the right
type already is not touched.
-/

namespace FormulaTable

/-- Why a column cannot be cast. -/
inductive CastFault where
  /-- No column of the one type is cast to the other. -/
  | unsupported (source target : ElementType)
  | unreadableText (s : String) (target : ElementType)
  /-- The text is no word for a truth value. -/
  | unknownWord (word : String)
  /-- The number does not fit. -/
  | doesNotFit (number : String) (target : ElementType)
  /-- The count is beyond the calendar or the clock. -/
  | noDay (count : Int) (source : ElementType)
  /-- The count of an instant is beyond the calendar, so that it has no text. -/
  | noInstant (count : Int) (source : ElementType)
  /-- The count of an instant is beyond the calendar, so that it has no day. -/
  | noDayOfInstant (count : Int) (unit : TimeUnit)
  | unreadableInstant (s : String) (fault : Calendar.InstantFault)
  | unknownZone (zone : String)
  /-- The product does not fit 64 bits. -/
  | productOverflow (left right : Int)

/-- The wording of an unknown time zone. -/
def unknownZoneMessage (zone : String) : String :=
  "Parser error: Invalid timezone \"" ++ zone ++
    "\": only offset based timezones supported without chrono-tz feature"

/-- The wording of a failed cast. -/
def CastFault.message : CastFault → String
  | unsupported source target =>
    "Cast error: Casting from " ++ source.name ++ " to " ++ target.name ++ " not supported"
  | unreadableText s target =>
    "Cast error: Cannot cast string '" ++ s ++ "' to value of " ++ target.name ++ " type"
  | unknownWord word => "Cast error: Cannot cast value '" ++ word ++
    "' to value of Boolean type"
  | doesNotFit number target => "Cast error: Can't cast value " ++ number ++
    " to type " ++ target.name
  | noDay count source =>
    "Cast error: Failed to convert " ++ toString count ++ " to temporal for " ++ source.name
  | noInstant count source =>
    "Cast error: Failed to convert " ++ toString count ++ " to datetime for " ++ source.name
  | noDayOfInstant count unit =>
    "Cast error: Cannot convert arrow_array::types::Timestamp" ++ unit.name ++ "Type " ++
      toString count ++ " to datetime"
  | unreadableInstant _ (.zone written) => unknownZoneMessage written
  | unreadableInstant s fault =>
    let reason :=
      match fault with
      | .tooShort => "timestamp must contain at least 10 characters"
      | .day => "error parsing date"
      | .separator => "invalid timestamp separator"
      | .time => "error parsing time"
      | .zone _ => "error computing timezone offset"
    "Parser error: Error parsing timestamp from '" ++ s ++ "': " ++ reason
  | unknownZone zone => unknownZoneMessage zone
  | productOverflow left right =>
    "Arithmetic overflow: Overflow happened on: " ++ toString left ++ " * " ++
      toString right

/-- Can columns of a type be cast to a kind? -/
def ElementType.castsTo (source : ElementType) : Kind → Bool
  | .int64 =>
    source = .null || source.isNumeric || source.isText || source.isTimestamp ||
      source = .bool || source = .date32 || source = .date64 || source = .duration
  | .float64 =>
    source = .null || source.isNumeric || source.isText || source.isTimestamp ||
      source = .bool || source = .duration
  | .bool => source = .null || source.isNumeric || source.isText || source = .bool
  | .string => true
  | .date =>
    source = .null || source.isText || source.isTimestamp || source = .int32 ||
      source = .int64 || source = .date32 || source = .date64
  | .timestamp =>
    source = .null || source.isInteger || source.isText || source.isTimestamp ||
      source = .float32 || source = .float64 || source = .date32 || source = .date64

namespace Element

/-- The exact integer, or a fault. -/
def fit64 (e : Element) (n : Option Int) : Except CastFault Int64 :=
  match n.bind int64? with
  | some a => .ok a
  | none => .error (.doesNotFit e.numberText .int64)

/-- The fault of an element whose type is not cast to a kind. -/
def unsupported {α : Type} (source : ElementType) (target : Kind) : Except CastFault α :=
  .error (.unsupported source target.elementType)

/-- The integer that an element is cast to: numbers lose their fraction, and counts stand
for themselves. -/
def castInt64 (source : ElementType) : Element → Except CastFault Int64
  | e@(.integer n) => e.fit64 (some n)
  | e@(.half _) => e.fit64 (e.number?.bind (·.truncate?))
  | e@(.single _) => e.fit64 (e.number?.bind (·.truncate?))
  | e@(.double _) => e.fit64 (e.number?.bind (·.truncate?))
  | .truth b => .ok (if b then 1 else 0)
  | .text s =>
    match Value.readInt64? s.toList with
    | some a => .ok a
    | none => .error (.unreadableText s .int64)
  | .day n => .ok n.toInt64
  | .dayMillis n => .ok n
  | .duration n => .ok n
  | .instant _ _ n => .ok n
  | .bytes _ | .clock _ => unsupported source .int64

/-- The double that an element is cast to. -/
def castFloat64 (source : ElementType) : Element → Except CastFault Float
  | .integer n => .ok (Float.ofInt n)
  | .half bits => .ok (Binary.ofHalf bits)
  | .single bits => .ok (Binary.ofSingle bits)
  | .double x => .ok x
  | .truth b => .ok (if b then 1.0 else 0.0)
  | .text s =>
    match Decimal.readFloat? s.toList with
    | some x => .ok x
    | none => .error (.unreadableText s .float64)
  | .duration n => .ok (Float.ofInt n.toInt)
  | .instant _ _ n => .ok (Float.ofInt n.toInt)
  | .bytes _ | .clock _ | .day _ | .dayMillis _ => unsupported source .float64

/-- The words for the two truth values, each with its beginnings. -/
def truthWord? (word : String) : Option Bool :=
  if ["t", "tr", "tru", "true", "y", "ye", "yes", "on", "1"].contains word then some true
  else if ["f", "fa", "fal", "fals", "false", "n", "no", "of", "off",
    "0"].contains word then some false
  else none

/-- The truth value that an element is cast to: a number is true unless it is zero. -/
def castBool (source : ElementType) : Element → Except CastFault Bool
  | .integer n => .ok (n != 0)
  | .half bits => .ok (Binary.ofHalf bits != 0.0)
  | .single bits => .ok (Binary.ofSingle bits != 0.0)
  | .double x => .ok (x != 0.0)
  | .truth b => .ok b
  | .text s =>
    let word := Text.trim (Text.foldName s)
    match truthWord? word with
    | some b => .ok b
    | none => .error (.unknownWord word)
  | .bytes _ | .clock _ | .day _ | .dayMillis _ | .duration _ | .instant _ _ _ =>
    unsupported source .bool

/-- The offset of a time zone from UTC in seconds; no zone is UTC. -/
def zoneOffset : Option String → Except CastFault Int
  | none => .ok 0
  | some zone =>
    match Calendar.readOffset? zone.toUTF8.toList with
    | some seconds => .ok seconds
    | none => .error (.unknownZone zone)

/-- The nanoseconds of a count of units. -/
def nanosOf (unit : TimeUnit) (count : Int) : Int := count * (1000000000 / unit.perSecond)

/-- Does an instant, in nanoseconds, fall on a day of the calendar? -/
def inCalendar (nanos : Int) : Bool :=
  (Calendar.Date.ofDayNumber? (nanos / Calendar.nanosPerDay)).isSome

/-- The day that an element is cast to; that of an instant is the one in its time zone. -/
def castDate (source : ElementType) : Element → Except CastFault Int32
  | .day n => .ok n
  | .dayMillis n => .ok (Int32.ofInt (n.toInt.tdiv ElementType.millisPerDay))
  | .integer n =>
    match int32? n with
    | some d => .ok d
    | none => .error (.doesNotFit (toString n) .int32)
  | .text s =>
    match (Calendar.readFixedDay? s).bind int32? with
    | some d => .ok d
    | none => .error (.unreadableText s .date32)
  | .instant unit zone n => do
    let offset ← zoneOffset zone
    let nanos := nanosOf unit n.toInt
    if inCalendar nanos then
      return Int32.ofInt ((nanos + nanosOf .second offset) / Calendar.nanosPerDay)
    else throw (.noDayOfInstant n.toInt unit)
  | .half _ | .single _ | .double _ | .truth _ | .bytes _ | .clock _ | .duration _ =>
    unsupported source .date

/-- A count of units in microseconds: a finer count is cut toward zero. -/
def microsOf (unit : TimeUnit) (n : Int64) : Except CastFault Int64 :=
  match unit with
  | .microsecond => .ok n
  | .nanosecond => .ok (Int64.ofInt (n.toInt.tdiv 1000))
  | .second | .millisecond =>
    let factor := 1000000 / unit.perSecond
    match int64? (n.toInt * factor) with
    | some a => .ok a
    | none => .error (.productOverflow n.toInt factor)

/-- The instant that an element is cast to; numbers count microseconds. -/
def castTimestamp (source : ElementType) : Element → Except CastFault Int64
  | .instant unit _ n => microsOf unit n
  | .day n => .ok (Value.dateToInstant n)
  | .dayMillis n => .ok (Int64.ofInt (n.toInt * 1000))
  | .text s =>
    match Calendar.readFixedInstant s with
    | .error fault => .error (.unreadableInstant s fault)
    | .ok micros =>
      match int64? micros with
      | some a => .ok a
      | none => .error (.unreadableInstant s .day)
  | e@(.integer _) | e@(.single _) | e@(.double _) => e.castInt64 source
  | .half _ | .truth _ | .bytes _ | .clock _ | .duration _ => unsupported source .timestamp

/-- An offset from UTC as it follows an instant: `Z` for none at all. -/
def offsetText (seconds : Int) : List Char :=
  if seconds = 0 then ['Z']
  else
    let minutes := seconds.natAbs / 60
    (if seconds < 0 then '-' else '+') ::
      (Calendar.padded 2 (minutes / 60) ++ ':' :: Calendar.padded 2 (minutes % 60))

/-- The text of an instant, in the local time of its zone if it has one. -/
def instantText (source : ElementType) (unit : TimeUnit) (zone : Option String)
    (n : Int64) :
    Except CastFault String := do
  let offset ← zoneOffset zone
  let nanos := nanosOf unit n.toInt
  let shown :=
    if inCalendar nanos then
      Calendar.instantText? 'T' (nanos + nanosOf .second offset) else none
  match shown with
  | none => throw (.noInstant n.toInt source)
  | some cs => return String.ofList (if zone.isSome then cs ++ offsetText offset else cs)

/-- The text of a number of seconds. -/
def durationText (seconds : Int) : String :=
  if seconds = 0 then "P0D"
  else (if seconds < 0 then "-PT" else "PT") ++ toString seconds.natAbs ++ "S"

/-- The text that an element is cast to. -/
def castText (source : ElementType) : Element → Except CastFault String
  | .text s => .ok s
  | .truth b => .ok (if b then "true" else "false")
  | .bytes content => .ok ((String.fromUTF8? content).getD "")
  | .day n =>
    match Calendar.Date.ofDayNumber? n.toInt with
    | some d => .ok (String.ofList d.write)
    | none => .error (.noDay n.toInt source)
  | .dayMillis n =>
    match Calendar.instantText? 'T' (nanosOf .millisecond n.toInt) with
    | some cs => .ok (String.ofList cs)
    | none => .error (.noDay n.toInt source)
  | .clock n =>
    if 0 ≤ n.toInt ∧ n.toInt < 86400 then
      .ok (String.ofList (Calendar.TimeOfDay.mk (n.toInt.toNat * 1000000000)).write)
    else .error (.noDay n.toInt source)
  | .duration n => .ok (durationText n.toInt)
  | .instant unit zone n => instantText source unit zone n
  | e@(.integer _) | e@(.half _) | e@(.single _) | e@(.double _) => .ok e.numberText

/-- What an element of the type `source` is cast to. -/
def castTo (source : ElementType) :
    (target : Kind) → Element → Except CastFault target.elementType.Carrier
  | .int64, e => e.castInt64 source
  | .float64, e => e.castFloat64 source
  | .bool, e => e.castBool source
  | .string, e => e.castText source
  | .date, e => e.castDate source
  | .timestamp, e => e.castTimestamp source

end Element

namespace Series

/-- The cast of one element; a missing one stays missing. -/
def castCell (source : ElementType) (target : Kind) :
    Option Element → Except CastFault (Option target.elementType.Carrier)
  | none => .ok none
  | some e => (e.castTo source target).map some

/-- The cast of a whole column. The first element without an image fails it. -/
def cast (s : Series) (target : Kind) : Except CastFault Series :=
  if s.type = target.elementType then .ok s
  else if !s.type.castsTo target then .error (.unsupported s.type target.elementType)
  else do
    let _ ← checkZone s.type target
    let cells ← s.elements.mapM (castCell s.type target)
    return ofCells target cells.toArray
where
  /-- An unknown time zone fails a cast that needs the local time, whatever the elements. -/
  checkZone (source : ElementType) (target : Kind) : Except CastFault Int :=
    match source with
    | .timestamp _ zone => if target = .string ∨ target = .date then
      Element.zoneOffset zone else .ok 0
    | _ => .ok 0

end Series

end FormulaTable
