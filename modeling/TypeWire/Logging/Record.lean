import TypeWire.Json
import TypeWire.Template

/-!
# Log records

A log record as one line of JSON: the time in UTC, the level by name, the logger, the message with
its values filled in, and the error that came with it.
-/

namespace TypeWire.Logging

/-- An error that a record carries: its class and its text. -/
structure Attached where
  className : String
  text : String
deriving Inhabited

/-- A log record. -/
structure Record where
  logger : String
  level : Int
  template : Value
  values : List Value := []
  /-- Seconds from the start of 1970. -/
  created : Value
  attached : Option Attached := none
deriving Inhabited

/-- Why a record has no line. -/
inductive RecordError where
  | fill (e : Template.FillError)
  | yearOutOfRange (year : Int)
  /-- The year does not fit into 32 bits, counted from 1900. -/
  | yearTooLarge
  /-- The seconds do not fit into 64 bits. -/
  | secondsTooLarge
  | notANumber
  | notSeconds (className : String)
deriving DecidableEq, Repr, Inhabited

/-- The message about a record that has no line. -/
def RecordError.message : RecordError → String
  | fill e => e.message
  | yearOutOfRange year => "year " ++ toString year ++ " is out of range"
  | yearTooLarge => "[Errno 75] Value too large for defined data type"
  | secondsTooLarge => "timestamp out of range for platform time_t"
  | notANumber => "Invalid value NaN (not a number)"
  | notSeconds className =>
    Text.quoted className ++ " object cannot be interpreted as an integer"

/-- The name of a level; one without a name is shown by its number. -/
def levelName (level : Int) : String :=
  match [(0, "NOTSET"), (10, "DEBUG"), (20, "INFO"), (30, "WARNING"), (40, "ERROR"),
      (50, "CRITICAL")].lookup level with
  | some name => name
  | none => "Level " ++ toString level

/-- Seconds and microseconds of a time given in seconds: the part after the point is rounded to
microseconds, a half to the even one, and brought to the range from zero to a second. -/
def splitSeconds (created : Value) : Except RecordError (Int × Int) :=
  match created with
  | .int n => .ok (n, 0)
  | .bool b => .ok (if b then 1 else 0, 0)
  | .float x =>
    match Numeric.Binary64.ofFloat x with
    | .nan => .error .notANumber
    | .infinite _ => .error .secondsTooLarge
    | .finite b =>
      let whole : Int := (b.fraction.1 / b.fraction.2 : Nat)
      let whole := if b.negative then -whole else whole
      let part := (x - (if x < 0.0 then x.ceil else x.floor)) * 1000000.0
      let micro := (Numeric.roundFloat? part).getD 0
      if 1000000 ≤ micro then .ok (whole + 1, micro - 1000000)
      else if micro < 0 then .ok (whole - 1, micro + 1000000)
      else .ok (whole, micro)
  | v => .error (.notSeconds v.className)

/-- Why a number of seconds of 64 bits has no date. Years are counted from 1900 in 32 bits, and the
sum with 1900 is shown as a number of 32 bits too. -/
def yearError (seconds : Int) : RecordError :=
  let year := (Date.ofDays (Int.fdiv seconds 86400)).year
  if -0x80000000 ≤ year - 1900 ∧ year - 1900 < 0x80000000 then
    .yearOutOfRange (Int.bmod year 0x100000000)
  else .yearTooLarge

/-- The time stamp of a record. -/
def timestamp (created : Value) : Except RecordError String := do
  let (seconds, micro) ← splitSeconds created
  if seconds < -0x8000000000000000 ∨ 0x8000000000000000 ≤ seconds then throw .secondsTooLarge
  match DateTime.ofSeconds? seconds micro.toNat with
  | some t => return t.zuluText
  | none => throw (yearError seconds)

/-- The classes of errors that are shown with the module they are from. -/
def ownErrors : List String :=
  ["SchemaConversionError", "UnsupportedConstructError", "MalformedSchemaError"]

/-- The line that shows an error: its class, and its text if it has one. The text of a failed look-up
is the key, which is quoted. -/
def Attached.line (a : Attached) : String :=
  let shown := if ownErrors.contains a.className then "vertex_schema.errors." ++ a.className
    else a.className
  let text := if a.className = "KeyError" then Text.quoted a.text else a.text
  if text = "" then shown else shown ++ ": " ++ text

namespace Record

/-- The message of a record. Without values the template is the message. -/
def message (r : Record) : Except RecordError String :=
  if r.values.isEmpty then .ok r.template.display
  else
    match Template.fill r.template.display r.values with
    | .ok s => .ok s
    | .error e => .error (.fill e)

/-- The record as a line of JSON. -/
def line (r : Record) : Except RecordError String := do
  let ts ← timestamp r.created
  let msg ← r.message
  let entries : List (Value × Value) :=
    [(.str "ts", .str ts), (.str "level", .str (levelName r.level)),
      (.str "logger", .str r.logger), (.str "msg", .str msg)] ++
    (r.attached.map fun a => (Value.str "exc_info", Value.str a.line)).toList
  return (Value.dict entries).json none

end Record

end TypeWire.Logging
