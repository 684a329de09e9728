import TypeWire.Value

/-!
# Values in messages

How values are written inside running text. `Value.display` is the plain form, in which a text stands
for itself; `Value.literalForm` is the form inside containers, in which texts are quoted.
-/

namespace TypeWire.Value

/-- Items with commas between them. -/
def commaSeparated (items : List String) : String := ", ".intercalate items

/-- The form of a day inside a container. -/
def dayForm (d : Date) : String :=
  "datetime.date(" ++ commaSeparated [toString d.year, toString d.month, toString d.day] ++ ")"

/-- The form of a span of seconds: whole days, rounded down, and the seconds above these. -/
def spanForm (seconds : Int) : String :=
  let days := Int.fdiv seconds 86400
  let rest := Int.fmod seconds 86400
  let parts := (if days = 0 then [] else ["days=" ++ toString days]) ++
    (if rest = 0 then [] else ["seconds=" ++ toString rest])
  "datetime.timedelta(" ++ (if parts = [] then "0" else commaSeparated parts) ++ ")"

/-- The form of an offset from UTC. -/
def offsetForm (seconds : Int) : String :=
  "datetime.timezone" ++ if seconds = 0 then ".utc" else "(" ++ spanForm seconds ++ ")"

/-- The form of a time inside a container; seconds and microseconds only where there are any. -/
def timeForm (t : DateTime) : String :=
  let parts : List String := [t.date.year, t.date.month, t.date.day, t.hour, t.minute].map
    fun n : Int => toString n
  let seconds := if t.second = 0 ∧ t.microsecond = 0 then [] else [toString t.second]
  let fraction := if t.microsecond = 0 then [] else [toString t.microsecond]
  let offset := (t.offset.map fun s => "tzinfo=" ++ offsetForm s).toList
  "datetime.datetime(" ++ commaSeparated (parts ++ seconds ++ fraction ++ offset) ++ ")"

mutual

/-- The form of a value inside a container. -/
def literalForm : Value → String
  | .null => "None"
  | .bool b => if b then "True" else "False"
  | .int n => toString n
  | .float x => Numeric.floatText x
  | .decimal d => "Decimal(" ++ Text.quoted d.text ++ ")"
  | .str s => Text.quoted s
  | .bytes s => Text.bytesQuoted s
  | .list items => "[" ++ commaSeparated (literalForms items) ++ "]"
  | .tuple [v] => "(" ++ literalForm v ++ ",)"
  | .tuple items => "(" ++ commaSeparated (literalForms items) ++ ")"
  | .dict entries => "\x7b" ++ commaSeparated (entryForms entries) ++ "\x7d"
  | .datetime t => timeForm t
  | .date d => dayForm d
  | .constant c m _ v => "<" ++ c ++ "." ++ m ++ ": " ++ literalForm v ++ ">"
  | .object name => name

/-- The forms of the items of a container. -/
def literalForms : List Value → List String
  | [] => []
  | v :: vs => literalForm v :: literalForms vs

/-- The forms of the entries of a dictionary. -/
def entryForms : List (Value × Value) → List String
  | [] => []
  | (k, v) :: rest => (literalForm k ++ ": " ++ literalForm v) :: entryForms rest

end

/-- A time with a space between day and time of day. -/
def spacedTime (t : DateTime) : String := t.text.replace "T" " "

/-- The form of a value in running text. -/
def display : Value → String
  | .str s => s
  | .decimal d => d.text
  | .datetime t => spacedTime t
  | .date d => d.text
  | .constant c m _ _ => c ++ "." ++ m
  | v => v.literalForm

end TypeWire.Value
