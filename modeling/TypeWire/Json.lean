import TypeWire.Value

/-!
# JSON

`Value.plain` brings a value into the form that JSON can hold: dates, decimals and byte strings
become texts, tuples become lists, keys become texts, and numbers that JSON lacks become null.
`Value.json` writes a value, on one line or indented.
-/

namespace TypeWire

/-- Puts an entry into a dictionary: a key that is there keeps its place and takes the value. -/
def putEntry {α β : Type} [BEq α] (key : α) (value : β) : List (α × β) → List (α × β)
  | [] => [(key, value)]
  | (k, v) :: rest => if k == key then (k, value) :: rest else (k, v) :: putEntry key value rest

/-- The dictionary that a list of entries builds, put in one after the other. -/
def dictOfList {α β : Type} [BEq α] (entries : List (α × β)) : List (α × β) :=
  entries.foldl (fun acc (k, v) => putEntry k v acc) []

namespace Value

mutual

/-- The text of a dictionary key. -/
def keyText : Value → String
  | .null => "None"
  | .bool b => if b then "true" else "false"
  | .int n => toString n
  | .float x => Numeric.floatText x
  | .decimal d => d.text
  | .str s => s
  | .bytes s => s
  | .datetime t => t.zuluText
  | .date d => d.text
  | .constant _ _ _ v => keyText v
  | .tuple items => ",".intercalate (keyTexts items)
  | v => v.className

/-- The texts of the parts of a key. -/
def keyTexts : List Value → List String
  | [] => []
  | v :: vs => keyText v :: keyTexts vs

end

mutual

/-- The value in the form that JSON can hold. -/
def plain : Value → Value
  | .float x => if x.isFinite then .float x else .null
  | .decimal d => .str d.text
  | .bytes s => .str s
  | .datetime t => .str t.zuluText
  | .date d => .str d.text
  | .constant _ _ _ v => plain v
  | .list items => .list (plainItems items)
  | .tuple items => .list (plainItems items)
  | .dict entries =>
    .dict ((dictOfList (plainEntries entries)).map fun (k, v) => (.str k, v))
  | .object name => .str name
  | v => v

/-- The items of a list in plain form. -/
def plainItems : List Value → List Value
  | [] => []
  | v :: vs => plain v :: plainItems vs

/-- The entries of a dictionary in plain form, under text keys. -/
def plainEntries : List (Value × Value) → List (String × Value)
  | [] => []
  | (k, v) :: rest => (keyText k, plain v) :: plainEntries rest

end

/-- JSON numbers are written in the plain form; what is no number has a name of its own. -/
def jsonFloat : Numeric.FloatText :=
  { Numeric.plainFloat with nan := "NaN", infinity := "Infinity" }

/-- The line break before an item at a depth, if the layout has line breaks. -/
def lineBreak (indent : Option Nat) (depth : Nat) : String :=
  match indent with
  | none => ""
  | some n => "\n" ++ String.ofList (List.replicate (n * depth) ' ')

/-- The separator of items: a comma, with a space where no line break follows. -/
def itemSeparator (indent : Option Nat) (depth : Nat) : String :=
  match indent with
  | none => ", "
  | some _ => "," ++ lineBreak indent depth

/-- Items between brackets; without items the brackets stand together. -/
def bracketed (indent : Option Nat) (depth : Nat) (opening closing : String)
    (items : List String) : String :=
  if items.isEmpty then opening ++ closing
  else
    opening ++ lineBreak indent (depth + 1) ++
      (itemSeparator indent (depth + 1)).intercalate items ++ lineBreak indent depth ++ closing

mutual

/-- The JSON text of a value that stands `depth` brackets deep. -/
def jsonAt (indent : Option Nat) (depth : Nat) : Value → String
  | .null => "null"
  | .bool b => if b then "true" else "false"
  | .int n => toString n
  | .float x => jsonFloat.render x
  | .str s => Text.jsonQuoted s
  | .list items => bracketed indent depth "[" "]" (jsonItems indent (depth + 1) items)
  | .tuple items => bracketed indent depth "[" "]" (jsonItems indent (depth + 1) items)
  | .dict entries =>
    bracketed indent depth "\x7b" "\x7d" (jsonEntries indent (depth + 1) entries)
  | v => Text.jsonQuoted v.keyText

/-- The JSON texts of the items of a list. -/
def jsonItems (indent : Option Nat) (depth : Nat) : List Value → List String
  | [] => []
  | v :: vs => jsonAt indent depth v :: jsonItems indent depth vs

/-- The JSON texts of the entries of a dictionary. -/
def jsonEntries (indent : Option Nat) (depth : Nat) : List (Value × Value) → List String
  | [] => []
  | (k, v) :: rest =>
    (Text.jsonQuoted k.keyText ++ ": " ++ jsonAt indent depth v) ::
      jsonEntries indent depth rest

end

/-- The JSON text of a value: on one line, or with each item on a line of its own, indented by so
many spaces for each bracket around it. -/
def json (indent : Option Nat) (v : Value) : String := jsonAt indent 0 v

end Value

end TypeWire
