import TypeWire.Schema.Basic

/-!
# Wire form of schemas

`Schema.encode` writes a schema as a dictionary: the fields that are there, in wire order, and
nothing for those that are absent. Examples are written in plain form; `Schema.data` leaves them as
they are.
-/

namespace TypeWire.Schema

/-- A list of texts as a value. -/
def textList (texts : List String) : Value := .list (texts.map .str)

/-- The entry of a field that is there. -/
def entry (key : WireKey) (value : Option Value) : List (Value × Value) :=
  (value.map fun v => (Value.str key.wireName, v)).toList

/-- The entries of a schema in wire order, given the form of its example and those of its parts. -/
def entries (sample : Value → Value) (f : Facets) (items properties anyOf : Option Value) :
    List (Value × Value) :=
  entry .type (f.type.map fun t => .str t.word) ++
  entry .format (f.format.map .str) ++
  entry .description (f.description.map .str) ++
  entry .nullable (f.nullable.map .bool) ++
  entry .items items ++
  entry .enum (f.enum.map textList) ++
  entry .properties properties ++
  entry .required (f.required.map textList) ++
  entry .sample (f.sample.map sample) ++
  entry .propertyOrdering (f.propertyOrdering.map textList) ++
  entry .anyOf anyOf ++
  entry .minItems (f.minItems.map .int) ++
  entry .maxItems (f.maxItems.map .int) ++
  entry .minimum (f.minimum.map .float) ++
  entry .maximum (f.maximum.map .float)

mutual

/-- The dictionary of a schema, with examples in a form. -/
def encodeWith (sample : Value → Value) : Schema → Value
  | node f items properties anyOf =>
    .dict (entries sample f
      (match items with
        | none => none
        | some s => some (encodeWith sample s))
      (match properties with
        | none => none
        | some ps => some (.dict (encodeProperties sample ps)))
      (match anyOf with
        | none => none
        | some ms => some (.list (encodeMembers sample ms))))

/-- The dictionaries of properties, under their keys. -/
def encodeProperties (sample : Value → Value) : List (String × Schema) → List (Value × Value)
  | [] => []
  | (k, s) :: rest => (.str k, encodeWith sample s) :: encodeProperties sample rest

/-- The dictionaries of the members of a union. -/
def encodeMembers (sample : Value → Value) : List Schema → List Value
  | [] => []
  | s :: rest => encodeWith sample s :: encodeMembers sample rest

end

/-- The wire form of a schema. -/
def encode (s : Schema) : Value := s.encodeWith Value.plain

/-- The data that a schema is read from. -/
def data (s : Schema) : Value := s.encodeWith id

end TypeWire.Schema
