import TypeWire.Json

/-!
# Schemas

A schema describes data as a wire object with fifteen fields, all optional. `Schema.node` keeps the
fields that hold no schema (`Facets`) apart from the three that do, `items`, `properties` and
`anyOf`. An absent field, an empty one and a false one are different things.

`wireKeys` lists the keys in wire order. Four of them have a second name, in which words are
separated by underscores.
-/

namespace TypeWire

/-- The concrete types of data. -/
inductive SchemaType where
  | string
  | number
  | integer
  | boolean
  | array
  | object
deriving DecidableEq, Repr, Inhabited

namespace SchemaType

/-- The word for a type in wire data. -/
def word : SchemaType → String
  | string => "STRING"
  | number => "NUMBER"
  | integer => "INTEGER"
  | boolean => "BOOLEAN"
  | array => "ARRAY"
  | object => "OBJECT"

/-- The type with a word. -/
def ofWord? : String → Option SchemaType
  | "STRING" => some string
  | "NUMBER" => some number
  | "INTEGER" => some integer
  | "BOOLEAN" => some boolean
  | "ARRAY" => some array
  | "OBJECT" => some object
  | _ => none

end SchemaType

/-- The fields of a schema that hold no schema. -/
structure Facets where
  type : Option SchemaType := none
  format : Option String := none
  description : Option String := none
  nullable : Option Bool := none
  enum : Option (List String) := none
  required : Option (List String) := none
  sample : Option Value := none
  propertyOrdering : Option (List String) := none
  minItems : Option Int := none
  maxItems : Option Int := none
  minimum : Option Float := none
  maximum : Option Float := none
deriving Inhabited

/-- A schema. -/
inductive Schema where
  | node (facets : Facets) (items : Option Schema) (properties : Option (List (String × Schema)))
      (anyOf : Option (List Schema))
deriving Inhabited

namespace Schema

/-- The fields that hold no schema. -/
def facets : Schema → Facets
  | node f _ _ _ => f

/-- The schema of the items of a list. -/
def items : Schema → Option Schema
  | node _ i _ _ => i

/-- The schemas of the properties of an object, in order. -/
def properties : Schema → Option (List (String × Schema))
  | node _ _ p _ => p

/-- The schemas of which data has to match one. -/
def anyOf : Schema → Option (List Schema)
  | node _ _ _ a => a

/-- A schema without parts. -/
def leaf (f : Facets) : Schema := node f none none none

end Schema

/-- A field of a schema. -/
inductive WireKey where
  | type
  | format
  | description
  | nullable
  | items
  | enum
  | properties
  | required
  | sample
  | propertyOrdering
  | anyOf
  | minItems
  | maxItems
  | minimum
  | maximum
deriving DecidableEq, Repr, Inhabited

namespace WireKey

/-- The key of a field in wire data. -/
def wireName : WireKey → String
  | type => "type"
  | format => "format"
  | description => "description"
  | nullable => "nullable"
  | items => "items"
  | enum => "enum"
  | properties => "properties"
  | required => "required"
  | sample => "example"
  | propertyOrdering => "propertyOrdering"
  | anyOf => "anyOf"
  | minItems => "minItems"
  | maxItems => "maxItems"
  | minimum => "minimum"
  | maximum => "maximum"

/-- The name of a field among the attributes of a schema. -/
def attributeName : WireKey → String
  | propertyOrdering => "property_ordering"
  | anyOf => "any_of"
  | minItems => "min_items"
  | maxItems => "max_items"
  | k => k.wireName

/-- All fields, in wire order. -/
def all : List WireKey :=
  [type, format, description, nullable, items, enum, properties, required, sample,
    propertyOrdering, anyOf, minItems, maxItems, minimum, maximum]

/-- The field with a wire name. -/
def ofWireName? (name : String) : Option WireKey := all.find? fun k => k.wireName == name

/-- The field with an attribute name. -/
def ofAttributeName? (name : String) : Option WireKey := all.find? fun k => k.attributeName == name

end WireKey

end TypeWire
