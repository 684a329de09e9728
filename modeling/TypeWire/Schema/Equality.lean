import TypeWire.Schema.Basic

/-!
# Equality of schemas

Two schemas are equal if each field is absent in both or equal in both. The order of properties is
free, that of lists is not; numbers and examples are compared by meaning.
-/

namespace TypeWire

/-- Whether two numbers are both absent or equal. -/
def sameBound : Option Float → Option Float → Bool
  | none, none => true
  | some a, some b => a == b
  | _, _ => false

/-- Whether two schemas have equal fields apart from those that hold schemas. -/
def Facets.equals (f g : Facets) : Bool :=
  f.type == g.type && f.format == g.format && f.description == g.description &&
    f.nullable == g.nullable && f.enum == g.enum && f.required == g.required &&
    (match f.sample, g.sample with
      | none, none => true
      | some a, some b => a.equals b
      | _, _ => false) &&
    f.propertyOrdering == g.propertyOrdering && f.minItems == g.minItems &&
    f.maxItems == g.maxItems && sameBound f.minimum g.minimum && sameBound f.maximum g.maximum

namespace Schema

mutual

/-- Whether two schemas are equal. -/
def equals : Schema → Schema → Bool
  | node f items properties anyOf, node g items' properties' anyOf' =>
    f.equals g && itemsEqual items items' && propertiesEqual properties properties' &&
      anyOfEqual anyOf anyOf'

/-- Whether two lists have items of equal schemas, or neither says of which. -/
def itemsEqual : Option Schema → Option Schema → Bool
  | none, none => true
  | some s, some t => equals s t
  | _, _ => false

/-- Whether two objects have equal properties, in any order, or neither has any. -/
def propertiesEqual : Option (List (String × Schema)) → Option (List (String × Schema)) → Bool
  | none, none => true
  | some ps, some qs => ps.length == qs.length && propertiesWithin ps qs
  | _, _ => false

/-- Whether two unions have equal members, or neither has any. -/
def anyOfEqual : Option (List Schema) → Option (List Schema) → Bool
  | none, none => true
  | some ms, some ns => membersEqual ms ns
  | _, _ => false

/-- Whether each property of the first list is in the second with an equal schema. -/
def propertiesWithin : List (String × Schema) → List (String × Schema) → Bool
  | [], _ => true
  | (k, s) :: rest, others =>
    others.any (fun (l, t) => k == l && equals s t) && propertiesWithin rest others

/-- Whether two lists of schemas are equal member by member. -/
def membersEqual : List Schema → List Schema → Bool
  | [], [] => true
  | s :: ss, t :: ts => equals s t && membersEqual ss ts
  | _, _ => false

end

end Schema

end TypeWire
