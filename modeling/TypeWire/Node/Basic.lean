import TypeWire.Value

/-!
# Nodes

A node is what a type expression says about data, with everything that only concerns its notation
removed: one of eleven kinds, and the modifiers that every kind can have. Nothing is rejected here:
what schemas cannot express is a node too (`lazy`, `other`, a check of an unknown kind), and the
conversion to a schema decides.
-/

namespace TypeWire

/-- A restriction as nodes record it: its kind, and the value that it is given with. -/
structure Check where
  kind : String
  value : Value := .null
deriving Inhabited

/-- What a node of any kind can have. -/
structure Head where
  description : Option String := none
  /-- Whether the field that the node describes can be left out. -/
  isOptional : Bool := false
  /-- Whether null is a value beside the others. -/
  nullable : Bool := false
  checks : List Check := []
deriving Inhabited

/-- A node. -/
inductive Node where
  | string (head : Head)
  | number (head : Head)
  | boolean (head : Head)
  | null (head : Head)
  | array (head : Head) (items : Option Node)
  | object (head : Head) (fields : List (String × Node))
  | enumeration (head : Head) (values : List Value)
  | literal (head : Head) (values : List Value)
  /-- One of several; a discriminator names the field that tells which. -/
  | union (head : Head) (variants : List Node) (discriminator : Option String)
  /-- A reference to a type that is not written out. -/
  | lazy (head : Head) (typeName : Option String)
  | other (head : Head) (typeName : Option String)
deriving Inhabited

namespace Node

/-- The modifiers of a node. -/
def head : Node → Head
  | string h | number h | boolean h | null h => h
  | array h _ | object h _ | enumeration h _ | literal h _ | union h _ _ | lazy h _ | other h _ => h

/-- The node with other modifiers. -/
def withHead (h : Head) : Node → Node
  | string _ => string h
  | number _ => number h
  | boolean _ => boolean h
  | null _ => null h
  | array _ items => array h items
  | object _ fields => object h fields
  | enumeration _ values => enumeration h values
  | literal _ values => literal h values
  | union _ variants discriminator => union h variants discriminator
  | lazy _ name => lazy h name
  | other _ name => other h name

/-- The name of a node's kind. -/
def kindName : Node → String
  | string _ => "string"
  | number _ => "number"
  | boolean _ => "boolean"
  | null _ => "null"
  | array _ _ => "array"
  | object _ _ => "object"
  | enumeration _ _ => "enum"
  | literal _ _ => "literal"
  | union _ _ discriminator =>
    match discriminator with
    | some d => if d = "" then "union" else "discriminated_union"
    | none => "union"
  | lazy _ _ => "lazy"
  | other _ _ => "other"

end Node

end TypeWire
