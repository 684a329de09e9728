import TypeWire.Schema.Encode
import TypeWire.Schema.Equality
import TypeWire.Schema.OfType
import TypeWire.TypeExpr.OfSchema
import TypeWire.Value.Display

/-!
# Sessions

A session keeps schemas in named slots. Each step reads, makes or compares schemas; a step that fails
leaves all slots as they are (`Session.store`), and no step changes a schema, since schemas cannot be
changed. What types were put together is remembered from one step to the next.
-/

namespace TypeWire

/-- Why a part of a schema cannot be reached. -/
inductive AccessError where
  | unknownAttribute (name : String)
  | missingKey (key : Value)
  /-- A place beyond the end of a sequence of a class. -/
  | missingIndex (className : String)
  /-- A place in a sequence of a class that is given by something else than a whole number. -/
  | badIndex (className given : String)
  | unhashable (className : String)
  /-- A value that has no parts. -/
  | notSubscriptable (className : String)
  /-- A value that is no schema or no list, and lacks an operation of these. -/
  | lacksOperation (className operation : String)
deriving Inhabited

/-- The message about a part that cannot be reached. -/
def AccessError.message : AccessError → String
  | unknownAttribute name => "'VertexSchema' object has no attribute " ++ Text.quoted name
  | missingKey key => key.literalForm
  | missingIndex c => (if c = "str" then "string" else c) ++ " index out of range"
  | badIndex c given =>
    if c = "str" then "string indices must be integers, not " ++ Text.quoted given
    else c ++ " indices must be integers or slices, not " ++ given
  | unhashable c => "unhashable type: " ++ Text.quoted c
  | notSubscriptable c => Text.quoted c ++ " object is not subscriptable"
  | lacksOperation c operation =>
    Text.quoted c ++ " object has no attribute " ++ Text.quoted operation

/-- Why a step fails. -/
inductive StepError where
  | emptySlot (slot : String)
  | malformed (issues : List Issue)
  /-- Arguments that make no schema. -/
  | invalid (issues : List Issue)
  | node (e : NodeError)
  | schema (e : SchemaError)
  | access (e : AccessError)
deriving Inhabited

/-- A session: the schemas in its slots, and what is remembered of the types that were rebuilt. -/
structure Session where
  slots : List (String × Schema) := []
  types : TypeCache := {}
deriving Inhabited

namespace Schema

/-- The attribute of a schema; schemas within it are shown by their class. -/
def attribute? (s : Schema) (name : String) : Option Value :=
  let shown : Value := .object "VertexSchema"
  let texts (ts : Option (List String)) : Value := (ts.map textList).getD .null
  (WireKey.ofAttributeName? name).map fun key =>
    match key with
    | .type => (s.facets.type.map fun t => Value.str t.word).getD .null
    | .format => (s.facets.format.map Value.str).getD .null
    | .description => (s.facets.description.map Value.str).getD .null
    | .nullable => (s.facets.nullable.map Value.bool).getD .null
    | .items => (s.items.map fun _ => shown).getD .null
    | .enum => texts s.facets.enum
    | .properties =>
      (s.properties.map fun ps => Value.dict (ps.map fun (k, _) => (.str k, shown))).getD .null
    | .required => texts s.facets.required
    | .sample => s.facets.sample.getD .null
    | .propertyOrdering => texts s.facets.propertyOrdering
    | .anyOf => (s.anyOf.map fun ms => Value.list (ms.map fun _ => shown)).getD .null
    | .minItems => (s.facets.minItems.map Value.int).getD .null
    | .maxItems => (s.facets.maxItems.map Value.int).getD .null
    | .minimum => (s.facets.minimum.map Value.float).getD .null
    | .maximum => (s.facets.maximum.map Value.float).getD .null

/-- The place of an item in a sequence of a class, counted from its end if it is negative. -/
def place (className : String) (length : Nat) (key : Value) : Except AccessError Nat :=
  match key.number? with
  | some (.whole i) =>
    let i := if i < 0 then i + length else i
    if 0 ≤ i ∧ i < length then .ok i.toNat else .error (.missingIndex className)
  | _ => .error (.badIndex className key.className)

/-- The part of a value under a key or at a place. -/
def part (v key : Value) : Except AccessError Value :=
  match v with
  | .list items | .tuple items =>
    (place v.className items.length key).map fun i => items.getD i .null
  | .str s => (place v.className s.length key).map fun i => .str (s.toList.getD i ' ').toString
  | .dict entries =>
    match key with
    | .list _ | .dict _ => .error (.unhashable key.className)
    | _ =>
      match entries.find? fun (k, _) => k.equals key with
      | some (_, item) => .ok item
      | none => .error (.missingKey key)
  | v => .error (.notSubscriptable v.className)

/-- A schema within a schema: the attribute itself, or the part of it under a key or at a place. -/
def child (s : Schema) (name : String) (key : Option Value) : Except AccessError Schema :=
  match s.attribute? name with
  | none => .error (.unknownAttribute name)
  | some v =>
    let found : Except AccessError (Value × Option Schema) :=
      match key, WireKey.ofAttributeName? name with
      | none, field => .ok (v, if field = some .items then s.items else none)
      | some k, some .properties => do
        let item ← part v k
        return (item, k.text?.bind fun t => (s.properties.getD []).lookup t)
      | some k, some .anyOf => do
        let members := s.anyOf.getD []
        let item ← part v k
        return (item, members[← place v.className members.length k]?)
      | some k, _ => (part v k).map fun item => (item, none)
    match found with
    | .ok (_, some inner) => .ok inner
    | .ok (item, none) => .error (.lacksOperation item.className "to_dict")
    | .error e => .error e

end Schema

namespace Session

/-- The schema in a slot. -/
def get (s : Session) (slot : String) : Except StepError Schema :=
  match s.slots.lookup slot with
  | some x => .ok x
  | none => .error (.emptySlot slot)

/-- Puts the schema that a step makes into a slot; a step that fails changes nothing. -/
def store (s : Session) (slot : String) (made : Except StepError Schema) :
    Session × Except StepError Schema :=
  match made with
  | .ok x => ({ s with slots := putEntry slot x s.slots }, .ok x)
  | .error e => (s, .error e)

/-- Reads a schema from wire data. -/
def parse (data : Value) : Except StepError Schema :=
  match Schema.decode data with
  | .ok x => .ok x
  | .error issues => .error (.malformed issues)

/-- Makes a schema from named arguments. -/
def construct (arguments : Value) : Except StepError Schema :=
  match Schema.decode arguments with
  | .ok x => .ok x
  | .error issues => .error (.invalid issues)

/-- The schema of a type over declared models. -/
def forward (models : List Model) (t : TypeExpr) : Except StepError Schema :=
  match Schema.ofType models t with
  | .ok x => .ok x
  | .error e => .error (.node e)

/-- The type of the schema in a slot. -/
def reverse (s : Session) (slot name : String) : Session × Except StepError TypeExpr :=
  match s.get slot with
  | .error e => (s, .error e)
  | .ok x =>
    let (made, types) := TypeExpr.rebuild name x s.types
    ({ s with types }, made.mapError .schema)

/-- The schema that becomes of the schema in a slot when it is rebuilt into a type. -/
def reforward (s : Session) (slot name : String) : Session × Except StepError Schema :=
  let (s, made) := s.reverse slot name
  (s, made >>= forward [])

/-- A schema within the schema in a slot. -/
def child (s : Session) (slot field : String) (key : Option Value) : Except StepError Schema := do
  match (← s.get slot).child field key with
  | .ok x => return x
  | .error e => throw (.access e)

/-- The attribute of the schema in a slot. -/
def read (s : Session) (slot field : String) : Except StepError Value := do
  match (← s.get slot).attribute? field with
  | some v => return v
  | none => throw (.access (.unknownAttribute field))

/-- Setting an attribute of the schema in a slot, which always fails. -/
def setAttribute (s : Session) (slot field : String) : Except StepError Unit := do
  let _ ← s.get slot
  throw (.invalid [⟨[.key field], .frozenInstance⟩])

/-- Whether the schemas in two slots are equal. A schema equals itself. -/
def equal (s : Session) (slot other : String) : Except StepError Bool := do
  let x ← s.get slot
  let y ← s.get other
  return slot == other || x.equals y

/-- The wire form of the schema in a slot with one item more in a list of it. The schema stays. -/
def extendedWire (s : Session) (slot field : String) (item : Value) : Except StepError Value := do
  match (← s.get slot).encode with
  | .dict entries =>
    match Value.lookup field entries with
    | some (.list items) =>
      return .dict (entries.map fun (k, v) =>
        if k.text? = some field then (k, .list (items ++ [item])) else (k, v))
    | some v => throw (.access (.lacksOperation v.className "append"))
    | none => throw (.access (.missingKey (.str field)))
  | v => return v

end Session

end TypeWire
