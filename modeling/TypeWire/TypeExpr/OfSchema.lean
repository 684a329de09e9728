import TypeWire.Model.Field
import TypeWire.Schema.Basic
import TypeWire.Text.Blank
import TypeWire.Text.Identifier
import TypeWire.TypeExpr.Construction
import TypeWire.Validator.OfType

/-!
# Types of schemas

`TypeExpr.convert` rebuilds a type from a schema. An object becomes a record whose fields have the
keys of its properties where these can name fields; any other key gets a made-up field name and is
kept as alias. Nested records are named by the way to them. A record is made with the validator of
its fields, so a bound that no validator can have is found as soon as the record is.

How types are put together is left open. `TypeExpr.rebuild` remembers what was put together before, as
it is done in a run; `TypeExpr.ofSchema` makes everything anew, so it depends on the schema alone.
-/

namespace TypeWire

/-- Why a schema has no type. -/
inductive SchemaError where
  /-- A list without a schema for its items. -/
  | undescribedItems
  /-- Neither a type nor members. -/
  | untyped
  /-- A record whose name holds the null character. -/
  | unusableName
  /-- A validator that cannot be built. -/
  | unbuildable (u : Unbuildable)
deriving DecidableEq, Repr, Inhabited

/-- The message about a malformed schema. -/
def SchemaError.message : SchemaError → String
  | undescribedItems => "ARRAY type schema must have 'items'"
  | untyped => "Unsupported or missing schema.type: None"
  | unusableName => "type name must not contain null characters"
  | unbuildable _ => ""

namespace FieldName

/-- The words of the language that fields are named in. -/
def keywords : List String :=
  ["False", "None", "True", "and", "as", "assert", "async", "await", "break", "class", "continue",
    "def", "del", "elif", "else", "except", "finally", "for", "from", "global", "if", "import", "in",
    "is", "lambda", "nonlocal", "not", "or", "pass", "raise", "return", "try", "while", "with",
    "yield"]

/-- The names that every record has already. -/
def taken : List String :=
  ["construct", "copy", "dict", "from_orm", "json", "mro", "parse_file", "parse_obj", "parse_raw",
    "register", "schema", "schema_json", "update_forward_refs", "validate"]

/-- Whether a key can name a field: an identifier that is no word of the language, not private, and
not taken. -/
def isUsable (key : String) : Bool :=
  Text.isIdentifier key && !keywords.contains key && !key.startsWith "_" &&
    !key.startsWith "model_" && !taken.contains key

/-- A made-up name for the field at a place, followed by so many underscores. -/
def candidate (place underscores : Nat) : String :=
  "field_" ++ toString place ++ String.ofList (List.replicate underscores '_')

/-- The made-up name for the field at a place: the one with the fewest underscores that is not in
use. One more candidate than there are names in use is enough. -/
def madeUp (place : Nat) (inUse : List String) : String :=
  let candidates := (List.range (inUse.length + 1)).map (candidate place)
  (candidates.find? fun c => !inUse.contains c).getD (candidate place (inUse.length + 1))

/-- The field names for keys from a place on, given the names in use: a usable key itself, for any
other a made-up name. -/
def assign : Nat → List String → List String → List String
  | _, _, [] => []
  | place, inUse, key :: keys =>
    if isUsable key then key :: assign (place + 1) inUse keys
    else
      let name := madeUp place inUse
      name :: assign (place + 1) (name :: inUse) keys

/-- The field names for the keys of an object. No made-up name is one of the usable keys. -/
def forKeys (keys : List String) : List String := assign 0 (keys.filter isUsable) keys

end FieldName

namespace TypeExpr

/-! ## Parts of the types -/

/-- Metadata with a description behind it, unless that is empty. -/
def withDescription (metadata : List Meta) (description : Option String) : List Meta :=
  match nonEmpty description with
  | some d => metadata ++ [.field { description := some (some d) }]
  | none => metadata

/-- The type of a text without description: the values of an enumeration that has some, else a time
or a text. -/
def textBase (f : Facets) : TypeExpr :=
  match f.enum.getD [] with
  | [] => scalar (if f.format = some "date-time" then .datetime else .str)
  | texts => literalOf (texts.map .str)

/-- The restrictions of a number to bounds. -/
def bounds (minimum maximum : Option Float) : List Meta :=
  (minimum.map fun x => Meta.restriction (.ge (.float x))).toList ++
    (maximum.map fun x => Meta.restriction (.le (.float x))).toList

/-- The restrictions of a list to lengths. -/
def lengths (shortest longest : Option Int) : List Meta :=
  (shortest.map fun n => Meta.restriction (.minLength (.int n))).toList ++
    (longest.map fun n => Meta.restriction (.maxLength (.int n))).toList

/-- The field for a property: a key that cannot name it is its alias, and a property that is not
required is null where it is absent. -/
def fieldOfProperty (required : List String) (name key : String) (t : TypeExpr) :
    Field × TypeExpr :=
  FieldDecl.resolve
    { name, type := t
      spec := some
        { dataName := if name = key then none else some (some key)
          default := if required.contains key then none else some (.value .null) } }

/-- The record of an object. -/
def recordOf (name : String) (f : Facets) (properties : List (String × TypeExpr)) :
    Except SchemaError TypeExpr :=
  let keys := properties.map (·.1)
  let fields := (FieldName.forKeys keys).zip properties |>.map fun (fieldName, key, t) =>
    fieldOfProperty (f.required.getD []) fieldName key t
  if name.contains '\x00' then .error .unusableName
  else
    match Validator.ofFields fields with
    | .error u => .error (.unbuildable u)
    | .ok _ => .ok (record name (nonEmpty f.description) fields)

/-! ## The conversion -/

section conversion

variable {m : Type → Type} [Monad m] [MonadExceptOf SchemaError m]
  (make : Construction → m TypeExpr)

/-- The type with restrictions and a description, if there are any. -/
def describe (t : TypeExpr) (description : Option String) (restrictions : List Meta) : m TypeExpr :=
  match withDescription restrictions description with
  | [] => return t
  | metadata => make (.annotated t metadata)

/-- The type with null, if the schema says so. -/
def allowNull (nullable : Option Bool) (t : TypeExpr) : m TypeExpr :=
  if nullable = some true then make (.optional t) else return t

/-- The type with what a schema says of it beside its shape. -/
def modify (f : Facets) (t : TypeExpr) (restrictions : List Meta) : m TypeExpr := do
  allowNull make f.nullable (← describe make t f.description restrictions)

mutual

/-- The type of a schema, put together by `make`; `name` is that of the record, if the schema is an
object. -/
def convert (name : String) : Schema → m TypeExpr
  | .node f items properties anyOf =>
    match anyOf with
    | some (s :: rest) => do
      let t ← convert (name ++ "_0") s
      let ts ← convertMembers name 1 rest
      modify make f (← make (.union (t :: ts))) []
    | _ =>
      match f.type with
      | some .string => modify make f (textBase f) []
      | some .number => modify make f (scalar .float) (bounds f.minimum f.maximum)
      | some .integer => modify make f (scalar .int) (bounds f.minimum f.maximum)
      | some .boolean => modify make f (scalar .bool) []
      | some .array =>
        match items with
        | some s => do
          let item ← convert (name ++ "_item") s
          modify make f (list .builtin item) (lengths f.minItems f.maxItems)
        | none => throw .undescribedItems
      | some .object => do
        let types ← match properties with
          | some ps => convertProperties name ps
          | none => pure []
        allowNull make f.nullable (← MonadExcept.ofExcept (recordOf name f types))
      | none => throw .untyped

/-- The types of the members of a union, from a place on. -/
def convertMembers (name : String) : Nat → List Schema → m (List TypeExpr)
  | _, [] => return []
  | i, s :: rest => do
    let t ← convert (name ++ "_" ++ toString i) s
    let ts ← convertMembers name (i + 1) rest
    return t :: ts

/-- The types of properties, under their keys. -/
def convertProperties (name : String) : List (String × Schema) → m (List (String × TypeExpr))
  | [] => return []
  | (key, s) :: rest => do
    let t ← convert (name ++ "_" ++ key) s
    let ts ← convertProperties name rest
    return (key, t) :: ts

end

end conversion

/-! ## With and without memory -/

/-- A construction that is looked up first among those that are remembered. -/
def recalled (c : Construction) : ExceptT SchemaError (StateM TypeCache) TypeExpr :=
  modifyGet fun cache => cache.make c

/-- The type of a schema, where equal constructions give one type, and what is remembered after it. -/
def rebuild (name : String) (s : Schema) (cache : TypeCache) :
    Except SchemaError TypeExpr × TypeCache :=
  (convert recalled name s).run.run cache

/-- A construction that is made anew. -/
def anew (c : Construction) : Except SchemaError TypeExpr := .ok c.result

/-- The type of a schema, where each construction is made anew. -/
def ofSchema (name : String) (s : Schema) : Except SchemaError TypeExpr := convert anew name s

/-- The types of the members of a union, where each construction is made anew. -/
def ofMembers (name : String) (place : Nat) (members : List Schema) :
    Except SchemaError (List TypeExpr) :=
  convertMembers anew name place members

/-- The types of properties, where each construction is made anew. -/
def ofProperties (name : String) (properties : List (String × Schema)) :
    Except SchemaError (List (String × TypeExpr)) :=
  convertProperties anew name properties

end TypeExpr

end TypeWire
