import TypeWire.Node.Basic
import TypeWire.Schema.Decode
import TypeWire.Text.Blank

/-!
# Schemas of nodes

`Schema.ofNode` writes a node as a schema, or names the first thing in it that schemas cannot
express: first the node itself, then its children in order. Of several bounds of one kind the last
is written; a bound that is no number of the right kind is found only after the children.
-/

namespace TypeWire

/-- Something that schemas cannot express. -/
inductive Unsupported where
  | recursive (typeName : Option String)
  | type (typeName : Option String)
  /-- A check that nodes of this kind cannot have. -/
  | check (label kind : String)
  | emptyEnumeration
  | enumerationValue (className : String)
  | literalValue (typeName : String)
deriving DecidableEq, Repr, Inhabited

/-- The message that names what is unsupported. -/
def Unsupported.message : Unsupported → String
  | recursive name => "Recursive schemas are not supported: " ++ name.getD "None"
  | type name => "Unsupported source type: " ++ name.getD "None"
  | check label kind => "Unsupported " ++ label ++ " check: " ++ kind
  | emptyEnumeration => "Unsupported enum: no values"
  | enumerationValue className => "Unsupported enum value type: " ++ className
  | literalValue typeName =>
    "Unsupported literal type. Gemini doesn't support " ++ typeName ++ " literals."

/-- Why a node has no schema. -/
inductive NodeError where
  | unsupported (u : Unsupported)
  /-- A list whose items are not described. -/
  | undescribedItems
  /-- Bounds that a schema cannot hold. -/
  | invalid (issues : List Issue)
deriving DecidableEq, Repr, Inhabited

/-- The message about a node that has no schema; the issues are listed apart from it. -/
def NodeError.message : NodeError → String
  | unsupported u => u.message
  | undescribedItems => "'NoneType' object has no attribute 'kind'"
  | invalid _ => "Invalid Vertex schema"

namespace Check

/-- The checks that a text can have: those that make it a date or a time. -/
def ofString : List String := ["date", "date-time"]

/-- The checks that a number can have. -/
def ofNumber : List String := ["int", "min", "max"]

/-- The checks that a list can have. -/
def ofArray : List String := ["min_length", "max_length"]

/-- The first check that is not allowed is unsupported. -/
def reject (allowed : List String) (label : String) (checks : List Check) :
    Except NodeError Unit :=
  match checks.find? fun c => !allowed.contains c.kind with
  | some c => .error (.unsupported (.check label c.kind))
  | none => .ok ()

/-- The value of the last check of a kind. -/
def last? (kind : String) (checks : List Check) : Option Value :=
  (checks.reverse.find? fun c => c.kind == kind).map (·.value)

/-- Whether there is a check of a kind. -/
def has (kind : String) (checks : List Check) : Bool := checks.any fun c => c.kind == kind

end Check

namespace Schema

/-- The name of a literal's type in messages. -/
def literalTypeName : Value → String
  | .bool _ => "boolean"
  | .int _ | .float _ => "number"
  | v => v.className

/-- The texts that values are, or the first value that is none. -/
def textsOf : List Value → Except Value (List String)
  | [] => .ok []
  | v :: vs =>
    match v.text? with
    | some s => (textsOf vs).map (s :: ·)
    | none => .error v

/-- Reads a bound under the name of its field; a bound that is not given or null is absent. -/
def bound {α : Type} (read : Value → Except Fault (α × Match)) (name : String)
    (value : Option Value) : Except (List Issue) (Option α) :=
  match optional (scalar read) (value.getD .null) with
  | .ok x => .ok x
  | .error issues => .error (Issue.under (.key name) issues)

/-- Two bounds, with the issues of both. -/
def bounds {α : Type} (a b : Except (List Issue) α) : Except NodeError (α × α) :=
  match a, b with
  | .ok x, .ok y => .ok (x, y)
  | a, b => .error (.invalid (issuesOf a ++ issuesOf b))

/-- The facets with the modifiers of a node. -/
def modified (h : Head) (f : Facets) : Facets :=
  { f with
    description := nonEmpty h.description
    nullable := if h.nullable then some true else none }

/-- The schema of a text: a time if a check says so, else a date if one says so. -/
def ofString (h : Head) : Except NodeError Schema := do
  Check.reject Check.ofString "string" h.checks
  let format :=
    if Check.has "date-time" h.checks then some "date-time"
    else if Check.has "date" h.checks then some "date"
    else none
  return leaf (modified h { type := some .string, format })

/-- The schema of a number. -/
def ofNumber (h : Head) : Except NodeError Schema := do
  Check.reject Check.ofNumber "number" h.checks
  let (minimum, maximum) ← bounds
    (bound Coercion.float "minimum" (Check.last? "min" h.checks))
    (bound Coercion.float "maximum" (Check.last? "max" h.checks))
  let type := if Check.has "int" h.checks then SchemaType.integer else .number
  return leaf (modified h { type := some type, minimum, maximum })

/-- The schema of an enumeration. -/
def ofEnumeration (h : Head) (values : List Value) : Except NodeError Schema := do
  Check.reject [] "enum" h.checks
  if values.isEmpty then throw (.unsupported .emptyEnumeration)
  match textsOf values with
  | .ok texts => return leaf (modified h { type := some .string, enum := some texts })
  | .error v => throw (.unsupported (.enumerationValue v.className))

/-- The schema of a literal. -/
def ofLiteral (h : Head) (values : List Value) : Except NodeError Schema := do
  Check.reject [] "literal" h.checks
  match textsOf values with
  | .ok texts => return leaf (modified h { type := some .string, enum := some texts })
  | .error v => throw (.unsupported (.literalValue (literalTypeName v)))

mutual

/-- The schema of a node. -/
def ofNode : Node → Except NodeError Schema
  | .string h => ofString h
  | .number h => ofNumber h
  | .boolean h => do
    Check.reject [] "boolean" h.checks
    return leaf (modified h { type := some .boolean })
  | .null h => do
    Check.reject [] "null" h.checks
    return leaf (modified { h with nullable := true } { type := some .string })
  | .enumeration h values => ofEnumeration h values
  | .literal h values => ofLiteral h values
  | .array h items => do
    Check.reject Check.ofArray "array" h.checks
    match items with
    | none => throw .undescribedItems
    | some item =>
      let s ← ofNode item
      let (minItems, maxItems) ← bounds
        (bound Coercion.int "min_items" (Check.last? "min_length" h.checks))
        (bound Coercion.int "max_items" (Check.last? "max_length" h.checks))
      return node (modified h { type := some .array, minItems, maxItems }) (some s) none none
  | .object h fields => do
    Check.reject [] "object" h.checks
    let properties := dictOfList (← ofFields fields)
    let required := (fields.filter fun (_, n) => !n.head.isOptional).map (·.1)
    let f : Facets :=
      { type := some .object, required := some required
        propertyOrdering := some (properties.map (·.1)) }
    return node (modified h f) none (some properties) none
  | .union h variants _ => do
    Check.reject [] "union" h.checks
    let members ← ofVariants variants
    return node (modified h {}) none none (some members)
  | .lazy _ name => throw (.unsupported (.recursive name))
  | .other _ name => throw (.unsupported (.type name))

/-- The schemas of fields, under their names. -/
def ofFields : List (String × Node) → Except NodeError (List (String × Schema))
  | [] => .ok []
  | (name, n) :: rest => do
    let s ← ofNode n
    let ss ← ofFields rest
    return (name, s) :: ss

/-- The schemas of the variants of a union. -/
def ofVariants : List Node → Except NodeError (List Schema)
  | [] => .ok []
  | n :: rest => do
    let s ← ofNode n
    let ss ← ofVariants rest
    return s :: ss

end

end Schema

end TypeWire
