import TypeWire.Model.Field
import TypeWire.TypeExpr.Named

/-!
# Declarations and scopes

Types are declared one after the other: models, enumerations, plain names for types. `Scope.declare`
adds a declaration. A model inherits the fields of its bases; their order follows the linear order of
its ancestors, farthest first, and a field declared anew keeps its place (`ModelDecl.fieldNames`).

A model can be named before it is declared. `Scope.models` resolves such names once all declarations
are known: first, field by field, what the model itself and the builtin types can answer; then, for a
whole model at once, what all declarations can answer. A model with a name that nothing answers keeps
the names of that second step.
-/

namespace TypeWire

/-- A model as it is declared. -/
structure ModelDecl where
  name : String
  fields : List FieldDecl := []
  doc : Option String := none
  bases : List String := []
  style : Option NameStyle := none
deriving Inhabited

/-- A model with its fields in order. -/
structure Model where
  name : String
  doc : Option String
  fields : List (Field × TypeExpr)
deriving Inhabited

/-- A declared model within its scope: the linear order of its ancestors, itself first, the names of
the fields that it declares itself, and all its fields. -/
structure ModelEntry where
  name : String
  doc : Option String
  ancestors : List String
  own : List String
  style : Option NameStyle
  fields : List FieldDecl
deriving Inhabited

/-- The declarations made so far: the type that each name denotes, and the models. -/
structure Scope where
  types : List (String × TypeExpr) := []
  entries : List ModelEntry := []
deriving Inhabited

/-! ## Names within types -/

namespace TypeExpr

mutual

/-- The names in a type that stand for types not known where it was written. -/
def forwardNames : TypeExpr → List String
  | .forward name => [name]
  | .list _ item => forwardNames item
  | .union ms => forwardNamesAll ms
  | .annotated base _ => forwardNames base
  | .generic _ _ args => forwardNamesAll args
  | .record _ _ fields => forwardNamesFields fields
  | _ => []

/-- The forward names in a list of types. -/
def forwardNamesAll : List TypeExpr → List String
  | [] => []
  | t :: ts => forwardNames t ++ forwardNamesAll ts

/-- The forward names in a list of fields. -/
def forwardNamesFields : List (Field × TypeExpr) → List String
  | [] => []
  | (_, t) :: rest => forwardNames t ++ forwardNamesFields rest

end

mutual

/-- Puts types in place of forward names and restores the normal form around them. -/
def substitute (find : String → Option TypeExpr) : TypeExpr → TypeExpr
  | .forward name => (find name).getD (.forward name)
  | .list form item => .list form (substitute find item)
  | .union ms => unionOf (substituteAll find ms)
  | .annotated base metadata => annotate (substitute find base) metadata
  | .generic written shown args => .generic written shown (substituteAll find args)
  | .record name doc fields => .record name doc (substituteFields find fields)
  | t => t

/-- Puts types in place of forward names in a list of types. -/
def substituteAll (find : String → Option TypeExpr) : List TypeExpr → List TypeExpr
  | [] => []
  | t :: ts => substitute find t :: substituteAll find ts

/-- Puts types in place of forward names in a list of fields. -/
def substituteFields (find : String → Option TypeExpr) :
    List (Field × TypeExpr) → List (Field × TypeExpr)
  | [] => []
  | (f, t) :: rest => (f, substitute find t) :: substituteFields find rest

end

/-- The types whose names are known everywhere. -/
def builtin? (name : String) : Option TypeExpr :=
  if ["str", "int", "float", "bool", "list", "bytes", "bytearray", "complex", "object", "dict",
      "tuple", "set", "frozenset"].contains name then named? name
  else if name = "None" then some .null
  else none

end TypeExpr

/-- The declaration of a field with the names in its type answered, if all of them can be. -/
def FieldDecl.answered (find : String → Option TypeExpr) (d : FieldDecl) : FieldDecl :=
  if d.type.forwardNames.all fun name => (find name).isSome then
    { d with type := d.type.substitute find }
  else d

namespace ModelDecl

/-- The fields of its records that a model declares itself. -/
def ownFields (d : ModelDecl) : List FieldDecl := d.fields.filter fun f => !f.isOfClass

/-- The types that a model knows by name where it is declared. -/
def known (d : ModelDecl) (name : String) : Option TypeExpr :=
  if name = d.name then some (.model d.name) else TypeExpr.builtin? name

end ModelDecl

/-! ## The linear order of ancestors -/

/-- Whether a name stands behind the head of one of the lists. -/
def standsBehind (name : String) (orders : List (List String)) : Bool :=
  orders.any fun order => order.tail.contains name

/-- Merges linear orders: always the first head that stands behind no head. The fuel bounds the
length of the result; each name is taken once. -/
def mergeOrders : Nat → List (List String) → List String
  | 0, _ => []
  | fuel + 1, orders =>
    let heads := orders.filterMap List.head?
    match heads.find? fun name => !standsBehind name orders with
    | none => []
    | some name =>
      name :: mergeOrders fuel
        (orders.map fun order => if order.head? = some name then order.tail else order)

/-- The ancestors of a model in linear order, itself first. -/
def linearOrder (name : String) (bases : List String) (ancestors : List (List String)) :
    List String :=
  let orders := ancestors ++ [bases]
  name :: mergeOrders (orders.flatten.length) orders

namespace Scope

/-- The entry of a model. -/
def entry? (s : Scope) (name : String) : Option ModelEntry :=
  s.entries.find? fun e => e.name == name

/-- The type that a name denotes. -/
def type? (s : Scope) (name : String) : Option TypeExpr := s.types.lookup name

/-- The scope with one name more for a type; a name declared again denotes the later type. -/
def declareType (s : Scope) (name : String) (type : TypeExpr) : Scope :=
  { s with types := (name, type) :: s.types }

/-- The names of a model's fields in order: through the ancestors, farthest first, each name where it
first stands. -/
def fieldNames (s : Scope) (ancestors own : List String) : List String :=
  let inherited := ancestors.tail.reverse.flatMap fun a => ((s.entry? a).map (·.own)).getD []
  (inherited ++ own).eraseDups

/-! ### What a declared model takes from where -/

/-- The entries of a model's bases. -/
def bases (s : Scope) (d : ModelDecl) : List ModelEntry := d.bases.filterMap s.entry?

/-- The name style of a model: its own, else the one of the last base that has one. -/
def style (s : Scope) (d : ModelDecl) : Option NameStyle :=
  d.style <|> ((s.bases d).reverse.filterMap (·.style)).head?

/-- The declaration of a field: the model's own, else the one of the first base that has it. -/
def declaration? (s : Scope) (d : ModelDecl) (name : String) : Option FieldDecl :=
  (d.ownFields.find? fun f => f.name == name) <|>
    (s.bases d).findSome? fun b => b.fields.find? fun f => f.name == name

/-- The declaration of a field as the model holds it: with the model's style among its styles. -/
def field? (s : Scope) (d : ModelDecl) (name : String) : Option FieldDecl :=
  (s.declaration? d name).map fun f =>
    ({ f with styles := f.styles ++ (s.style d).toList } : FieldDecl).answered d.known

/-- The entry that a model gets where it is declared. -/
def declaredEntry (s : Scope) (d : ModelDecl) : ModelEntry :=
  let ancestors := linearOrder d.name d.bases ((s.bases d).map (·.ancestors))
  let own := d.ownFields.map (·.name)
  ⟨d.name, d.doc, ancestors, own, s.style d, (s.fieldNames ancestors own).filterMap (s.field? d)⟩

/-- The scope with a model more. -/
def declareModel (s : Scope) (d : ModelDecl) : Scope where
  types := (d.name, .model d.name) :: s.types
  entries := s.entries ++ [s.declaredEntry d]

/-! ### Names that are declared later -/

/-- The fields of a model with the names resolved that all declarations together can answer, if they
answer every name that is left. -/
def resolveFields (s : Scope) (fields : List FieldDecl) : List FieldDecl :=
  let find (name : String) : Option TypeExpr := s.type? name <|> TypeExpr.builtin? name
  if fields.all fun f => f.type.forwardNames.all fun name => (find name).isSome then
    fields.map fun f => { f with type := f.type.substitute find }
  else fields

/-- The declared models, with all names resolved that can be. -/
def models (s : Scope) : List Model :=
  s.entries.map fun e => ⟨e.name, e.doc, (s.resolveFields e.fields).map FieldDecl.resolve⟩

end Scope

end TypeWire
