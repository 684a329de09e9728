import TypeWire.TypeExpr.Meta

/-!
# Type expressions

The types that schemas are read from and rebuilt into. A type expression is a tree of scalars, lists,
unions, literals, annotated types and records; a declared model stands in it by name, a record by its
fields.

Three constructions keep expressions in normal form, and everything that builds types goes through
them: `unionOf` flattens unions, drops members that are there already and never leaves a union of
one member; `literalOf` drops repeated values; `annotate` puts all layers of metadata into one,
inner items first.
-/

namespace TypeWire

/-- The scalar types that schemas can express. -/
inductive Scalar where
  | str
  | int
  | float
  | bool
  | datetime
  | date
deriving DecidableEq, Repr, Inhabited

/-- A closed set of named constants. Constants with an equal value are one constant. -/
structure Enumeration where
  name : String
  base : EnumBase
  members : List (String × Value)
deriving Inhabited

/-- The ways of writing a list type, which denote different types with one meaning. -/
inductive ListForm where
  | builtin
  | generic
deriving DecidableEq, Repr, Inhabited

/-- What is known of a field beside its type. A field without a default is required. -/
structure Field where
  name : String
  /-- The alias: the name that the field has in data. -/
  dataName : Option String := none
  description : Option String := none
  discriminator : Option String := none
  metadata : List Meta := []
  default : Option Default := none
deriving Inhabited

/-- A type expression. -/
inductive TypeExpr where
  | scalar (s : Scalar)
  /-- The type of the null value. -/
  | null
  /-- Any other type, as it is written and as messages show it. -/
  | other (written shown : String)
  | enumeration (e : Enumeration)
  /-- A declared model. -/
  | model (name : String)
  | bareList (form : ListForm)
  | list (form : ListForm) (item : TypeExpr)
  | union (members : List TypeExpr)
  | literal (values : List Value)
  | annotated (base : TypeExpr) (metadata : List Meta)
  /-- A parametrised type, as it is written and as messages show it. -/
  | generic (written shown : String) (arguments : List TypeExpr)
  /-- A name that stands for a type not known here. -/
  | forward (name : String)
  /-- A model given by its contents. -/
  | record (name : String) (doc : Option String) (fields : List (Field × TypeExpr))
deriving Inhabited

namespace Field

/-- The name of the field in data: its alias, unless that is empty. -/
def wireName (f : Field) : String :=
  match f.dataName with
  | some a => if a = "" then f.name else a
  | none => f.name

/-- Whether data may leave the field out. -/
def isOptional (f : Field) : Bool := f.default.isSome

end Field

/-! ## Equality -/

namespace Restriction

/-- Whether two restrictions are the same, with bounds compared by meaning. -/
def equals : Restriction → Restriction → Bool
  | .ge a, .ge b | .gt a, .gt b | .le a, .le b | .lt a, .lt b => a.equals b
  | .minLength a, .minLength b | .maxLength a, .maxLength b => a.equals b
  | .multipleOf a, .multipleOf b => a.equals b
  | .strict, .strict => true
  | .named a, .named b =>
    a.length == b.length && (a.zip b).all fun ((k, v), (l, w)) => k == l && v.equals w
  | .tagged a v, .tagged b w => a == b && v.equals w
  | _, _ => false

end Restriction

/-- Whether two optional values are both absent or equal. -/
def optionEquals : Option Value → Option Value → Bool
  | none, none => true
  | some a, some b => a.equals b
  | _, _ => false

namespace Meta

mutual

/-- Whether two items of metadata are the same. A field specification equals no other. -/
def equals : Meta → Meta → Bool
  | .restriction a, .restriction b => a.equals b
  | .discriminator a, .discriminator b => a == b
  | .interval a b c d, .interval a' b' c' d' =>
    optionEquals a a' && optionEquals b b' && optionEquals c c' && optionEquals d d'
  | .length a b, .length a' b' => a.equals a' && b.equals b'
  | .stringRestrictions a b c d e f, .stringRestrictions a' b' c' d' e' f' =>
    optionEquals a a' && optionEquals b b' && optionEquals c c' && optionEquals d d' &&
      optionEquals e e' && optionEquals f f'
  | .group as, .group bs => allEqual as bs
  | _, _ => false

/-- Whether two lists of metadata are the same item by item. -/
def allEqual : List Meta → List Meta → Bool
  | [], [] => true
  | a :: as, b :: bs => equals a b && allEqual as bs
  | _, _ => false

end

end Meta

namespace TypeExpr

/-- Whether a type is that of the null value. -/
def isNull : TypeExpr → Bool
  | .null => true
  | _ => false

/-- Whether two literal types have the same values, in any order. -/
def sameValues (vs ws : List Value) : Bool :=
  vs.all (fun v => ws.any v.identical) && ws.all (fun w => vs.any w.identical)

mutual

/-- Whether two type expressions denote the same type. Unions and literals are compared as sets,
declared types by name; a record is a type of its own and equals no other. -/
def equals : TypeExpr → TypeExpr → Bool
  | .scalar a, .scalar b => a == b
  | .null, .null => true
  | .other a _, .other b _ => a == b
  | .enumeration a, .enumeration b => a.name == b.name
  | .model a, .model b => a == b
  | .bareList a, .bareList b => a == b
  | .list f a, .list g b => f == g && equals a b
  | .union as, .union bs => as.length == bs.length && membersWithin as bs
  | .literal vs, .literal ws => sameValues vs ws
  | .annotated a ms, .annotated b ns => equals a b && Meta.allEqual ms ns
  | .generic f _ as, .generic g _ bs => f == g && allEqual as bs
  | .forward a, .forward b => a == b
  | _, _ => false

/-- Whether each type of the first list is among those of the second. -/
def membersWithin : List TypeExpr → List TypeExpr → Bool
  | [], _ => true
  | a :: as, bs => bs.any (fun b => equals a b) && membersWithin as bs

/-- Whether two lists of types are equal item by item. -/
def allEqual : List TypeExpr → List TypeExpr → Bool
  | [], [] => true
  | a :: as, b :: bs => equals a b && allEqual as bs
  | _, _ => false

end

/-! ## Normal forms -/

/-- The members that a type brings into a union. -/
def members : TypeExpr → List TypeExpr
  | .union ms => ms
  | t => [t]

/-- The types of a list without those equal to an earlier one, given the earlier ones. -/
def distinctFrom (earlier : List TypeExpr) : List TypeExpr → List TypeExpr
  | [] => []
  | t :: ts =>
    if earlier.any (fun e => t.equals e) then distinctFrom earlier ts
    else t :: distinctFrom (earlier ++ [t]) ts

/-- The types of a list, each once, where it first stands. -/
def distinct (ts : List TypeExpr) : List TypeExpr := distinctFrom [] ts

/-- The union of types: flat, without repetition, and the member itself if there is one only. -/
def unionOf (ts : List TypeExpr) : TypeExpr :=
  match distinct (ts.flatMap members) with
  | [t] => t
  | ms => .union ms

/-- The type that also has the null value. -/
def optionalOf (t : TypeExpr) : TypeExpr := unionOf [t, .null]

/-- The values of a list without those identical to an earlier one, given the earlier ones. -/
def distinctValuesFrom (earlier : List Value) : List Value → List Value
  | [] => []
  | v :: vs =>
    if earlier.any v.identical then distinctValuesFrom earlier vs
    else v :: distinctValuesFrom (earlier ++ [v]) vs

/-- The type that has these values. -/
def literalOf (vs : List Value) : TypeExpr := .literal (distinctValuesFrom [] vs)

/-- Adds a layer of metadata outside those that the type has. -/
def annotate (t : TypeExpr) (metadata : List Meta) : TypeExpr :=
  match metadata, t with
  | [], _ => t
  | _, .annotated base inner => .annotated base (inner ++ metadata)
  | _, _ => .annotated t metadata

end TypeExpr

end TypeWire
