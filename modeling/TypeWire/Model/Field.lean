import TypeWire.Model.NameStyle
import TypeWire.TypeExpr.Basic

/-!
# Declared fields

A field is declared by a name and a type, and possibly a specification or a default. What is known
of it (`Field`) is gathered from the specification and from those among the metadata of its type: of
several, the last that says something counts, and the declaration's own specification overrides
them all. Restrictions are not overridden but collected.
-/

namespace TypeWire

/-- A field as it is declared, with the name styles of the models that hold it, the first that held
it first. -/
structure FieldDecl where
  name : String
  type : TypeExpr
  spec : Option FieldSpec := none
  default : Option Value := none
  styles : List NameStyle := []
deriving Inhabited

namespace FieldSpec

/-- The specification that a later one leaves of an earlier one: what the later says, else what the
earlier says. Restrictions are not merged. -/
def overriddenBy (earlier later : FieldSpec) : FieldSpec where
  description := later.description <|> earlier.description
  dataName := later.dataName <|> earlier.dataName
  hasPartialAlias := later.hasPartialAlias || earlier.hasPartialAlias
  aliasPriority := later.aliasPriority <|> earlier.aliasPriority
  discriminator := later.discriminator <|> earlier.discriminator
  default := later.default <|> earlier.default

/-- The priority of the alias: two if some alias is given and no priority. -/
def priority? (s : FieldSpec) : Option Nat :=
  if s.dataName.join.isSome || s.hasPartialAlias then some (s.aliasPriority.getD 2)
  else s.aliasPriority

end FieldSpec

namespace Meta

/-- The specification in an item of metadata. -/
def spec? : Meta → Option FieldSpec
  | .field s => some s
  | _ => none

/-- The item as it stands among the metadata of a field: a specification leaves its restrictions. -/
def ofField : Meta → List Meta
  | .field s => s.restrictions.map .restriction
  | m => [m]

end Meta

namespace FieldDecl

/-- The type without its outer metadata and without the mark of a constant, and the metadata. -/
def split : TypeExpr → TypeExpr × List Meta
  | .annotated base metadata =>
    let (inner, more) := split base
    (inner, more ++ metadata)
  | .generic "Final" _ [t] => split t
  | t => (t, [])

/-- Whether the declaration has a default. -/
def hasDefault (d : FieldDecl) : Bool :=
  d.default.isSome || d.spec.any fun s => s.default.isSome

/-- Whether the declaration is one of the class and not of its records: a class variable, or a
constant that has its value. -/
def isOfClass (d : FieldDecl) : Bool :=
  match d.type with
  | .generic "ClassVar" _ _ => true
  | .generic "Final" _ _ => d.hasDefault
  | _ => false

/-- All that the declaration specifies. -/
def merged (d : FieldDecl) : FieldSpec :=
  let inner := (split d.type).2.filterMap Meta.spec?
  let outer : FieldSpec := { d.spec.getD {} with
    default := (d.spec.getD {}).default <|> d.default.map Default.value }
  (inner.foldl FieldSpec.overriddenBy {}).overriddenBy outer

/-- The alias after the name styles: a style names a field that has no alias, or one whose alias has
the lowest priority, and what it makes has the lowest priority. -/
def aliasAfter (name : String) : List NameStyle → Option Nat → Option String → Option String
  | [], _, known => known
  | style :: styles, priority, known =>
    if priority.all (· ≤ 1) then aliasAfter name styles (some 1) (some (style.apply name))
    else aliasAfter name styles priority (known <|> some (style.apply name))

/-- The field that a declaration gives, with its type. -/
def resolve (d : FieldDecl) : Field × TypeExpr :=
  let (base, metadata) := split d.type
  let spec := d.merged
  let own := ((d.spec.map FieldSpec.restrictions).getD []).map Meta.restriction
  ({ name := d.name
     dataName := aliasAfter d.name d.styles spec.priority? spec.dataName.join
     description := spec.description.join
     discriminator := spec.discriminator.join
     metadata := own ++ metadata.flatMap Meta.ofField
     default := spec.default }, base)

end FieldDecl

end TypeWire
