import TypeWire.Node.Basic
import TypeWire.Text.Docstring
import TypeWire.TypeExpr.Basic

/-!
# Reading a type expression

`Node.ofType` reads a type whose models are written out into a node. Layers of metadata are read
from the inside out: of several descriptions the outermost that is not empty counts, while checks
collect. A union of null and one other member is that member, made nullable; the checks around it
come first. A record without a description has the one of its docstring.
-/

namespace TypeWire

namespace Check

/-- The name under which a named restriction is recorded. -/
def nameOf (key : String) : String := if key = "pattern" then "regex" else key

end Check

namespace Restriction

/-- The checks that a restriction is recorded as. -/
def checks : Restriction → List Check
  | .ge v | .gt v => [⟨"min", v⟩]
  | .le v | .lt v => [⟨"max", v⟩]
  | .minLength v => [⟨"min_length", v⟩]
  | .maxLength v => [⟨"max_length", v⟩]
  | .multipleOf v => [⟨"multiple_of", v⟩]
  | .strict => []
  | .named attributes =>
    attributes.filterMap fun (name, v) => if v.isNull then none else some ⟨Check.nameOf name, v⟩
  | .tagged className v => [⟨className, v⟩]

end Restriction

/-- What a list of metadata says: a description, a discriminator and checks. -/
structure Reading where
  description : Option String := none
  discriminator : Option String := none
  checks : List Check := []

namespace Reading

/-- Reads one item that is no group. A specification describes unless its text is empty, and a
discriminator standing alone counts even if its text is empty. -/
def step (r : Reading) : Meta → Reading
  | .field s =>
    { description := nonEmpty s.description.join <|> r.description
      discriminator := nonEmpty s.discriminator.join <|> r.discriminator
      checks := r.checks ++ s.restrictions.flatMap Restriction.checks }
  | .discriminator name => { r with discriminator := some name }
  | .restriction x => { r with checks := r.checks ++ x.checks }
  | _ => r

/-- Reads a list of metadata under a description and a discriminator from outside. -/
def ofMetadata (description discriminator : Option String) (metadata : List Meta) : Reading :=
  let r := (Meta.flattenAll metadata).foldl step { discriminator }
  { r with description := nonEmpty description <|> r.description }

/-- The modifiers of a node read so. -/
def head (r : Reading) : Head := { description := r.description, checks := r.checks }

/-- The modifiers of a node that keeps no checks. -/
def bareHead (r : Reading) : Head := { description := r.description }

end Reading

namespace Node

/-- The node of a scalar; what schemas cannot tell apart by type is told by a first check. -/
def ofScalar (r : Reading) : Scalar → Node
  | .str => string r.head
  | .int => number { r.head with checks := ⟨"int", .null⟩ :: r.checks }
  | .float => number r.head
  | .bool => boolean r.head
  | .datetime => string { r.head with checks := ⟨"date-time", .null⟩ :: r.checks }
  | .date => string { r.head with checks := ⟨"date", .null⟩ :: r.checks }

/-- The node of a literal type: null among the values makes it nullable; several texts are an
enumeration. -/
def ofLiteral (r : Reading) (values : List Value) : Node :=
  let members := values.filter fun v => !v.isNull
  let head := { r.head with nullable := members.length < values.length }
  match members with
  | [] => null r.head
  | _ :: _ :: _ => if members.all Value.isText then enumeration head members else literal head members
  | _ => literal head members

/-- The node of the one member of a union beside null: the checks around the union come first. -/
def asSoleMember (r : Reading) (nullable : Bool) (n : Node) : Node :=
  let h := n.head
  n.withHead { h with nullable := h.nullable || nullable, checks := r.checks ++ h.checks }

/-- The node of a field: optional if data may leave the field out. -/
def asField (f : Field) (n : Node) : Node := n.withHead { n.head with isOptional := f.isOptional }

/-- The description of a record: its own, else that of its docstring. -/
def recordHead (r : Reading) (doc : Option String) : Head :=
  { r.head with description := r.description <|> (nonEmpty doc).map Text.cleanDocstring }

mutual

/-- Reads a type under a description, metadata and a discriminator from outside. -/
def read (description : Option String) (metadata : List Meta) (discriminator : Option String) :
    TypeExpr → Node
  | .annotated base inner => read description (inner ++ metadata) discriminator base
  | .scalar s => ofScalar (.ofMetadata description discriminator metadata) s
  | .null => null (Reading.ofMetadata description discriminator metadata).head
  | .other _ shown =>
    other (Reading.ofMetadata description discriminator metadata).bareHead (some shown)
  | .generic _ shown _ =>
    other (Reading.ofMetadata description discriminator metadata).bareHead (some shown)
  | .forward name =>
    lazy (Reading.ofMetadata description discriminator metadata).bareHead (some name)
  | .model name =>
    lazy (Reading.ofMetadata description discriminator metadata).bareHead (some name)
  | .enumeration e =>
    enumeration (Reading.ofMetadata description discriminator metadata).head (e.members.map (·.2))
  | .literal values => ofLiteral (.ofMetadata description discriminator metadata) values
  | .bareList _ =>
    array (Reading.ofMetadata description discriminator metadata).head
      (some (other {} (some "Any")))
  | .list _ item =>
    array (Reading.ofMetadata description discriminator metadata).head
      (some (read none [] none item))
  | .union members =>
    let r := Reading.ofMetadata description discriminator metadata
    let nullable := members.any TypeExpr.isNull
    if (members.filter fun m => !m.isNull).length = 1 then
      asSoleMember r nullable (readSole r.description r.discriminator members)
    else union { r.head with nullable } (readMembers members) r.discriminator
  | .record _ doc fields =>
    object (recordHead (.ofMetadata description discriminator metadata) doc) (readFields fields)

/-- Reads the first member of a union that is not null. -/
def readSole (description discriminator : Option String) : List TypeExpr → Node
  | [] => null {}
  | m :: ms =>
    if m.isNull then readSole description discriminator ms else read description [] discriminator m

/-- Reads the members of a union, leaving null out. -/
def readMembers : List TypeExpr → List Node
  | [] => []
  | m :: ms => if m.isNull then readMembers ms else read none [] none m :: readMembers ms

/-- Reads the fields of a record under their names in data. -/
def readFields : List (Field × TypeExpr) → List (String × Node)
  | [] => []
  | (f, t) :: rest =>
    (f.wireName, asField f (read f.description f.metadata f.discriminator t)) :: readFields rest

end

/-- The node of a type whose models are written out. -/
def ofType (t : TypeExpr) : Node := read none [] none t

end Node

end TypeWire
