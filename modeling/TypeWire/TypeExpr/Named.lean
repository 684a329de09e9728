import TypeWire.TypeExpr.Basic

/-!
# Types that have a name

The types that can be written by name alone: the scalars, the bare containers, the types that
schemas cannot express, and the named restrictions of scalars.
-/

namespace TypeWire.TypeExpr

/-- The names of types that schemas cannot express and that are shown as they are written. -/
def inexpressible : List String :=
  ["time", "timedelta", "bytes", "bytearray", "complex", "object", "dict", "tuple", "set",
    "frozenset", "SecretStr", "PastDate", "AwareDatetime", "HttpUrl", "ByteSize"]

/-- A scalar with one restriction. -/
def restricted (s : Scalar) (r : Restriction) : TypeExpr := .annotated (.scalar s) [.restriction r]

/-- An item of metadata known only by its class. -/
def marker (className : String) : Restriction := .tagged className (.object className)

/-- The enumeration type that has no constants. -/
def emptyEnumeration : TypeExpr := .enumeration ⟨"Enum", .plain, []⟩

/-- The types with names, in a table. -/
def namedTypes : List (String × TypeExpr) :=
  [("str", .scalar .str), ("int", .scalar .int), ("float", .scalar .float), ("bool", .scalar .bool),
    ("datetime", .scalar .datetime), ("date", .scalar .date),
    ("none", .null), ("NoneType", .null),
    ("list", .bareList .builtin), ("List", .bareList .generic),
    ("any", .other "Any" "Any"), ("decimal", .other "Decimal" "Decimal"),
    ("uuid", .other "UUID" "UUID"), ("Dict", .other "Dict" "dict"),
    ("Enum", emptyEnumeration),
    ("PositiveInt", restricted .int (.gt (.int 0))),
    ("NegativeInt", restricted .int (.lt (.int 0))),
    ("NonNegativeInt", restricted .int (.ge (.int 0))),
    ("NonPositiveInt", restricted .int (.le (.int 0))),
    ("PositiveFloat", restricted .float (.gt (.int 0))),
    ("NonNegativeFloat", restricted .float (.ge (.int 0))),
    ("FiniteFloat", restricted .float (marker "AllowInfNan")),
    ("StrictStr", restricted .str .strict), ("StrictInt", restricted .int .strict),
    ("StrictFloat", restricted .float .strict), ("StrictBool", restricted .bool .strict),
    ("UUID4", .annotated (.other "UUID" "UUID") [.restriction (marker "UuidVersion")]),
    ("Base64Str", restricted .str (marker "EncodedStr"))]

/-- The type with a name, if there is one. -/
def named? (name : String) : Option TypeExpr :=
  match namedTypes.lookup name with
  | some t => some t
  | none => if inexpressible.contains name then some (.other name name) else none

/-- The name by which messages show a parametrised type: containers have the name of the builtin
one, abstract types no module. -/
def shownName (written : String) : String :=
  match written with
  | "Dict" => "dict"
  | "Tuple" => "tuple"
  | "abc.Sequence" => "Sequence"
  | name => name

/-- The type that is declared under a name as a kind of another: without constants if that is the
enumeration type, and otherwise a type of its own. -/
def derived (name base : String) : TypeExpr :=
  if base = "Enum" then .enumeration ⟨name, .plain, []⟩ else .other name name

end TypeWire.TypeExpr
