import TypeWire.TypeExpr.Basic
import TypeWire.Coercion
import TypeWire.Value.Display

/-!
# Declared enumerations

An enumeration is declared by names and values. The values are first made values of the type that
the enumeration is built on; then names whose values are equal name one constant, which is known by
the first of them.
-/

namespace TypeWire

/-- An enumeration as it is declared. -/
structure EnumDecl where
  name : String
  base : EnumBase := .plain
  members : List (String × Value)
deriving Inhabited

namespace EnumDecl

/-- A value as a value of the type that an enumeration is built on; one that is none stays. -/
def adapt (base : EnumBase) (v : Value) : Value :=
  match base with
  | .plain => v
  | .str => .str v.display
  | .int =>
    match v with
    | .float x =>
      match Numeric.Binary64.ofFloat x with
      | .finite b =>
        let n : Int := (b.fraction.1 / b.fraction.2 : Nat)
        .int (if b.negative then -n else n)
      | _ => v
    | v =>
      match Coercion.int v with
      | .ok (n, _) => .int n
      | .error _ => v
  | .float =>
    match Coercion.float v with
    | .ok (x, _) => .float x
    | .error _ => v

/-- The names with the values that they have in the enumeration. -/
def adapted (d : EnumDecl) : List (String × Value) :=
  d.members.map fun (name, v) => (name, adapt d.base v)

/-- The first of the names with each value. -/
def constants : List (String × Value) → List (String × Value)
  | [] => []
  | (name, v) :: rest => (name, v) :: (constants rest).filter fun (_, w) => !v.equals w

/-- The enumeration that is declared. -/
def toEnumeration (d : EnumDecl) : Enumeration := ⟨d.name, d.base, constants d.adapted⟩

/-- The constant with a name. -/
def constant? (d : EnumDecl) (name : String) : Option Value := do
  let v ← d.adapted.lookup name
  let (first, w) ← (constants d.adapted).find? fun (_, w) => w.equals v
  return .constant d.name first d.base w

end EnumDecl

end TypeWire
