import TypeWire.TypeExpr.Basic
import TypeWire.Validator.Basic

/-!
# Validators of types

`Validator.ofType` makes the validator of a type whose models are written out. Restrictions go to
the type that they restrict, through the null value around it. A bound that the restricted type
cannot have, a fraction for a whole number, a negative length, has no validator.
-/

namespace TypeWire

/-- Why a type has no validator. -/
inductive Unbuildable where
  /-- A bound that does not fit the type. -/
  | invalidBound
  /-- A type or a restriction that validators do not know. -/
  | unknown
deriving DecidableEq, Repr, Inhabited

namespace Validator

/-- A bound of a whole number. -/
def intBound (v : Value) : Except Unbuildable Int :=
  match Coercion.int v with
  | .ok (n, _) => .ok n
  | .error _ => .error .invalidBound

/-- A bound of a double. -/
def floatBound (v : Value) : Except Unbuildable Float :=
  match Coercion.float v with
  | .ok (x, _) => .ok x
  | .error _ => .error .invalidBound

/-- A bound of a length, which is not negative and has at most 64 bits. -/
def lengthBound (v : Value) : Except Unbuildable Nat :=
  match Coercion.int v with
  | .ok (n, _) => if 0 ≤ n ∧ n < 0x10000000000000000 then .ok n.toNat else .error .invalidBound
  | .error _ => .error .invalidBound

/-- The validator under one more restriction. -/
def restrict (r : Restriction) : Validator → Except Unbuildable Validator
  | .nullable inner => (restrict r inner).map .nullable
  | .int least greatest =>
    match r with
    | .ge v => (intBound v).map fun b => .int (some b) greatest
    | .le v => (intBound v).map fun b => .int least (some b)
    | _ => .error .unknown
  | .float least greatest =>
    match r with
    | .ge v => (floatBound v).map fun b => .float (some b) greatest
    | .le v => (floatBound v).map fun b => .float least (some b)
    | _ => .error .unknown
  | .list item shortest longest =>
    match r with
    | .minLength v => (lengthBound v).map fun b => .list item (some b) longest
    | .maxLength v => (lengthBound v).map fun b => .list item shortest (some b)
    | _ => .error .unknown
  | _ => .error .unknown

/-- The restrictions in an item of metadata that is no group. -/
def restrictionsOf : Meta → List Restriction
  | .restriction r => [r]
  | .field s => s.restrictions
  | _ => []

/-- The validator under the restrictions of metadata. -/
def restrictAll (metadata : List Meta) (validator : Validator) : Except Unbuildable Validator :=
  ((Meta.flattenAll metadata).flatMap restrictionsOf).foldlM (fun v r => restrict r v) validator

/-- The rule of a field. -/
def ruleOf (f : Field) : Except Unbuildable FieldRule :=
  match f.default with
  | none => .ok { key := f.dataName.getD f.name }
  | some (.value v) => .ok { key := f.dataName.getD f.name, default := some v }
  | some .computed => .error .unknown

mutual

/-- The validator of a type. -/
def ofType : TypeExpr → Except Unbuildable Validator
  | .scalar .str => .ok .text
  | .scalar .int => .ok (.int none none)
  | .scalar .float => .ok (.float none none)
  | .scalar .bool => .ok .bool
  | .scalar .datetime => .ok .datetime
  | .null => .ok .null
  | .literal values =>
    match values.mapM Value.text? with
    | some texts => .ok (.literal texts)
    | none => .error .unknown
  | .list _ item => do return .list (← ofType item) none none
  | .annotated base metadata => do restrictAll metadata (← ofType base)
  | .union members => do
    let validator : Validator :=
      match ← ofMembers members with
      | [v] => v
      | vs => .union vs
    return if members.any TypeExpr.isNull then .nullable validator else validator
  | .record name _ fields => do return .record name (← ofFields fields)
  | _ => .error .unknown

/-- The validators of the members of a union, leaving null out. -/
def ofMembers : List TypeExpr → Except Unbuildable (List Validator)
  | [] => .ok []
  | t :: rest =>
    if t.isNull then ofMembers rest
    else do
      let v ← ofType t
      let vs ← ofMembers rest
      return v :: vs

/-- The validators of the fields of a record. -/
def ofFields : List (Field × TypeExpr) → Except Unbuildable (List (FieldRule × Validator))
  | [] => .ok []
  | (f, t) :: rest => do
    let v ← ofType t
    let v ← restrictAll f.metadata v
    let rule ← ruleOf f
    let vs ← ofFields rest
    return (rule, v) :: vs

end

end Validator

end TypeWire
