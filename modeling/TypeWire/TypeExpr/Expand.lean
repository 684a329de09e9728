import TypeWire.Model.Scope

/-!
# Types with their models written out

`TypeExpr.expand` puts the contents of each declared model in place of its name. A model inside
itself stays a name, so the result is a finite tree: on a way from the root each model is written out
once, and the number of declared models bounds the depth.
-/

namespace TypeWire.TypeExpr

mutual

/-- Puts types in place of the declared models in a type. -/
def mapModels (f : String → TypeExpr) : TypeExpr → TypeExpr
  | .model name => f name
  | .list form item => .list form (mapModels f item)
  | .union ms => .union (mapModelsAll f ms)
  | .annotated base metadata => .annotated (mapModels f base) metadata
  | .generic written shown args => .generic written shown (mapModelsAll f args)
  | .record name doc fields => .record name doc (mapModelsFields f fields)
  | t => t

/-- Puts types in place of the declared models in a list of types. -/
def mapModelsAll (f : String → TypeExpr) : List TypeExpr → List TypeExpr
  | [] => []
  | t :: ts => mapModels f t :: mapModelsAll f ts

/-- Puts types in place of the declared models in a list of fields. -/
def mapModelsFields (f : String → TypeExpr) : List (Field × TypeExpr) → List (Field × TypeExpr)
  | [] => []
  | (field, t) :: rest => (field, mapModels f t) :: mapModelsFields f rest

end

/-- The contents of a declared model, given the models around it. A model that is one of these, or
that nothing declares, stays a name. The first number is the number of models that may still be
written out inside each other. -/
def expandModel (models : List Model) : Nat → List String → String → TypeExpr
  | 0, _, name => .forward name
  | depth + 1, active, name =>
    if active.contains name then .forward name
    else
      match models.find? fun m => m.name == name with
      | none => .forward name
      | some m =>
        .record m.name m.doc (mapModelsFields (expandModel models depth (name :: active)) m.fields)

/-- The type with the contents of its models written out. -/
def expand (models : List Model) (t : TypeExpr) : TypeExpr :=
  t.mapModels (expandModel models models.length [])

end TypeWire.TypeExpr
