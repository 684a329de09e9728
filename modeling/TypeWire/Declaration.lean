import TypeWire.Schema.Encode
import TypeWire.Schema.OfType

/-!
# Requests

What a request needs of a type: the declaration of a function whose arguments have the type
(`FunctionDeclaration`), and the configuration of an answer in the form of the type
(`ResponseConfig`).
-/

namespace TypeWire

/-- The declaration of a function. -/
structure FunctionDeclaration where
  name : String
  description : String
  parameters : Schema

namespace FunctionDeclaration

/-- The declaration of a function whose arguments have a schema. An empty description is none; the
schema's stands in for it. -/
def ofSchema (name : String) (description : Option String) (s : Schema) : FunctionDeclaration where
  name
  description := (nonEmpty description <|> nonEmpty s.facets.description).getD ""
  parameters := s

/-- The declaration of a function whose arguments have a type over declared models. -/
def ofType (name : String) (description : Option String) (models : List Model) (t : TypeExpr) :
    Except NodeError FunctionDeclaration :=
  (Schema.ofType models t).map (ofSchema name description)

/-- The wire form of a declaration. -/
def encode (d : FunctionDeclaration) : Value :=
  .dict [(.str "name", .str d.name), (.str "description", .str d.description),
    (.str "parameters", d.parameters.encode)]

end FunctionDeclaration

/-- The configuration of an answer. -/
structure ResponseConfig where
  schema : Schema
  temperature : Option Value := none

namespace ResponseConfig

/-- The configuration of an answer that has a type over declared models. -/
def ofType (models : List Model) (t : TypeExpr) (temperature : Option Value) :
    Except NodeError ResponseConfig :=
  (Schema.ofType models t).map fun schema => { schema, temperature }

/-- The wire form of a configuration. Answers are JSON. -/
def encode (c : ResponseConfig) : Value :=
  .dict ([(.str "response_mime_type", .str "application/json"),
    (.str "response_schema", c.schema.encode)] ++
    (c.temperature.map fun t => (Value.str "temperature", t)).toList)

end ResponseConfig

end TypeWire
