import TypeWire.Node.OfType
import TypeWire.Schema.OfNode
import TypeWire.TypeExpr.Expand

/-!
# Schemas of types

The way from a type expression to its schema: the declared models are written out, the type is read
into a node, and the node is written as a schema.
-/

namespace TypeWire

/-- The node of a type over declared models. -/
def Node.ofTypeIn (models : List Model) (t : TypeExpr) : Node := .ofType (t.expand models)

/-- The schema of a type over declared models. -/
def Schema.ofType (models : List Model) (t : TypeExpr) : Except NodeError Schema :=
  ofNode (.ofTypeIn models t)

end TypeWire
