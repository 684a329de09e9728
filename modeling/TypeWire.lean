import TypeWire.Calendar
import TypeWire.Coercion
import TypeWire.Command.Arguments
import TypeWire.Command.Run
import TypeWire.Declaration
import TypeWire.Directory
import TypeWire.Fault
import TypeWire.Json
import TypeWire.Logging.Record
import TypeWire.Logging.Settings
import TypeWire.Main
import TypeWire.Model.Field
import TypeWire.Model.NameStyle
import TypeWire.Model.Scope
import TypeWire.Node.Basic
import TypeWire.Node.OfType
import TypeWire.Numeric.Binary64
import TypeWire.Numeric.Decimal
import TypeWire.Numeric.Fixed
import TypeWire.Numeric.Shortest
import TypeWire.Proofs.Acceptance
import TypeWire.Proofs.Equality
import TypeWire.Proofs.ExactValue
import TypeWire.Proofs.Induction
import TypeWire.Proofs.NormalForm
import TypeWire.Proofs.Rebuilt
import TypeWire.Proofs.Restriction
import TypeWire.Schema.Basic
import TypeWire.Schema.Decode
import TypeWire.Schema.Encode
import TypeWire.Schema.Equality
import TypeWire.Schema.OfNode
import TypeWire.Schema.OfType
import TypeWire.Session
import TypeWire.Template
import TypeWire.Text.Blank
import TypeWire.Text.Case
import TypeWire.Text.Digit
import TypeWire.Text.Docstring
import TypeWire.Text.Identifier
import TypeWire.Text.Printable
import TypeWire.Text.Quoted
import TypeWire.TypeExpr.Basic
import TypeWire.TypeExpr.Construction
import TypeWire.TypeExpr.Enumeration
import TypeWire.TypeExpr.Expand
import TypeWire.TypeExpr.Meta
import TypeWire.TypeExpr.Named
import TypeWire.TypeExpr.OfSchema
import TypeWire.TypeExpr.TextEnumeration
import TypeWire.Validator.Basic
import TypeWire.Validator.OfType
import TypeWire.Value
import TypeWire.Value.Display
import TypeWire.Yaml.Content
import TypeWire.Yaml.Cursor
import TypeWire.Yaml.Error
import TypeWire.Yaml.Node
import TypeWire.Yaml.Property
import TypeWire.Yaml.Scalar.Block
import TypeWire.Yaml.Scalar.Plain
import TypeWire.Yaml.Scalar.Quoted
import TypeWire.Yaml.Tag
import TypeWire.Yaml.Token
import TypeWire.Yaml.Token.OfText
import TypeWire.Yaml.Tree
import TypeWire.Proofs.Admission
import TypeWire.Proofs.NodeSchema
import TypeWire.Proofs.SourceType
import TypeWire.Proofs.SourceMeaning
import TypeWire.Proofs.ReadBack
import TypeWire.Proofs.Canonical
import TypeWire.Proofs.Description
import TypeWire.Proofs.CanonicalIdentity
import TypeWire.Proofs.NormalType
import TypeWire.Proofs.Normalization
import TypeWire.Proofs.FileCheck
import TypeWire.Proofs.Malformation
import TypeWire.Proofs.Offences
import TypeWire.Proofs.PlainData
import TypeWire.Proofs.Refinement
import TypeWire.Proofs.WellFormed
import TypeWire.Proofs.WireKeys
import TypeWire.Proofs.LastBound
import TypeWire.Proofs.Marks
import TypeWire.Proofs.RebuiltFields
import TypeWire.Proofs.Layers
import TypeWire.Proofs.Places
import TypeWire.Proofs.Governance
import TypeWire.Proofs.ConstantNames
import TypeWire.Proofs.Conversion
import TypeWire.Proofs.WithoutDefaults
import TypeWire.Proofs.DeclaredDefaults
import TypeWire.Proofs.Requiredness
import TypeWire.Proofs.Remembered
import TypeWire.Proofs.RoundTrip
