/-!
# Faults in data

What can be wrong with a piece of data (`Fault`), and where it is wrong (`Issue`). A reader of data
goes on after a fault, so its answer is a list of issues.
-/

namespace TypeWire

/-- What is wrong with a piece of data. -/
inductive Fault where
  | stringType
  | intType
  | intParsing
  | intParsingSize
  | intFromFloat
  | finiteNumber
  | floatType
  | floatParsing
  | boolType
  | boolParsing
  | datetimeType
  | datetimeParsing
  | listType
  | dictType
  | modelType
  | missing
  | invalidKey
  | extraForbidden
  | notInEnum
  | literalError
  | lessThanEqual
  | greaterThanEqual
  | tooLong
  | tooShort
  /-- No member of a union takes the data. -/
  | union
  /-- A change to what cannot be changed. -/
  | frozenInstance
deriving DecidableEq, Repr, Inhabited

/-- The code of a fault in reports. -/
def Fault.code : Fault → String
  | stringType => "string_type"
  | intType => "int_type"
  | intParsing => "int_parsing"
  | intParsingSize => "int_parsing_size"
  | intFromFloat => "int_from_float"
  | finiteNumber => "finite_number"
  | floatType => "float_type"
  | floatParsing => "float_parsing"
  | boolType => "bool_type"
  | boolParsing => "bool_parsing"
  | datetimeType => "datetime_type"
  | datetimeParsing => "datetime_parsing"
  | listType => "list_type"
  | dictType => "dict_type"
  | modelType => "model_type"
  | missing => "missing"
  | invalidKey => "invalid_key"
  | extraForbidden => "extra_forbidden"
  | notInEnum => "enum"
  | literalError => "literal_error"
  | lessThanEqual => "less_than_equal"
  | greaterThanEqual => "greater_than_equal"
  | tooLong => "too_long"
  | tooShort => "too_short"
  | union => "union"
  | frozenInstance => "frozen_instance"

/-- A step on the way to a piece of data: a text key of a dictionary, or a place in a list, which a
whole number as a key counts as too. -/
inductive Step where
  | key (name : String)
  | index (i : Int)
deriving DecidableEq, Repr, Inhabited

/-- A fault with the way to it. -/
structure Issue where
  path : List Step
  fault : Fault
deriving DecidableEq, Repr, Inhabited

namespace Issue

/-- A fault of the data itself. -/
def here (fault : Fault) : List Issue := [⟨[], fault⟩]

/-- Issues of a part, seen from the whole. -/
def under (step : Step) (issues : List Issue) : List Issue :=
  issues.map fun i => { i with path := step :: i.path }

end Issue

/-- The issues of a reading. -/
def issuesOf {α : Type} : Except (List Issue) α → List Issue
  | .ok _ => []
  | .error issues => issues

end TypeWire
