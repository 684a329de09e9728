import TypeWire.Value

/-!
# Metadata of types

What an annotated type carries beside its base: restrictions of its values (`Restriction`), field
specifications (`FieldSpec`) that gather a description, names, a default and restrictions in one
item, discriminators of unions, and groups that stand for the items in them. `Meta.flatten` takes
the groups apart; a field specification stays whole, since its description and its restrictions go
different ways.
-/

namespace TypeWire

/-- One restriction of the values of a type. -/
inductive Restriction where
  | ge (bound : Value)
  | gt (bound : Value)
  | le (bound : Value)
  | lt (bound : Value)
  | minLength (bound : Value)
  | maxLength (bound : Value)
  | multipleOf (divisor : Value)
  /-- No conversion of inputs; not a restriction of the values themselves. -/
  | strict
  /-- Restrictions given by name; a null value restricts nothing. -/
  | named (attributes : List (String × Value))
  /-- Any other item, known by its class, with the value that it is. -/
  | tagged (className : String) (value : Value)
deriving Inhabited

/-- The default of a field. -/
inductive Default where
  | value (v : Value)
  /-- Made anew for each record. -/
  | computed
deriving Inhabited

/-- How a field is to be treated in validation and in wire data, as far as it is specified. A
description that is specified and null overrides one that is not. -/
structure FieldSpec where
  description : Option (Option String) := none
  dataName : Option (Option String) := none
  /-- Whether a name for reading or writing alone is given. -/
  hasPartialAlias : Bool := false
  aliasPriority : Option Nat := none
  discriminator : Option (Option String) := none
  default : Option Default := none
  gt : Option Value := none
  ge : Option Value := none
  lt : Option Value := none
  le : Option Value := none
  multipleOf : Option Value := none
  minLength : Option Value := none
  maxLength : Option Value := none
  allowInfNan : Option Value := none
  failFast : Option Value := none
  pattern : Option Value := none
  coerceNumbersToStr : Option Value := none
  maxDigits : Option Value := none
  decimalPlaces : Option Value := none
  unionMode : Option Value := none
deriving Inhabited

/-- One item of metadata. -/
inductive Meta where
  | restriction (r : Restriction)
  | field (spec : FieldSpec)
  | discriminator (name : String)
  /-- Bounds given together. -/
  | interval (gt ge lt le : Option Value)
  /-- A least length, where zero restricts nothing, and a greatest. -/
  | length (min max : Value)
  /-- Restrictions of texts given together. -/
  | stringRestrictions (minLength maxLength stripWhitespace toUpper toLower pattern : Option Value)
  | group (items : List Meta)
deriving Inhabited

/-- The named restrictions among these that are given. -/
def namedRestrictions (attributes : List (String × Option Value)) : List Restriction :=
  attributes.filterMap fun (name, v) => v.map fun v => .named [(name, v)]

namespace FieldSpec

/-- The restrictions of a field specification, in the order in which they are read: bounds, lengths,
then the others. -/
def restrictions (s : FieldSpec) : List Restriction :=
  (s.gt.map Restriction.gt).toList ++ (s.ge.map Restriction.ge).toList ++
  (s.lt.map Restriction.lt).toList ++ (s.le.map Restriction.le).toList ++
  (s.multipleOf.map Restriction.multipleOf).toList ++
  (s.minLength.map Restriction.minLength).toList ++
  (s.maxLength.map Restriction.maxLength).toList ++
  (s.allowInfNan.map fun _ => Restriction.tagged "AllowInfNan" (.object "AllowInfNan")).toList ++
  namedRestrictions
    [("fail_fast", s.failFast), ("pattern", s.pattern),
      ("coerce_numbers_to_str", s.coerceNumbersToStr), ("max_digits", s.maxDigits),
      ("decimal_places", s.decimalPlaces), ("union_mode", s.unionMode)]

end FieldSpec

namespace Meta

/-- The restrictions of an interval, lower bounds first. -/
def ofInterval (gt ge lt le : Option Value) : List Meta :=
  ((gt.map Restriction.gt).toList ++ (ge.map Restriction.ge).toList ++
    (lt.map Restriction.lt).toList ++ (le.map Restriction.le).toList).map .restriction

/-- Whether a length bound is a number greater than zero. -/
def isPositive (bound : Value) : Bool := bound.number?.any fun n => n.exactly.isPositive

/-- The restrictions of a length. -/
def ofLength (min max : Value) : List Meta :=
  (if isPositive min then [.restriction (.minLength min)] else []) ++
    (if max.isNull then [] else [.restriction (.maxLength max)])

/-- The restrictions of texts: lengths first, then the changes of case and space, then the
pattern. -/
def ofStringRestrictions
    (minLength maxLength stripWhitespace toUpper toLower pattern : Option Value) : List Meta :=
  ((minLength.map Restriction.minLength).toList ++ (maxLength.map Restriction.maxLength).toList ++
    namedRestrictions
      [("strip_whitespace", stripWhitespace), ("to_upper", toUpper), ("to_lower", toLower),
        ("pattern", pattern)]).map .restriction

mutual

/-- The items that one item stands for, with no group among them. -/
def flatten : Meta → List Meta
  | .group items => flattenAll items
  | .interval gt ge lt le => ofInterval gt ge lt le
  | .length min max => ofLength min max
  | .stringRestrictions a b c d e f => ofStringRestrictions a b c d e f
  | m => [m]

/-- The items that a list of items stands for. -/
def flattenAll : List Meta → List Meta
  | [] => []
  | m :: ms => flatten m ++ flattenAll ms

end

end Meta

end TypeWire
