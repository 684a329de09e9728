import TypeWire.TypeExpr.Enumeration

/-!
# Enumerations of texts

An enumeration made from texts that are known only when the program runs: each text is the name and
the value of a constant. Some names are not available: two constants cannot have one name, names
between single underscores are reserved, and names between double underscores, like private ones,
do not become constants (`isConstantName`).
-/

namespace TypeWire

/-- Why texts do not make an enumeration. -/
inductive EnumError where
  | noValues
  | notIterable (className : String)
  /-- A value that is no text. -/
  | notText (className : String)
  | unhashable (className : String)
  /-- A sequence of other things than characters. -/
  | notName (className : String)
  | repeated (name : String)
  | reserved (name : String)
  | invalidNames (names : List String)
  /-- A stated order that is not the order of the constants. -/
  | orderMismatch (stated : String) (names : List String)
  /-- A special name whose value cannot be a text. -/
  | notSlots
  | notCell
  /-- A special name whose value has to be an operation, which the constants need. -/
  | notCallable
  | notSettable
deriving DecidableEq, Repr, Inhabited

/-- The message about texts that do not make an enumeration. -/
def EnumError.message : EnumError → String
  | noValues => "dynamic_enum requires at least one value"
  | notIterable c => Text.quoted c ++ " object is not iterable"
  | notText c => "object of type " ++ Text.quoted c ++ " has no len()"
  | unhashable c => "unhashable type: " ++ Text.quoted c
  | notName c => "attribute name must be string, not " ++ Text.quoted c
  | repeated name => Text.quoted name ++ " already defined as " ++ Text.quoted name
  | reserved name =>
    "_sunder_ names, such as " ++ Text.quoted name ++ ", are reserved for future Enum use"
  | invalidNames names => "invalid enum member name(s) " ++ ",".intercalate (names.map Text.quoted)
  | orderMismatch stated names =>
    "member order does not match _order_:\n  [" ++ ", ".intercalate (names.map Text.quoted) ++
      "]\n  [" ++ Text.quoted stated ++ "]"
  | notSlots => "'__slots__' in __slots__ conflicts with class variable"
  | notCell => "__classcell__ must be a nonlocal cell, not <class 'str'>"
  | notCallable => "'str' object is not callable"
  | notSettable => "_value_ not set in __new__, unable to create it"

namespace EnumName

/-- Whether a name stands between single underscores. -/
def isReserved (name : String) : Bool :=
  let cs := name.toList
  2 < cs.length && cs.head? == some '_' && cs.getLast? == some '_' &&
    cs[1]? != some '_' && cs.reverse[1]? != some '_'

/-- Whether a name stands between double underscores. -/
def isSpecial (name : String) : Bool :=
  let cs := name.toList
  4 < cs.length && name.startsWith "__" && name.endsWith "__" &&
    cs[2]? != some '_' && cs.reverse[2]? != some '_'

/-- Whether a name is private to the enumeration with a name. -/
def isPrivate (enumeration name : String) : Bool :=
  let start := "_" ++ enumeration ++ "__"
  start.length < name.length && name.startsWith start && !name.endsWith "__"

/-- The reserved names that have a meaning of their own. -/
def meaningful : List String :=
  ["_order_", "_generate_next_value_", "_numeric_repr_", "_missing_", "_ignore_", "_iter_member_",
    "_iter_member_by_value_", "_iter_member_by_def_"]

/-- The special names whose value cannot be a text, each with the error that this is. -/
def untextual : List (String × EnumError) :=
  [("__slots__", .notSlots), ("__classcell__", .notCell)]

/-- The special names whose value cannot be a text where there are constants. -/
def operations : List (String × EnumError) :=
  [("__setattr__", .notSettable), ("__getattr__", .notCallable),
    ("__getattribute__", .notCallable), ("__init__", .notCallable), ("__new__", .notCallable)]

/-- Whether a name is that of a constant of an enumeration. -/
def isConstantName (enumeration name : String) : Bool :=
  !isPrivate enumeration name && !isReserved name && !isSpecial name

/-- Whether a name is reserved and has no meaning. -/
def isRefused (enumeration name : String) : Bool :=
  isReserved name && !isPrivate enumeration name && !meaningful.contains name

end EnumName

namespace Enumeration

/-- The texts of data that is a sequence: of characters, of bytes, of items, or of keys. -/
def sequence : Value → Except EnumError (List Value)
  | .str s => .ok (s.toList.map fun c => .str c.toString)
  | .bytes s => .ok (s.toUTF8.toList.map fun b => .int b.toNat)
  | .list vs => .ok vs
  | .tuple vs => .ok vs
  | .dict entries => .ok (entries.map (·.1))
  | v => .error (.notIterable v.className)

/-- The names of the constants, given those met before, in the order met. Sequences that are no texts
are passed over. -/
def constantNames (enumeration : String) (earlier : List String) :
    List Value → Except EnumError (List String)
  | [] => .ok []
  | v :: vs =>
    match v.text? with
    | none =>
      match v with
      | .list _ | .dict _ => .error (.unhashable v.className)
      | .tuple _ | .bytes _ => constantNames enumeration earlier vs
      | _ => .error (.notText v.className)
    | some name =>
      if EnumName.isRefused enumeration name then .error (.reserved name)
      else if !EnumName.isConstantName enumeration name then constantNames enumeration earlier vs
      else if earlier.contains name then .error (.repeated name)
      else (constantNames enumeration (name :: earlier) vs).map (name :: ·)

/-- The errors that only the finished enumeration shows, of texts that have constants with these
names. -/
def lateErrors (texts : List Value) (names : List String) : List EnumError :=
  let given := texts.filterMap Value.text?
  let among := fun (p : String × EnumError) => given.contains p.1
  (EnumName.untextual.filter among).map (·.2) ++
    (if names.isEmpty then [] else (EnumName.operations.filter among).map (·.2)) ++
    (texts.filter fun v => v.text?.isNone).map (fun v => .notName v.className)

/-- The last text that states the order of the constants. -/
def statedOrder? (texts : List Value) : Option String :=
  ((texts.filterMap Value.text?).filter fun s => s == "_order_" || s == "__order__").getLast?

/-- The enumeration of texts. -/
def ofTexts (name : String) (texts : List Value) : Except EnumError Enumeration := do
  if texts.isEmpty then throw .noValues
  let names ← constantNames name [] texts
  let invalid := ["mro", ""].filter names.contains
  if !invalid.isEmpty then throw (.invalidNames invalid)
  if let some e := (lateErrors texts names).head? then throw e
  match statedOrder? texts with
  | some stated => throw (.orderMismatch stated names)
  | none => return ⟨name, .str, names.map fun n => (n, .str n)⟩

end Enumeration

end TypeWire
