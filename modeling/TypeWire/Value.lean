import TypeWire.Calendar
import TypeWire.Text.Quoted

/-!
# Values

The values that types speak about and schemas are made of: what a data document can hold, and the
constants, dates and byte strings that a program can put beside them. `Value.className` names the
class of a value as messages do; `Value.equals` is equality by meaning, where numbers of different
classes are compared as numbers and the order of a dictionary is free.
-/

namespace TypeWire

/-- What the constants of an enumeration are built on. -/
inductive EnumBase where
  | plain
  | str
  | int
  | float
deriving DecidableEq, Repr, Inhabited

/-- A value. Byte strings are given by the text that they encode, other objects by their class. -/
inductive Value where
  | null
  | bool (b : Bool)
  | int (n : Int)
  | float (x : Float)
  | decimal (d : Numeric.Decimal)
  | str (s : String)
  | bytes (s : String)
  | list (items : List Value)
  | tuple (items : List Value)
  | dict (entries : List (Value × Value))
  | datetime (t : DateTime)
  | date (d : Date)
  | constant (className member : String) (base : EnumBase) (value : Value)
  | object (className : String)
deriving Inhabited

namespace Value

/-- The name of a value's class. -/
def className : Value → String
  | .null => "NoneType"
  | .bool _ => "bool"
  | .int _ => "int"
  | .float _ => "float"
  | .decimal _ => "Decimal"
  | .str _ => "str"
  | .bytes _ => "bytes"
  | .list _ => "list"
  | .tuple _ => "tuple"
  | .dict _ => "dict"
  | .datetime _ => "datetime"
  | .date _ => "date"
  | .constant name _ _ _ => name
  | .object name => name

/-- The text of a value that is a string, be it as a constant built on strings. -/
def text? : Value → Option String
  | .str s => some s
  | .constant _ _ .str (.str s) => some s
  | _ => none

/-- Whether a value is a string. -/
def isText (v : Value) : Bool := v.text?.isSome

/-- Whether a value is absent. -/
def isNull : Value → Bool
  | .null => true
  | _ => false

/-- The value of the entry with a text key, the last if there are several. -/
def lookup (key : String) (entries : List (Value × Value)) : Option Value :=
  entries.foldl
    (fun found (k, v) =>
      match k with
      | .str s => if s = key then some v else found
      | _ => found)
    none

end Value

/-! ## Equality by meaning -/

namespace Value

/-- The number that a value is. -/
inductive Number where
  | whole (n : Int)
  | real (x : Float)
  | exact (d : Numeric.Decimal)

/-- The number that a value is, if it is one: truth values are zero and one, and constants built on
numbers count as these. -/
def number? : Value → Option Number
  | .bool b => some (.whole (if b then 1 else 0))
  | .int n => some (.whole n)
  | .float x => some (.real x)
  | .decimal d => some (.exact d)
  | .constant _ _ .int (.int n) => some (.whole n)
  | .constant _ _ .float (.float x) => some (.real x)
  | _ => none

/-- A finite double is the decimal number with these digits; the others are themselves. -/
def decimalOfFloat (x : Float) : Numeric.Decimal :=
  match Numeric.Binary64.ofFloat x with
  | .nan => .nan
  | .infinite negative => .infinite negative
  | .finite b =>
    if b.exponent < 0 then
      .finite b.negative (b.mantissa * Nat.pow 5 b.exponent.natAbs) b.exponent
    else .finite b.negative (b.mantissa * Nat.pow 2 b.exponent.natAbs) 0

/-- A number as a decimal, without rounding. -/
def Number.exactly : Number → Numeric.Decimal
  | .whole n => .finite (n < 0) n.natAbs 0
  | .real x => decimalOfFloat x
  | .exact d => d

/-- Whether two numbers have one value. -/
def Number.equals (a b : Number) : Bool := a.exactly.sameNumber b.exactly

mutual

/-- Equality by meaning. Numbers are compared as numbers, texts as texts, moments as moments;
constants that are neither numbers nor texts by class and name. -/
def equals : Value → Value → Bool
  | .null, .null => true
  | .bytes a, .bytes b => a == b
  | .list xs, .list ys => listEquals xs ys
  | .tuple xs, .tuple ys => listEquals xs ys
  | .dict xs, .dict ys => xs.length == ys.length && entriesWithin xs ys
  | .datetime a, .datetime b => a.sameMoment b
  | .date a, .date b => a == b
  | .constant a m .plain _, .constant b n .plain _ => a == b && m == n
  | .object a, .object b => a == b
  | a, b =>
    match a.number?, b.number? with
    | some m, some n => m.equals n
    | _, _ =>
      match a.text?, b.text? with
      | some s, some t => s == t
      | _, _ => false

/-- Whether two lists are equal item by item. -/
def listEquals : List Value → List Value → Bool
  | [], [] => true
  | x :: xs, y :: ys => equals x y && listEquals xs ys
  | _, _ => false

/-- Whether each entry of the first dictionary has an equal one in the second. -/
def entriesWithin : List (Value × Value) → List (Value × Value) → Bool
  | [], _ => true
  | (k, v) :: rest, other =>
    other.any (fun (k', v') => equals k k' && equals v v') && entriesWithin rest other

end

/-- Whether two values are the same constant: equal and of one class. -/
def identical (a b : Value) : Bool := a.className == b.className && a.equals b

end Value

end TypeWire
