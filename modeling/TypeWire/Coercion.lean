import TypeWire.Fault
import TypeWire.Text.Blank
import TypeWire.Text.Case
import TypeWire.Value

/-!
# Reading values as scalars

Data rarely has the exact type that is asked for: numbers come as texts, whole numbers as doubles,
truth values as zero and one. Each reader here takes the values that mean a scalar, and says how well
they match (`Match`): a value of the type itself is exact, one of a kindred type strict, anything
else lax.
-/

namespace TypeWire

/-- How well a value matches the type that it is read as. -/
inductive Match where
  | lax
  | strict
  | exact
deriving DecidableEq, Repr, Inhabited

namespace Match

/-- A number that grows with the quality of the match. -/
def rank : Match → Nat
  | lax => 0
  | strict => 1
  | exact => 2

/-- The match of a whole whose parts match so: the worse of the two. -/
def min (a b : Match) : Match := if a.rank ≤ b.rank then a else b

end Match

namespace Coercion

open Numeric (Binary64 Decimal)

/-- A text that is written as text or as the bytes of it. -/
def textOrBytes? : Value → Option String
  | .str s => some s
  | .bytes s => some s
  | .constant _ _ .str (.str s) => some s
  | _ => none

/-- Reads a text. -/
def text : Value → Except Fault (String × Match)
  | .str s => .ok (s, .exact)
  | .bytes s => .ok (s, .lax)
  | .constant _ _ .str (.str s) => .ok (s, .strict)
  | _ => .error .stringType

/-! ## Whole numbers -/

/-- Digits with single underscores between them. -/
def digitGroups : List Char → Option (List Char)
  | [] => none
  | [c] => if c.isDigit then some [c] else none
  | c :: '_' :: d :: cs =>
    if c.isDigit then (digitGroups (d :: cs)).map (c :: ·) else none
  | c :: cs => if c.isDigit then (digitGroups cs).map (c :: ·) else none

/-- Drops a fraction of zeros, at least one, from a number text. -/
def dropZeroFraction (cs : List Char) : List Char :=
  let whole := cs.takeWhile (· != '.')
  match cs.dropWhile (· != '.') with
  | '.' :: zeros => if zeros ≠ [] ∧ zeros.all (· == '0') then whole else cs
  | _ => cs

/-- The longest text that is read as a whole number. -/
def longestNumber : Nat := 4300

/-- Reads a text as a whole number. -/
def intOfText (s : String) : Except Fault Int :=
  let cs := Text.trimSpace s.toList
  if longestNumber < cs.length then .error .intParsingSize
  else
    let (negative, digits) := Numeric.takeSign (dropZeroFraction cs)
    match digitGroups digits with
    | some ds =>
      let n : Int := Numeric.ofDigits ds
      .ok (if negative then -n else n)
    | none => .error .intParsing

/-- Reads a double as a whole number: it has to be one, within 64 bits. -/
def intOfFloat (x : Float) : Except Fault Int :=
  match Binary64.ofFloat x with
  | .finite b =>
    match b.toInt? with
    | some n => if n.natAbs < 0x8000000000000000 then .ok n else .error .intParsingSize
    | none => .error .intFromFloat
  | _ => .error .finiteNumber

/-- Reads a decimal as a whole number. -/
def intOfDecimal (d : Decimal) : Except Fault Int :=
  match d with
  | .finite _ _ _ =>
    match d.toInt? with
    | some n => .ok n
    | none => .error .intFromFloat
  | _ => .error .finiteNumber

/-- Reads a whole number. -/
def int (v : Value) : Except Fault (Int × Match) :=
  match v with
  | .int n => .ok (n, .exact)
  | .bool b => .ok (if b then 1 else 0, .lax)
  | .float x => (intOfFloat x).map fun n => (n, .lax)
  | .decimal d => (intOfDecimal d).map fun n => (n, .lax)
  | .constant _ _ .int (.int n) => .ok (n, .strict)
  | _ =>
    match textOrBytes? v with
    | some s => (intOfText s).map fun n => (n, .lax)
    | none => .error .intType

/-! ## Doubles -/

/-- Drops underscores, each of which has to stand between two characters and behind a digit. -/
def dropUnderscores : List Char → Option (List Char)
  | [] => some []
  | '_' :: _ => none
  | c :: '_' :: d :: cs =>
    if c.isDigit then (dropUnderscores (d :: cs)).map (c :: ·) else none
  | c :: cs => if cs = ['_'] then none else (dropUnderscores cs).map (c :: ·)

/-- Reads a text as a double. -/
def floatOfText (s : String) : Except Fault Float :=
  match (dropUnderscores (Text.trimSpace s.toList)).bind Numeric.floatOfChars? with
  | some x => .ok x
  | none => .error .floatParsing

/-- Reads a double. A whole number has to be within the range of doubles. -/
def float (v : Value) : Except Fault (Float × Match) :=
  match v with
  | .float x => .ok (x, .exact)
  | .int n | .constant _ _ .int (.int n) =>
    match Numeric.floatOfInt? n with
    | some x => .ok (x, .strict)
    | none => .error .floatType
  | .bool b => .ok (if b then 1.0 else 0.0, .lax)
  | .decimal d => .ok (d.toFloat, .strict)
  | .constant _ _ .float (.float x) => .ok (x, .strict)
  | _ =>
    match textOrBytes? v with
    | some s => (floatOfText s).map fun x => (x, .lax)
    | none => .error .floatType

/-! ## Truth values -/

/-- The texts that mean a truth value, in lower case. -/
def truthOfText (s : String) : Except Fault Bool :=
  let t := String.ofList (s.toList.map Char.toLower)
  if ["0", "off", "f", "false", "n", "no"].contains t then .ok false
  else if ["1", "on", "t", "true", "y", "yes"].contains t then .ok true
  else .error .boolParsing

/-- The truth value that zero or one is. -/
def truthOfInt (n : Int) : Except Fault Bool :=
  if n = 0 then .ok false else if n = 1 then .ok true else .error .boolParsing

/-- Reads a truth value. -/
def bool (v : Value) : Except Fault (Bool × Match) :=
  match v with
  | .bool b => .ok (b, .exact)
  | .int n | .constant _ _ .int (.int n) => (truthOfInt n).map fun b => (b, .lax)
  | .float x =>
    match intOfFloat x with
    | .ok n => (truthOfInt n).map fun b => (b, .lax)
    | .error _ => .error .boolType
  | .decimal d =>
    match d.toInt? with
    | some n => (truthOfInt n).map fun b => (b, .lax)
    | none => .error .boolParsing
  | _ =>
    match textOrBytes? v with
    | some s => (truthOfText s).map fun b => (b, .lax)
    | none => .error .boolType

/-! ## Times -/

/-- Numbers of seconds beyond this are numbers of milliseconds. -/
def mostSeconds : Nat := 20000000000

/-- The time a number of seconds or, if it is large, milliseconds after the start of 1970, and
microseconds after that. -/
def timeOfInt? (n : Int) (microseconds : Nat) : Option DateTime :=
  if n.natAbs ≤ mostSeconds then DateTime.ofSeconds? n microseconds
  else
    DateTime.ofSeconds? (Int.fdiv n 1000) ((Int.fmod n 1000).toNat * 1000 + microseconds)

/-- The time that a double gives: its floor, and the distance from the whole number toward zero in
microseconds. -/
def timeOfFloat? (x : Float) : Option DateTime :=
  match Binary64.ofFloat x with
  | .finite b =>
    let (num, den) := b.fraction
    let down : Int := if b.negative then -((num + den - 1) / den : Nat) else (num / den : Nat)
    timeOfInt? down ((2 * (num % den) * 1000000 + den) / (2 * den))
  | _ => none

/-- Reads a time text, or a text that is a number of seconds. -/
def timeOfText? (s : String) : Option DateTime :=
  let cs := s.toList
  match DateTime.ofText? cs with
  | some t => some t
  | none =>
    let (_, digits) := Numeric.takeSign cs
    if digits ≠ [] ∧ digits.all Char.isDigit then
      (intOfText s).toOption.bind fun n => timeOfInt? n 0
    else
      match Numeric.NumberText.ofChars? cs with
      | some x => timeOfFloat? x.toFloat
      | none => none

/-- Reads a time. -/
def datetime (v : Value) : Except Fault (DateTime × Match) :=
  let orFault (t : Option DateTime) : Except Fault (DateTime × Match) :=
    match t with
    | some t => .ok (t, .lax)
    | none => .error .datetimeParsing
  match v with
  | .datetime t => .ok (t, .exact)
  | .date d => .ok (DateTime.midnight d, .strict)
  | .int n => orFault (timeOfInt? n 0)
  | .float x => orFault (timeOfFloat? x)
  | .decimal d => orFault (timeOfFloat? d.toFloat)
  | _ =>
    match textOrBytes? v with
    | some s => orFault (timeOfText? s)
    | none => .error .datetimeType

end Coercion

end TypeWire
