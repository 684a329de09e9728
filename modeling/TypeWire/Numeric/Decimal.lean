import TypeWire.Numeric.Shortest

/-!
# Decimal numbers and their text

A `Decimal` keeps the digits it was written with, so `1.50` and `1.5` are equal numbers with
different texts. `NumberText` reads the usual decimal notation, sign, digits, point and exponent,
into sign, digits and power of ten; `toFloat` rounds such a number once.
-/

namespace TypeWire.Numeric

/-- A decimal number as written: `±coefficient · 10 ^ exponent`, or no number. -/
inductive Decimal where
  | finite (negative : Bool) (coefficient : Nat) (exponent : Int)
  | infinite (negative : Bool)
  | nan
deriving DecidableEq, Repr

/-- The natural number written by decimal digits. -/
def ofDigits (cs : List Char) : Nat :=
  cs.foldl (fun n c => n * 10 + (c.toNat - '0'.toNat)) 0

/-- Takes an optional sign off a text; `true` is minus. -/
def takeSign : List Char → Bool × List Char
  | '-' :: cs => (true, cs)
  | '+' :: cs => (false, cs)
  | cs => (false, cs)

/-- A number read from decimal notation. -/
structure NumberText where
  negative : Bool
  coefficient : Nat
  exponent : Int
deriving DecidableEq, Repr

/-- The exponent part of a number text: nothing, or `e` or `E` with a signed run of digits. -/
def readExponent? : List Char → Option Int
  | [] => some 0
  | c :: cs =>
    let (negative, digits) := takeSign cs
    if (c = 'e' ∨ c = 'E') ∧ digits ≠ [] ∧ digits.all Char.isDigit then
      let n : Int := ofDigits digits
      some (if negative then -n else n)
    else none

/-- Reads digits with an optional point, at least one digit on one side of it, and an optional
exponent. -/
def NumberText.ofChars? (cs : List Char) : Option NumberText :=
  let (negative, cs) := takeSign cs
  let whole := cs.takeWhile Char.isDigit
  let rest := cs.dropWhile Char.isDigit
  let (fraction, rest) : List Char × List Char :=
    match rest with
    | '.' :: r => (r.takeWhile Char.isDigit, r.dropWhile Char.isDigit)
    | r => ([], r)
  if whole = [] ∧ fraction = [] then none
  else (readExponent? rest).map fun e =>
    ⟨negative, ofDigits (whole ++ fraction), e - fraction.length⟩

/-- The double nearest to a decimal number. Powers of ten out of the range of doubles are cut off
first: they give infinity or zero whatever the digits. -/
def NumberText.toFloat (x : NumberText) : Float :=
  let size : Int := x.exponent + digitCount x.coefficient
  let magnitude : Float :=
    if x.coefficient = 0 ∨ size < -400 then 0.0
    else if 400 < size then 1.0 / 0.0
    else Float.ofScientific x.coefficient (x.exponent < 0) x.exponent.natAbs
  if x.negative then -magnitude else magnitude

/-- The names of the numbers that have no digits, in lower case. -/
def specialNumber? (name : String) : Option Float :=
  if name = "inf" ∨ name = "infinity" then some (1.0 / 0.0)
  else if name = "nan" then some (0.0 / 0.0)
  else none

/-- Reads a double: decimal notation, or `inf`, `infinity` or `nan` in any case, with a sign. -/
def floatOfChars? (cs : List Char) : Option Float :=
  match NumberText.ofChars? cs with
  | some x => some x.toFloat
  | none =>
    let (negative, rest) := takeSign cs
    (specialNumber? (String.ofList (rest.map Char.toLower))).map fun x => if negative then -x else x

/-- The double nearest to a whole number, if it is in range. -/
def floatOfInt? (n : Int) : Option Float :=
  let x := NumberText.toFloat ⟨n < 0, n.natAbs, 0⟩
  if x.isInf then none else some x

namespace Decimal

/-- Reads a decimal number, keeping its digits. -/
def ofText? (text : String) : Option Decimal :=
  let cs := text.trimAscii.toString.toList
  match NumberText.ofChars? cs with
  | some x => some (.finite x.negative x.coefficient x.exponent)
  | none =>
    let (negative, rest) := takeSign cs
    let name := String.ofList (rest.map Char.toLower)
    if name = "inf" ∨ name = "infinity" then some (.infinite negative)
    else if name = "nan" then some .nan
    else none

/-- The text of a decimal: positional while the exponent is not positive and the number not below
`10 ^ -6`, otherwise with one digit before the point and a signed exponent. -/
def text : Decimal → String
  | .nan => "NaN"
  | .infinite negative => (if negative then "-" else "") ++ "Infinity"
  | .finite negative coefficient exponent =>
    let digits := toString coefficient
    let left : Int := exponent + digits.length
    let place : Int := if exponent ≤ 0 ∧ -6 < left then left else 1
    let zeros (n : Nat) := String.ofList (List.replicate n '0')
    let body :=
      if place ≤ 0 then "0." ++ zeros place.natAbs ++ digits
      else if (digits.length : Int) ≤ place then digits ++ zeros (place - digits.length).natAbs
      else (digits.take place.natAbs).toString ++ "." ++ (digits.drop place.natAbs).toString
    let tail :=
      if left = place then ""
      else "E" ++ (if left - place < 0 then "-" else "+") ++ toString (left - place).natAbs
    (if negative then "-" else "") ++ body ++ tail

/-- The double nearest to a decimal. -/
def toFloat : Decimal → Float
  | .nan => 0.0 / 0.0
  | .infinite negative => if negative then -(1.0 / 0.0) else 1.0 / 0.0
  | .finite negative coefficient exponent => NumberText.toFloat ⟨negative, coefficient, exponent⟩

/-- The decimal without trailing zeros in its digits: the canonical form of its value. -/
def canonical : Decimal → Decimal
  | .finite negative coefficient exponent =>
    if coefficient = 0 then .finite false 0 0
    else
      let s := Scaled.trim (digitCount coefficient) ⟨coefficient, exponent⟩
      .finite negative s.digits s.exponent
  | d => d

/-- The whole number that a decimal is, if it is one. -/
def toInt? (d : Decimal) : Option Int :=
  match d.canonical with
  | .finite negative coefficient exponent =>
    if exponent < 0 then none
    else
      let n : Int := (coefficient * Nat.pow 10 exponent.natAbs : Nat)
      some (if negative then -n else n)
  | _ => none

/-- Whether a decimal is greater than zero. -/
def isPositive : Decimal → Bool
  | .finite negative coefficient _ => !negative && 0 < coefficient
  | .infinite negative => !negative
  | .nan => false

/-- Whether two decimals are the same number; no number equals `nan`. -/
def sameNumber (a b : Decimal) : Bool :=
  a.canonical == b.canonical && a.canonical != .nan

end Decimal

end TypeWire.Numeric
