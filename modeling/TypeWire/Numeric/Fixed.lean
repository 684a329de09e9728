import TypeWire.Numeric.Decimal

/-!
# Numbers with a fixed number of digits

Rounding a fraction to a whole number (`roundHalfEven`), and the texts of a double with a given number
of places after the point, positional or with an exponent. Every digit is computed from the exact
value.
-/

namespace TypeWire.Numeric

/-- The whole number nearest to a fraction; of two equally near the even one. -/
def roundHalfEven (num den : Nat) : Nat :=
  let q := num / den
  let twice := 2 * (num % den)
  if twice < den then q else if den < twice then q + 1 else if q % 2 = 0 then q else q + 1

/-- The whole number nearest to a double, if that is finite. -/
def roundFloat? (x : Float) : Option Int :=
  match Binary64.ofFloat x with
  | .finite b =>
    let n : Int := roundHalfEven b.fraction.1 b.fraction.2
    some (if b.negative then -n else n)
  | _ => none

/-- A digit string with a point before its last `places` digits. A point with no digits after it is
written only with `keepPoint`. -/
def withPoint (keepPoint : Bool) (places : Nat) (digits : String) : String :=
  let padded := String.ofList (List.replicate (places + 1 - digits.length) '0') ++ digits
  let cs := padded.toList
  let whole := String.ofList (cs.take (cs.length - places))
  if places = 0 && !keepPoint then whole
  else whole ++ "." ++ String.ofList (cs.drop (cs.length - places))

/-- A fraction with `places` digits after the point. -/
def fixedText (keepPoint : Bool) (places num den : Nat) : String :=
  withPoint keepPoint places (toString (roundHalfEven (num * Nat.pow 10 places) den))

/-- A fraction rounded to `count` digits: the digits and the exponent of the first. -/
def roundedDigits (count num den : Nat) : Nat × Int :=
  if num = 0 then (0, 0)
  else
    let first := pointPlace num den - 1
    let shift : Int := (count : Int) - 1 - first
    let n :=
      if 0 ≤ shift then roundHalfEven (num * Nat.pow 10 shift.natAbs) den
      else roundHalfEven num (den * Nat.pow 10 shift.natAbs)
    if n < Nat.pow 10 count then (n, first) else (n / 10, first + 1)

/-- A fraction with one digit before the point, `places` after it, and an exponent. -/
def scientificText (keepPoint : Bool) (places num den : Nat) : String :=
  let (n, e) := roundedDigits (places + 1) num den
  withPoint keepPoint places (toString n) ++ plainFloat.exponent e

/-- A digit string without zeros at the end of its fraction. -/
def dropFractionZeros (s : String) : String :=
  if s.contains '.' then
    let cs := s.toList.reverse.dropWhile (· == '0')
    String.ofList ((if cs.head? = some '.' then cs.tail else cs).reverse)
  else s

/-- A fraction with `count` digits in the shorter notation: with an exponent if that is below `-4` or
not below `count`. Without `keepZeros` there are no zeros at the end of the fraction, and no point
without a fraction. -/
def generalText (keepZeros : Bool) (count num den : Nat) : String :=
  let count := max count 1
  let (n, e) := roundedDigits count num den
  let tidy (s : String) := if keepZeros then s else dropFractionZeros s
  if e < -4 ∨ (count : Int) ≤ e then
    tidy (withPoint keepZeros (count - 1) (toString n)) ++ plainFloat.exponent e
  else tidy (fixedText keepZeros ((count : Int) - 1 - e).toNat num den)

end TypeWire.Numeric
