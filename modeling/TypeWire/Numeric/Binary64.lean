/-!
# Double-precision numbers, exactly

`Binary64` is a floating-point number read as sign, whole mantissa and power of two, so that its
value is a fraction of natural numbers (`Binary64.Finite.fraction`). Everything that must be exact
about a number, its shortest text, its integral part, its comparison with an integer, is computed
from that fraction and never by rounding arithmetic.
-/

namespace TypeWire.Numeric

/-- A finite double: `±mantissa · 2 ^ exponent`. -/
structure Finite where
  negative : Bool
  mantissa : Nat
  exponent : Int
deriving DecidableEq, Repr

/-- A double, taken apart. -/
inductive Binary64 where
  | finite (x : Finite)
  | infinite (negative : Bool)
  | nan
deriving DecidableEq, Repr

/-- The parts are read off the bit pattern: one sign bit, eleven of exponent, fifty-two of
fraction; a zero exponent field has no leading one, an all-ones field is not a number. -/
def Binary64.ofFloat (x : Float) : Binary64 :=
  let bits : Nat := x.toBits.toNat
  let negative := decide (bits / Nat.pow 2 63 = 1)
  let field : Nat := bits / Nat.pow 2 52 % Nat.pow 2 11
  let fraction : Nat := bits % Nat.pow 2 52
  if field = 2047 then
    if fraction = 0 then .infinite negative else .nan
  else if field = 0 then .finite ⟨negative, fraction, -1074⟩
  else .finite ⟨negative, fraction + Nat.pow 2 52, (field : Int) - 1075⟩

namespace Finite

/-- The absolute value as numerator and denominator. -/
def fraction (x : Finite) : Nat × Nat :=
  if x.exponent < 0 then (x.mantissa, Nat.pow 2 x.exponent.natAbs)
  else (x.mantissa * Nat.pow 2 x.exponent.natAbs, 1)

/-- The whole number that the value is, if it is one. -/
def toInt? (x : Finite) : Option Int :=
  let (num, den) := x.fraction
  if num % den = 0 then
    let n : Int := (num / den : Nat)
    some (if x.negative then -n else n)
  else none

end Finite

/-- The whole number that a double is, if it is one. -/
def Binary64.toInt? : Binary64 → Option Int
  | .finite x => x.toInt?
  | _ => none

end TypeWire.Numeric
