import TypeWire.Numeric.Binary64

/-!
# The shortest decimal text of a double

`shortest` finds the fewest decimal digits that read back as the same double. The reals that round
to a double form an interval around it; the search goes through the decimal grids of one, two, up to
seventeen digits and tests, in exact integer arithmetic, the two grid points next to the value. The
first grid with a point inside the interval gives the digits; of two points the nearer is taken.

`FloatText` holds the decisions of a printed form that are not arithmetic: where positional notation
ends and how an exponent is written.
-/

namespace TypeWire.Numeric

/-- The decimal number `digits · 10 ^ exponent`. -/
structure Scaled where
  digits : Nat
  exponent : Int
deriving DecidableEq, Repr

/-- The number of decimal digits of `n`, one for zero. -/
def digitCount (n : Nat) : Nat := (Nat.toDigits 10 n).length

/-- Removes trailing zeros, at most `fuel` of them. -/
def Scaled.trim : Nat → Scaled → Scaled
  | 0, s => s
  | fuel + 1, s =>
    if s.digits ≠ 0 ∧ s.digits % 10 = 0 then trim fuel ⟨s.digits / 10, s.exponent + 1⟩ else s

/-- The least `k ≥ start` with `den ≤ num · 10 ^ k`, looked for through `fuel` candidates. -/
def leadingPlace (num den : Nat) : Nat → Nat → Nat
  | 0, k => k
  | fuel + 1, k => if den ≤ num * Nat.pow 10 k then k else leadingPlace num den fuel (k + 1)

/-- The place of the decimal point: the `p` with `10 ^ (p - 1) ≤ num / den < 10 ^ p`. -/
def pointPlace (num den : Nat) : Int :=
  if den ≤ num then (digitCount (num / den) : Int)
  else 1 - (leadingPlace num den 400 1 : Int)

/-- A positive double with the interval of the reals that round to it, all three over one
denominator. The ends belong to the interval iff the mantissa is even. -/
structure Interval where
  low : Nat
  value : Nat
  high : Nat
  den : Nat
  closed : Bool

/-- Neighbouring doubles lie half a unit away, but only a quarter below a power of two. -/
def Finite.interval (x : Finite) : Interval :=
  let below := if x.mantissa = Nat.pow 2 52 ∧ x.exponent ≠ -1074 then 1 else 2
  let scale := if x.exponent < 0 then 1 else Nat.pow 2 x.exponent.natAbs
  { low := (4 * x.mantissa - below) * scale
    value := 4 * x.mantissa * scale
    high := (4 * x.mantissa + 2) * scale
    den := if x.exponent < 0 then 4 * Nat.pow 2 x.exponent.natAbs else 4
    closed := x.mantissa % 2 = 0 }

/-- Whether `n / den` lies in the interval, for an `n` already brought to its denominator. -/
def Interval.contains (i : Interval) (n low high : Nat) : Bool :=
  if i.closed then low ≤ n && n ≤ high else low < n && n < high

/-- The point of the grid `10 ^ e` next to the value that lies in the interval, the nearer of two,
the even one of two equally near. -/
def Interval.onGrid? (i : Interval) (e : Int) : Option Nat :=
  let unit := if e < 0 then 1 else Nat.pow 10 e.natAbs
  let scale := if e < 0 then Nat.pow 10 e.natAbs else 1
  let step := unit * i.den
  let value := i.value * scale
  let inside (d : Nat) := i.contains (d * step) (i.low * scale) (i.high * scale)
  let down := value / step
  let up := down + 1
  match inside down, inside up with
  | true, true =>
    let left := value - down * step
    let right := up * step - value
    if left < right || (left = right && down % 2 = 0) then some down else some up
  | true, false => some down
  | false, true => some up
  | false, false => none

/-- The first grid with a hit among those of `count`, `count + 1`, … digits, below `fuel` more. -/
def Interval.search (i : Interval) (place : Int) : Nat → Nat → Option Scaled
  | 0, _ => none
  | fuel + 1, count =>
    let e := place - count
    match i.onGrid? e with
    | some d => some ⟨d, e⟩
    | none => i.search place fuel (count + 1)

/-- The fewest decimal digits that read back as the double, without trailing zeros. -/
def Finite.shortest (x : Finite) : Scaled :=
  if x.mantissa = 0 then ⟨0, 0⟩
  else
    let i := x.interval
    match i.search (pointPlace i.value i.den) 17 1 with
    | some s => s.trim 20
    | none => ⟨x.fraction.1, 0⟩

/-- The decisions of a printed form of doubles. -/
structure FloatText where
  /-- Exponents below this one are written out. -/
  leastPositional : Int
  /-- Exponents from this one on are written out. -/
  pastPositional : Int
  exponentMark : String
  /-- An exponent has at least this many digits. -/
  exponentWidth : Nat
  /-- What follows a whole number written positionally. -/
  wholeTail : String
  nan : String
  infinity : String

private def zeros (n : Nat) : String := String.ofList (List.replicate n '0')

/-- The text of an exponent: its sign always, then its digits padded with zeros. -/
def FloatText.exponent (f : FloatText) (e : Int) : String :=
  let digits := toString e.natAbs
  f.exponentMark ++ (if e < 0 then "-" else "+") ++ zeros (f.exponentWidth - digits.length) ++ digits

/-- The text of a positive decimal number. -/
def FloatText.scaled (f : FloatText) (s : Scaled) : String :=
  let digits := toString s.digits
  let place : Int := s.exponent + digits.length
  let e := place - 1
  if s.digits = 0 then "0" ++ f.wholeTail
  else if e < f.leastPositional ∨ f.pastPositional ≤ e then
    let tail := (digits.drop 1).toString
    (digits.take 1).toString ++ (if tail = "" then "" else "." ++ tail) ++ f.exponent e
  else if place ≤ 0 then "0." ++ zeros place.natAbs ++ digits
  else if (digits.length : Int) ≤ place then
    digits ++ zeros (place - digits.length).natAbs ++ f.wholeTail
  else (digits.take place.natAbs).toString ++ "." ++ (digits.drop place.natAbs).toString

/-- The text of a double. -/
def FloatText.render (f : FloatText) (x : Float) : String :=
  match Binary64.ofFloat x with
  | .nan => f.nan
  | .infinite negative => (if negative then "-" else "") ++ f.infinity
  | .finite b => (if b.negative then "-" else "") ++ f.scaled b.shortest

/-- Numbers are positional from `0.0001` up to below `10 ^ 16`, a whole number keeps `.0`, and an
exponent has a sign and two digits. -/
def plainFloat : FloatText where
  leastPositional := -4
  pastPositional := 16
  exponentMark := "e"
  exponentWidth := 2
  wholeTail := ".0"
  nan := "nan"
  infinity := "inf"

/-- The text of a double in the plain form. -/
def floatText (x : Float) : String := plainFloat.render x

end TypeWire.Numeric
