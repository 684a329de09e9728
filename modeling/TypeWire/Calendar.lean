import TypeWire.Numeric.Decimal

/-!
# Dates and times

Days of the proleptic Gregorian calendar and times of day with an optional offset from UTC. A day is
numbered from 1970-01-01 by counting through eras of four hundred years (`Date.toDays`,
`Date.ofDays`), each of which has the same number of days. `DateTime.ofText?` reads the forms that
wire data use.
-/

namespace TypeWire

/-- A calendar day. -/
structure Date where
  year : Int
  month : Nat
  day : Nat
deriving DecidableEq, Repr, Inhabited

/-- A day with a time of day, and the offset from UTC in seconds where one is known. -/
structure DateTime where
  date : Date
  hour : Nat
  minute : Nat
  second : Nat
  microsecond : Nat
  offset : Option Int
deriving DecidableEq, Repr, Inhabited

namespace Date

/-- Leap years: each fourth, but of the hundreds only each fourth. -/
def isLeap (year : Int) : Bool := year % 4 == 0 && (year % 100 != 0 || year % 400 == 0)

/-- The number of days of a month. -/
def daysInMonth (year : Int) (month : Nat) : Nat :=
  if month = 2 then (if isLeap year then 29 else 28)
  else if month = 4 ∨ month = 6 ∨ month = 9 ∨ month = 11 then 30
  else 31

/-- The day with these parts, if there is one in the years 1 to 9999. -/
def ofParts? (year : Int) (month day : Nat) : Option Date :=
  if 1 ≤ year ∧ year ≤ 9999 ∧ 1 ≤ month ∧ month ≤ 12 ∧ 1 ≤ day ∧ day ≤ daysInMonth year month then
    some ⟨year, month, day⟩
  else none

/-- The number of the day, counted from 1970-01-01. Years start in March here, so that the leap day
is the last of its year. -/
def toDays (d : Date) : Int :=
  let y := if d.month ≤ 2 then d.year - 1 else d.year
  let era := Int.fdiv y 400
  let yearOfEra := y - era * 400
  let monthFromMarch : Int := ((d.month : Int) + 9) % 12
  let dayOfYear := (153 * monthFromMarch + 2) / 5 + d.day - 1
  let dayOfEra := yearOfEra * 365 + yearOfEra / 4 - yearOfEra / 100 + dayOfYear
  era * 146097 + dayOfEra - 719468

/-- The day with a number. -/
def ofDays (n : Int) : Date :=
  let z := n + 719468
  let era := Int.fdiv z 146097
  let dayOfEra := z - era * 146097
  let yearOfEra := (dayOfEra - dayOfEra / 1460 + dayOfEra / 36524 - dayOfEra / 146096) / 365
  let dayOfYear := dayOfEra - (365 * yearOfEra + yearOfEra / 4 - yearOfEra / 100)
  let monthFromMarch := (5 * dayOfYear + 2) / 153
  let day := dayOfYear - (153 * monthFromMarch + 2) / 5 + 1
  let month := if monthFromMarch < 10 then monthFromMarch + 3 else monthFromMarch - 9
  ⟨yearOfEra + era * 400 + (if month ≤ 2 then 1 else 0), month.toNat, day.toNat⟩

end Date

/-- A number padded with zeros on the left. -/
def padded (width n : Nat) : String :=
  let s := toString n
  String.ofList (List.replicate (width - s.length) '0') ++ s

/-- The text of a day, `YYYY-MM-DD`. -/
def Date.text (d : Date) : String :=
  padded 4 d.year.toNat ++ "-" ++ padded 2 d.month ++ "-" ++ padded 2 d.day

/-- The text of an offset from UTC: sign, hours and minutes, seconds only where there are any. -/
def offsetText (seconds : Int) : String :=
  let n := seconds.natAbs
  (if seconds < 0 then "-" else "+") ++ padded 2 (n / 3600) ++ ":" ++ padded 2 (n / 60 % 60) ++
    (if n % 60 = 0 then "" else ":" ++ padded 2 (n % 60))

namespace DateTime

/-- Date and time of day without an offset; microseconds only where there are any. -/
def localText (t : DateTime) : String :=
  t.date.text ++ "T" ++ padded 2 t.hour ++ ":" ++ padded 2 t.minute ++ ":" ++ padded 2 t.second ++
    (if t.microsecond = 0 then "" else "." ++ padded 6 t.microsecond)

/-- The text with a numeric offset. -/
def text (t : DateTime) : String := t.localText ++ (t.offset.map offsetText).getD ""

/-- The text with `Z` for UTC. -/
def zuluText (t : DateTime) : String :=
  t.localText ++
    match t.offset with
    | none => ""
    | some 0 => "Z"
    | some s => offsetText s

/-- The start of a day. -/
def midnight (d : Date) : DateTime := ⟨d, 0, 0, 0, 0, none⟩

/-- The time in UTC a number of seconds and microseconds after the start of 1970, if its year is one
of 1 to 9999. -/
def ofSeconds? (seconds : Int) (microseconds : Nat) : Option DateTime :=
  let seconds := seconds + (microseconds / 1000000 : Nat)
  let date := Date.ofDays (Int.fdiv seconds 86400)
  let rest := (Int.fmod seconds 86400).toNat
  if 1 ≤ date.year ∧ date.year ≤ 9999 then
    some ⟨date, rest / 3600, rest / 60 % 60, rest % 60, microseconds % 1000000, some 0⟩
  else none

/-- Microseconds from the start of 1970, in UTC for a time with an offset. -/
def toMicroseconds (t : DateTime) : Int :=
  let seconds := t.date.toDays * 86400 + (t.hour * 3600 + t.minute * 60 + t.second : Nat) -
    t.offset.getD 0
  seconds * 1000000 + t.microsecond

/-- Whether two times are the same: the same moment if both have an offset, the same parts if
neither has one. -/
def sameMoment (a b : DateTime) : Bool :=
  a.offset.isSome == b.offset.isSome && a.toMicroseconds == b.toMicroseconds

end DateTime

/-! ## Reading -/

/-- Two decimal digits. -/
def twoDigits? (a b : Char) : Option Nat :=
  if a.isDigit ∧ b.isDigit then some (Numeric.ofDigits [a, b]) else none

/-- Reads `YYYY-MM-DD` and returns what follows it. -/
def Date.read? : List Char → Option (Date × List Char)
  | y1 :: y2 :: y3 :: y4 :: '-' :: m1 :: m2 :: '-' :: d1 :: d2 :: rest => do
    if [y1, y2, y3, y4].all Char.isDigit then
      let month ← twoDigits? m1 m2
      let day ← twoDigits? d1 d2
      let date ← Date.ofParts? (Numeric.ofDigits [y1, y2, y3, y4]) month day
      return (date, rest)
    else none
  | _ => none

/-- Reads an offset from UTC: nothing, `Z`, or a signed `HH:MM` or `HHMM` below a day. -/
def readOffset? : List Char → Option (Option Int)
  | [] => some none
  | ['Z'] | ['z'] => some (some 0)
  | sign :: h1 :: h2 :: rest => do
    let negative := sign = '-' || sign = '\u2212'
    if negative ∨ sign = '+' then
      let hours ← twoDigits? h1 h2
      let minutes ←
        match rest with
        | [':', m1, m2] => twoDigits? m1 m2
        | [m1, m2] => twoDigits? m1 m2
        | _ => none
      if hours < 24 ∧ minutes < 60 then
        let n : Int := (hours * 60 + minutes) * 60
        return some (if negative then -n else n)
      else none
    else none
  | _ => none

/-- The first six digits of a fraction as microseconds. -/
def microseconds (digits : List Char) : Nat :=
  let kept := digits.take 6
  Numeric.ofDigits (kept ++ List.replicate (6 - kept.length) '0')

/-- Reads the optional seconds of a time, with an optional fraction, and returns what follows. -/
def readSeconds? : List Char → Option (Nat × Nat × List Char)
  | ':' :: s1 :: s2 :: rest => do
    let second ← twoDigits? s1 s2
    match rest with
    | c :: digits =>
      if c = '.' ∨ c = ',' then
        let fraction := digits.takeWhile Char.isDigit
        if fraction = [] then none
        else return (second, microseconds fraction, digits.dropWhile Char.isDigit)
      else return (second, 0, rest)
    | [] => return (second, 0, [])
  | rest => some (0, 0, rest)

/-- Reads a day with an optional time: after `T`, a space or an underscore hours and minutes, with
optional seconds and an optional offset. -/
def DateTime.ofText? (cs : List Char) : Option DateTime := do
  let (date, rest) ← Date.read? cs
  match rest with
  | [] => return DateTime.midnight date
  | separator :: h1 :: h2 :: ':' :: m1 :: m2 :: rest =>
    if separator = 'T' ∨ separator = 't' ∨ separator = ' ' ∨ separator = '_' then
      let hour ← twoDigits? h1 h2
      let minute ← twoDigits? m1 m2
      let (second, micro, rest) ← readSeconds? rest
      let offset ← readOffset? rest
      if hour < 24 ∧ minute < 60 ∧ second < 60 then
        return ⟨date, hour, minute, second, micro, offset⟩
      else none
    else none
  | _ => none

end TypeWire
