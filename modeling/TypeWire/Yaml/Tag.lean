import TypeWire.Numeric.Decimal
import TypeWire.Yaml.Error

/-!
# Tags

The tag of a node says what kind of value it is. A plain scalar without a tag gets one by the form of
its text (`Tag.ofPlain`): truth values, whole numbers in four bases, numbers with a point, numbers in
base sixty, dates and times, and texts.
-/

namespace TypeWire.Yaml

/-- The kind of value that a node is. -/
inductive Tag where
  | null
  | bool
  | int
  | float
  | timestamp
  | binary
  | text
  | sequence
  | mapping
  | set
  | orderedMapping
  | pairs
  /-- The key whose value is merged into a mapping. -/
  | merge
  /-- The key of the value of a mapping that stands for a scalar. -/
  | value
  | unknown (name : String)
deriving DecidableEq, Repr, Inhabited

namespace Tag

/-- The tags with names of their own. -/
def known : List (String × Tag) :=
  [("null", .null), ("bool", .bool), ("int", .int), ("float", .float), ("timestamp", .timestamp),
    ("binary", .binary), ("str", .text), ("seq", .sequence), ("map", .mapping), ("set", .set),
    ("omap", .orderedMapping), ("pairs", .pairs), ("merge", .merge), ("value", .value)]

/-- The tag with a full name. -/
def ofName (name : String) : Tag :=
  ((known.map fun (short, tag) => ("tag:yaml.org,2002:" ++ short, tag)).lookup name).getD
    (.unknown name)

/-! ## The forms of plain scalars -/

/-- Decimal digits and underscores. -/
def isDigitOrLine (c : Char) : Bool := c.isDigit || c == '_'

/-- Whether a text is a digit of a class, with digits of the class and underscores behind it. -/
def isGroup (first : Char → Bool) : List Char → Bool
  | [] => false
  | c :: rest => first c && rest.all isDigitOrLine

/-- Whether a text is a number below sixty, of one or two digits. -/
def isSixtieth : List Char → Bool
  | [a] => a.isDigit
  | [a, b] => '0' ≤ a && a ≤ '5' && b.isDigit
  | _ => false

/-- A text without its sign. -/
def unsigned (cs : List Char) : List Char := (Numeric.takeSign cs).2

/-- Whether a text is a whole number: binary, hexadecimal, octal or decimal, or in base sixty. -/
def isWhole (cs : List Char) : Bool :=
  let nonzero (c : Char) := '1' ≤ c && c ≤ '9'
  match unsigned cs with
  | ['0'] => true
  | '0' :: 'b' :: digits => digits ≠ [] && digits.all fun c => c == '0' || c == '1' || c == '_'
  | '0' :: 'x' :: digits =>
    digits ≠ [] && digits.all fun c =>
      isDigitOrLine c || ('a' ≤ c && c ≤ 'f') || ('A' ≤ c && c ≤ 'F')
  | '0' :: digits => digits.all fun c => ('0' ≤ c && c ≤ '7') || c == '_'
  | cs =>
    match cs.splitOn ':' with
    | [] => false
    | first :: rest => isGroup nonzero first && rest.all isSixtieth

/-- Whether a text is nothing or an exponent, which has a sign. -/
def isExponent : List Char → Bool
  | [] => true
  | e :: sign :: digits =>
    (e == 'e' || e == 'E') && (sign == '+' || sign == '-') && digits ≠ [] &&
      digits.all Char.isDigit
  | _ => false

/-- Whether a text is a number with a point. -/
def isReal (cs : List Char) : Bool :=
  let whole := (unsigned cs).takeWhile (· != '.')
  match (unsigned cs).dropWhile (· != '.') with
  | _ :: fraction =>
    let digits := fraction.takeWhile isDigitOrLine
    let rest := fraction.dropWhile isDigitOrLine
    let name := String.ofList fraction
    if whole = [] then
      ((cs.head? == some '.') && isGroup Char.isDigit digits && isExponent rest) ||
        ["inf", "Inf", "INF"].contains name ||
        ((cs.head? == some '.') && ["nan", "NaN", "NAN"].contains name)
    else
      match whole.splitOn ':' with
      | [digits] => isGroup Char.isDigit digits && isExponent rest
      | first :: sixtieths => isGroup Char.isDigit first && sixtieths.all isSixtieth && rest = []
      | [] => false
  | [] => false

/-- The parts of a time text. -/
structure TimeText where
  year : Nat
  month : Nat
  day : Nat
  /-- Hour, minute, second and the digits of the fraction, then the offset in seconds. -/
  time : Option (Nat × Nat × Nat × List Char × Option Int) := none
  /-- Month and day have two digits each, and no time follows. -/
  isFullDate : Bool

/-- Cuts off one or two digits. -/
def shortNumber? : List Char → Option (Nat × List Char)
  | a :: rest =>
    if a.isDigit then
      match rest with
      | b :: rest' =>
        if b.isDigit then some (Numeric.ofDigits [a, b], rest')
        else some (Numeric.ofDigits [a], rest)
      | [] => some (Numeric.ofDigits [a], [])
    else none
  | [] => none

/-- Cuts off a sign and two digits. -/
def signedPair? (sign : Char) : List Char → Option (Nat × List Char)
  | c :: a :: b :: rest =>
    if c = sign ∧ a.isDigit ∧ b.isDigit then some (Numeric.ofDigits [a, b], rest) else none
  | _ => none

/-- Reads the offset of a time text, in seconds. -/
def offset? (cs : List Char) : Option (Option Int) :=
  match cs with
  | [] => some none
  | ['Z'] => some (some 0)
  | sign :: digits =>
    if sign = '+' ∨ sign = '-' then do
      let (hours, rest) ← shortNumber? digits
      let minutes ←
        match rest with
        | [] => some 0
        | rest =>
          match signedPair? ':' rest with
          | some (minutes, []) => some minutes
          | _ => none
      let seconds : Int := (hours * 60 + minutes) * 60
      return some (if sign = '-' then -seconds else seconds)
    else none

/-- Reads the time in a time text. -/
def time? (cs : List Char) : Option (Nat × Nat × Nat × List Char × Option Int) := do
  let (hour, rest) ← shortNumber? cs
  let (minute, rest) ← signedPair? ':' rest
  let (second, rest) ← signedPair? ':' rest
  let (fraction, rest) : List Char × List Char :=
    match rest with
    | '.' :: rest => (rest.takeWhile Char.isDigit, rest.dropWhile Char.isDigit)
    | rest => ([], rest)
  let isGap (c : Char) := c == ' ' || c == '\t'
  let gap := rest.takeWhile isGap
  let rest := rest.dropWhile isGap
  if gap ≠ [] ∧ rest = [] then none
  else return (hour, minute, second, fraction, ← offset? rest)

/-- Reads a time text: year, month and day, then, behind `T` or blanks, a time with an optional
offset. -/
def TimeText.ofChars? : List Char → Option TimeText
  | y1 :: y2 :: y3 :: y4 :: '-' :: rest =>
    if [y1, y2, y3, y4].all Char.isDigit then do
      let year := Numeric.ofDigits [y1, y2, y3, y4]
      let (month, rest') ← shortNumber? rest
      let (day, last) ←
        match rest' with
        | '-' :: rest' => shortNumber? rest'
        | _ => none
      match last with
      | [] => return { year, month, day, isFullDate := rest.length = 5 }
      | separator :: digits =>
        if separator = 'T' ∨ separator = 't' then
          return { year, month, day, time := some (← time? digits), isFullDate := false }
        else if separator = ' ' ∨ separator = '\t' then
          let digits := digits.dropWhile fun c => c == ' ' || c == '\t'
          return { year, month, day, time := some (← time? digits), isFullDate := false }
        else none
    else none
  | _ => none

/-- Whether a text is a time text; a date alone has to have all its digits. -/
def isTime (cs : List Char) : Bool :=
  (TimeText.ofChars? cs).any fun t => t.time.isSome || t.isFullDate

/-- The truth values, in lower case. -/
def truths : List (String × Bool) :=
  [("yes", true), ("no", false), ("true", true), ("false", false), ("on", true), ("off", false)]

/-- The three spellings of a word that count: in lower case, with a capital, in upper case. -/
def spellings (word : String) : List String := [word, word.capitalize, word.toUpper]

/-- The tag of a plain scalar. -/
def ofPlain (text : String) : Tag :=
  let cs := text.toList
  if cs = [] || text = "~" || (spellings "null").contains text then .null
  else if (truths.flatMap fun (word, _) => spellings word).contains text then .bool
  else if isReal cs then .float
  else if isWhole cs then .int
  else if isTime cs then .timestamp
  else if text = "<<" then .merge
  else if text = "=" then .value
  else .text

end Tag

end TypeWire.Yaml
