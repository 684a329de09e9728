import TypeWire.Coercion
import TypeWire.Numeric.Fixed
import TypeWire.Value.Display

/-!
# Message templates

A template is a text with places for values, each marked by a percent sign and a letter for the form
of the value. `Template.fill` puts values in: one after the other, or by name from a dictionary. Every
value given one after the other has to be used.
-/

namespace TypeWire.Template

/-- Why a template cannot be filled. -/
inductive FillError where
  | notEnoughValues
  | unusedValues
  | needsDictionary
  | missingName (name : String)
  | incomplete
  | incompleteName
  | unknownForm (form : Char) (position : Nat)
  /-- A form of numbers with a value that is none. -/
  | needsNumber (form : Char) (className : String)
  | needsWhole (form : Char) (className : String)
  | needsReal (className : String)
  | needsCharacter
  | noCharacter
  | needsWidth
  /-- A width or a precision given as a value that is too large. -/
  | largeValue (isWidth : Bool)
  /-- A width or a precision with too many digits. -/
  | largeCount (isWidth : Bool)
  /-- No whole number is nearest to this one. -/
  | notFinite (isNaN : Bool) (shown : String)
  /-- No double is nearest to this whole number. -/
  | largeNumber
deriving DecidableEq, Repr, Inhabited

/-- The message about a template that cannot be filled. -/
def FillError.message : FillError → String
  | notEnoughValues => "not enough arguments for format string"
  | unusedValues => "not all arguments converted during string formatting"
  | needsDictionary => "format requires a mapping"
  | missingName name => Text.quoted name
  | incomplete => "incomplete format"
  | incompleteName => "incomplete format key"
  | unknownForm c i =>
    let shown := if 31 ≤ c.toNat ∧ c.toNat < 126 then c else '?'
    "unsupported format character '" ++ shown.toString ++ "' (0x" ++
      String.ofList (Nat.toDigits 16 c.toNat) ++ ") at index " ++ toString i
  | needsNumber c className =>
    "%" ++ c.toString ++ " format: a real number is required, not " ++ className
  | needsWhole c className =>
    "%" ++ c.toString ++ " format: an integer is required, not " ++ className
  | needsReal className => "must be real number, not " ++ className
  | needsCharacter => "%c requires int or char"
  | noCharacter => "%c arg not in range(0x110000)"
  | needsWidth => "* wants int"
  | largeValue isWidth =>
    "Python int too large to convert to C " ++ if isWidth then "ssize_t" else "int"
  | largeCount isWidth => (if isWidth then "width" else "precision") ++ " too big"
  | notFinite _ shown => "cannot convert " ++ shown ++ " to integer"
  | largeNumber => "int too large to convert to float"

/-- What stands between the percent sign and the letter. -/
structure Style where
  name : Option String := none
  left : Bool := false
  plus : Bool := false
  space : Bool := false
  zero : Bool := false
  alternate : Bool := false
  width : Nat := 0
  precision : Option Nat := none
deriving Inhabited

/-- The values for the places of a template. -/
structure Supply where
  /-- The values that are left; after a name, the value of that name alone. -/
  rest : List Value
  /-- The dictionary from which values are taken by name. -/
  names : Option (List (Value × Value)) := none

/-- The next value. -/
def Supply.next (s : Supply) : Except FillError (Value × Supply) :=
  match s.rest with
  | v :: vs => .ok (v, { s with rest := vs })
  | [] => .error .notEnoughValues

/-- Reads the flags of a place. -/
def readFlags : Style → List Char → Style × List Char
  | s, [] => (s, [])
  | s, c :: cs =>
    if c = '-' then readFlags { s with left := true } cs
    else if c = '+' then readFlags { s with plus := true } cs
    else if c = ' ' then readFlags { s with space := true } cs
    else if c = '0' then readFlags { s with zero := true } cs
    else if c = '#' then readFlags { s with alternate := true } cs
    else (s, c :: cs)

/-- The whole number that a value is. -/
def wholeValue? (v : Value) : Option Int :=
  match v.number? with
  | some (.whole n) => some n
  | _ => none

/-- The largest width or precision. -/
def countLimit (isWidth : Bool) : Int := if isWidth then 0x7fffffffffffffff else 0x7fffffff

/-- Reads a width or a precision: a number, or a star, which stands for the next value. -/
def readCount (isWidth : Bool) (supply : Supply) (cs : List Char) :
    Except FillError (Option Int × Supply × List Char) := do
  match cs with
  | '*' :: rest =>
    let (v, supply) ← supply.next
    match wholeValue? v with
    | some n =>
      if -(countLimit isWidth) - 1 ≤ n ∧ n ≤ countLimit isWidth then return (some n, supply, rest)
      else throw (.largeValue isWidth)
    | none => throw .needsWidth
  | cs =>
    let digits := cs.takeWhile Char.isDigit
    let n : Int := Numeric.ofDigits digits
    if digits = [] then return (none, supply, cs)
    else if n ≤ countLimit isWidth then return (some n, supply, cs.dropWhile Char.isDigit)
    else throw (.largeCount isWidth)

/-- Fills up to a width; zeros go behind the sign. -/
def pad (style : Style) (zeros : Bool) (sign body : String) : String :=
  let missing := style.width - (sign.length + body.length)
  if style.left then sign ++ body ++ String.ofList (List.replicate missing ' ')
  else if zeros && style.zero then sign ++ String.ofList (List.replicate missing '0') ++ body
  else String.ofList (List.replicate missing ' ') ++ sign ++ body

/-- The sign of a number. -/
def signOf (style : Style) (negative : Bool) : String :=
  if negative then "-" else if style.plus then "+" else if style.space then " " else ""

/-- A whole number with digits of a base. -/
def wholeNumber (style : Style) (mark digits : String) (negative : Bool) : String :=
  let digits :=
    String.ofList (List.replicate (style.precision.getD 1 - digits.length) '0') ++ digits
  pad style true (signOf style negative ++ (if style.alternate then mark else "")) digits

/-- A fraction cut to a whole number. -/
def truncated (negative : Bool) (num den : Nat) : Int :=
  if negative then -(num / den : Nat) else (num / den : Nat)

/-- The whole number that a decimal form prints. -/
def wholeOf (form : Char) (v : Value) : Except FillError Int :=
  match v.number? with
  | some (.whole n) => .ok n
  | some (.real x) =>
    match Numeric.Binary64.ofFloat x with
    | .finite b => .ok (truncated b.negative b.fraction.1 b.fraction.2)
    | .nan => .error (.notFinite true "float NaN")
    | .infinite _ => .error (.notFinite false "float infinity")
  | some (.exact (.finite negative coefficient exponent)) =>
    .ok (if exponent < 0 then truncated negative coefficient (Nat.pow 10 exponent.natAbs)
      else truncated negative (coefficient * Nat.pow 10 exponent.natAbs) 1)
  | some (.exact .nan) => .error (.notFinite true "NaN")
  | some (.exact (.infinite _)) => .error (.notFinite false "Infinity")
  | none => .error (.needsNumber form v.className)

/-- The whole number that a form of another base prints. -/
def exactWholeOf (form : Char) (v : Value) : Except FillError Int :=
  match wholeValue? v with
  | some n => .ok n
  | none => .error (.needsWhole form v.className)

/-- A double in one of the forms with a fixed number of digits. -/
def realNumber (style : Style) (form : Char) (x : Float) : String :=
  let lowered := form.toLower
  let places := style.precision.getD 6
  let (negative, body) : Bool × String :=
    match Numeric.Binary64.ofFloat x with
    | .nan => (false, "nan")
    | .infinite negative => (negative, "inf")
    | .finite b =>
      let (num, den) := b.fraction
      (b.negative,
        if lowered = 'f' then Numeric.fixedText style.alternate places num den
        else if lowered = 'e' then Numeric.scientificText style.alternate places num den
        else Numeric.generalText style.alternate places num den)
  pad style true (signOf style negative) (if form.isUpper then body.toUpper else body)

/-- The double that a form of doubles prints. -/
def realOf (v : Value) : Except FillError Float :=
  match v.number? with
  | some (.real x) => .ok x
  | some (.whole n) =>
    match Numeric.floatOfInt? n with
    | some x => .ok x
    | none => .error .largeNumber
  | some (.exact d) => .ok d.toFloat
  | none => .error (.needsReal v.className)

/-- A text cut to the precision and filled up to the width. -/
def runningText (style : Style) (s : String) : String :=
  let cut :=
    match style.precision with
    | some n => String.ofList (s.toList.take n)
    | none => s
  pad style false "" cut

/-- A character given by itself or by its number. -/
def character (v : Value) : Except FillError String :=
  match v.text?, wholeValue? v with
  | some s, _ => if s.length = 1 then .ok s else .error .needsCharacter
  | none, some n =>
    if 0 ≤ n ∧ n < 0x110000 then .ok (Char.ofNat n.toNat).toString else .error .noCharacter
  | none, none => .error .needsCharacter

/-- The digits of a number in a base. -/
def digitsIn (base : Nat) (n : Int) : String := String.ofList (Nat.toDigits base n.natAbs)

/-- A value in the form of a letter, which stands at a position of the template. -/
def render (style : Style) (form : Char) (position : Nat) (v : Value) :
    Except FillError String := do
  match form with
  | 's' => return runningText style v.display
  | 'r' => return runningText style v.literalForm
  | 'a' => return runningText style (Text.asciiOnly v.literalForm)
  | 'd' | 'i' | 'u' =>
    let n ← wholeOf form v
    return wholeNumber { style with alternate := false } "" (digitsIn 10 n) (n < 0)
  | 'x' =>
    let n ← exactWholeOf form v
    return wholeNumber style "0x" (digitsIn 16 n) (n < 0)
  | 'X' =>
    let n ← exactWholeOf form v
    return wholeNumber style "0X" (digitsIn 16 n).toUpper (n < 0)
  | 'o' =>
    let n ← exactWholeOf form v
    return wholeNumber style "0o" (digitsIn 8 n) (n < 0)
  | 'c' => return pad style false "" (← character v)
  | 'f' | 'F' | 'e' | 'E' | 'g' | 'G' => return realNumber style form (← realOf v)
  | c => throw (.unknownForm c position)

/-- Reads the name of a place, up to the closing bracket that matches. -/
def readName : Nat → List Char → Option (List Char × List Char)
  | _, [] => none
  | depth, c :: cs =>
    if c = ')' then
      match depth with
      | 0 => some ([], cs)
      | d + 1 => (readName d cs).map fun (name, rest) => (c :: name, rest)
    else
      (readName (if c = '(' then depth + 1 else depth) cs).map fun (name, rest) => (c :: name, rest)

/-- The supply for a place with the name that follows, and the characters behind the name. -/
def Supply.named (supply : Supply) (cs : List Char) : Except FillError (Supply × List Char) :=
  match supply.names with
  | none => .error .needsDictionary
  | some entries =>
    match readName 0 cs with
    | none => .error .incompleteName
    | some (name, rest) =>
      match Value.lookup (String.ofList name) entries with
      | some v => .ok (⟨[v], entries⟩, rest)
      | none => .error (.missingName (String.ofList name))

/-- The letters that may stand before the letter of the form and have no meaning. -/
def isSize (c : Char) : Bool := c = 'l' || c = 'h' || c = 'L'

/-- Reads what stands between a percent sign and the letter of the form: a name in brackets, flags, a
width, a precision and a letter without meaning. -/
def readStyle (supply : Supply) (cs : List Char) :
    Except FillError (Style × Supply × List Char) := do
  let (supply, cs) ←
    match cs with
    | '(' :: rest => supply.named rest
    | cs => pure (supply, cs)
  let (style, cs) := readFlags {} cs
  let (width, supply, cs) ← readCount true supply cs
  let (precision, supply, cs) ←
    match cs with
    | '.' :: rest => do
      let (n, supply, rest) ← readCount false supply rest
      pure (some (n.getD 0).toNat, supply, rest)
    | cs => pure (none, supply, cs)
  let style := { style with
    width := (width.getD 0).natAbs, left := style.left || width.any (· < 0), precision }
  match cs with
  | c :: rest => return (style, supply, if isSize c then rest else c :: rest)
  | [] => throw .incomplete

/-- Fills the places of a template of `total` characters, the rest of which is given. Two percent
signs stand for one. Each round uses up at least one character, and the fuel is their number. -/
def fillFrom (total : Nat) : Nat → Supply → List Char → Except FillError (String × Supply)
  | 0, supply, _ => .ok ("", supply)
  | _, supply, [] => .ok ("", supply)
  | fuel + 1, supply, '%' :: '%' :: cs => do
    let (tail, supply) ← fillFrom total fuel supply cs
    return ("%" ++ tail, supply)
  | fuel + 1, supply, '%' :: cs => do
    match ← readStyle supply cs with
    | (_, _, []) => throw .incomplete
    | (style, supply, form :: rest) =>
      let (v, supply) ← supply.next
      let text ← render style form (total - (rest.length + 1)) v
      let (tail, supply) ← fillFrom total fuel supply rest
      return (text ++ tail, supply)
  | fuel + 1, supply, c :: cs => do
    let (tail, supply) ← fillFrom total fuel supply cs
    return (c.toString ++ tail, supply)

/-- Fills a template. One dictionary that is not empty gives values by name, and as a value itself
need not be used; all else is given one after the other. -/
def fill (template : String) (values : List Value) : Except FillError String := do
  let cs := template.toList
  match values with
  | [.dict (e :: es)] =>
    let (text, _) ← fillFrom cs.length cs.length ⟨values, some (e :: es)⟩ cs
    return text
  | _ =>
    let (text, supply) ← fillFrom cs.length cs.length ⟨values, none⟩ cs
    if supply.rest.isEmpty then return text else throw .unusedValues

end TypeWire.Template
