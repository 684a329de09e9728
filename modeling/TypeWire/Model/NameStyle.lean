import TypeWire.Text.Case

/-!
# Name styles

Styles that make the wire name of a field from its name. Word borders are marked by underscores in
snake case and by capitals in camel and Pascal case; only ASCII letters and digits make borders.
-/

namespace TypeWire

/-- A style for wire names. -/
inductive NameStyle where
  | camel
  | pascal
  | snake
  | upper
deriving DecidableEq, Repr, Inhabited

namespace NameStyle

/-- An ASCII letter or digit. -/
def isWordChar (c : Char) : Bool := c.isAlphanum

/-- A capital or digit, which can begin a word. -/
def beginsWord (c : Char) : Bool := c.isUpper || c.isDigit

/-- Drops the underscores between a word and the beginning of the next; `before` is the character
before the text. -/
def joinWords (before : Option Char) : List Char → List Char
  | [] => []
  | '_' :: c :: cs =>
    if before.any isWordChar && beginsWord c then joinWords (some '_') (c :: cs)
    else '_' :: joinWords (some '_') (c :: cs)
  | c :: cs => c :: joinWords (some c) cs

/-- Each word capitalised, without the underscores between words. -/
def toPascal (name : String) : String :=
  String.ofList (joinWords none (Text.title name).toList)

/-- Puts the first capital in lower case if only underscores stand before it. -/
def lowerFirst : List Char → List Char
  | [] => []
  | c :: cs => if c = '_' then c :: lowerFirst cs else c.toLower :: cs

/-- Whether a digit stands directly before a small letter somewhere. -/
def hasDigitBeforeLetter : List Char → Bool
  | c :: d :: cs => (c.isDigit && d.isLower) || hasDigitBeforeLetter (d :: cs)
  | _ => false

/-- Whether a name is in camel case: small letters first, then letters and digits, and no small
letter after a digit. -/
def isCamel (name : String) : Bool :=
  let cs := name.toList
  cs.head?.any Char.isLower && cs.all Char.isAlphanum && !hasDigitBeforeLetter cs

/-- Camel case; a name that is in camel case stays. -/
def toCamel (name : String) : String :=
  if isCamel name then name
  else
    let pascal := (toPascal name).toList
    match (pascal.dropWhile (· == '_')).head? with
    | some c => if c.isUpper then String.ofList (lowerFirst pascal) else String.ofList pascal
    | none => String.ofList pascal

/-- Puts an underscore between two neighbours wherever a border is. -/
def separate (border : Char → Char → Bool) : List Char → List Char
  | c :: d :: cs =>
    if border c d then c :: '_' :: separate border (d :: cs) else c :: separate border (d :: cs)
  | cs => cs

/-- Puts an underscore before the last capital of a run that a small letter follows. -/
def separateAcronyms : List Char → List Char
  | c :: d :: e :: cs =>
    if c.isUpper && d.isUpper && e.isLower then c :: '_' :: separateAcronyms (d :: e :: cs)
    else c :: separateAcronyms (d :: e :: cs)
  | cs => cs

/-- Snake case: words in lower case with underscores between them. -/
def toSnake (name : String) : String :=
  let cs := separateAcronyms name.toList
  let cs := separate (fun a b => a.isLower && b.isUpper) cs
  let cs := separate (fun a b => a.isDigit && b.isUpper) cs
  let cs := separate (fun a b => a.isLower && b.isDigit) cs
  Text.lower (String.ofList (cs.map fun c => if c = '-' then '_' else c))

/-- The wire name that a style gives a field. -/
def apply : NameStyle → String → String
  | camel, name => toCamel name
  | pascal, name => toPascal name
  | snake, name => toSnake name
  | upper, name => Text.upper name

end NameStyle

end TypeWire
