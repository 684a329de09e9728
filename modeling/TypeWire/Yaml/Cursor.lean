import TypeWire.Yaml.Error

/-!
# Places in a text

The layout of a document hangs on lines and columns. A `Cursor` is the rest of a text together with
the place where it begins, so that a reader which returns a cursor also says how far it came.
-/

namespace TypeWire.Yaml

/-- Line breaks. -/
def isBreak (c : Char) : Bool :=
  c == '\n' || c == '\u0085' || c == '\u2028' || c == '\u2029'

/-- The character that a line break counts as in a text. -/
def breakText (c : Char) : Char := if c = '\u0085' then '\n' else c

/-- Spaces and tabs. -/
def isBlank (c : Char) : Bool := c == ' ' || c == '\t'

/-- Whether a text is at its end, at a line break or at a blank. -/
def endsWord : List Char → Bool
  | [] => true
  | c :: _ => isBlank c || isBreak c

/-- Whether a text is at its end, at a line break or at a space. -/
def endsItem : List Char → Bool
  | [] => true
  | c :: _ => c == ' ' || isBreak c

/-- Whether a line begins with three dashes or three dots that stand alone. -/
def isMarker : List Char → Bool
  | '-' :: '-' :: '-' :: rest => endsWord rest
  | '.' :: '.' :: '.' :: rest => endsWord rest
  | _ => false

/-- The characters of names: ASCII letters, digits, dash and underscore. -/
def isNameChar (c : Char) : Bool := c.isAlphanum || c == '-' || c == '_'

/-- The value of a hexadecimal digit. -/
def hexValue? (c : Char) : Option Nat :=
  if c.isDigit then some (c.toNat - '0'.toNat)
  else if 'a' ≤ c ∧ c ≤ 'f' then some (c.toNat - 'a'.toNat + 10)
  else if 'A' ≤ c ∧ c ≤ 'F' then some (c.toNat - 'A'.toNat + 10)
  else none

/-- Lines that are broken inside a scalar: the first break becomes a space, but if others follow it
only these are kept. A break that is no line feed is kept in any case. -/
def foldBreaks (first : Char) (more : List Char) : List Char :=
  (if first ≠ '\n' then [first] else if more = [] then [' '] else []) ++ more

/-- A place in a text. -/
structure Position where
  index : Nat := 0
  line : Nat := 0
  column : Nat := 0
deriving Repr, DecidableEq

/-- The place after a character. A byte order mark takes no column. -/
def Position.next (p : Position) (c : Char) : Position :=
  if isBreak c then ⟨p.index + 1, p.line + 1, 0⟩
  else if c = '\uFEFF' then ⟨p.index + 1, p.line, p.column⟩
  else ⟨p.index + 1, p.line, p.column + 1⟩

/-- The rest of a text, and the place where it begins. -/
structure Cursor where
  rest : List Char
  position : Position := {}

namespace Cursor

/-- Moves over a number of characters. -/
def skip (n : Nat) (c : Cursor) : Cursor :=
  ⟨c.rest.drop n, (c.rest.take n).foldl Position.next c.position⟩

/-- Cuts off the characters up to the first that is out of a class. -/
def span (p : Char → Bool) (c : Cursor) : List Char × Cursor :=
  (c.rest.takeWhile p, ⟨c.rest.dropWhile p, (c.rest.takeWhile p).foldl Position.next c.position⟩)

/-- Moves over the characters of a class. -/
def skipWhile (p : Char → Bool) (c : Cursor) : Cursor := (c.span p).2

@[simp] theorem length_skip (n : Nat) (c : Cursor) :
    (c.skip n).rest.length = c.rest.length - n := by
  simp [skip]

/-- Moves over the rest of a line in which only a comment may stand. -/
def skipLineEnd (problem : Problem) (c : Cursor) : Except Error Cursor :=
  let c := c.skipWhile (· = ' ')
  let c := if c.rest.head? = some '#' then c.skipWhile (!isBreak ·) else c
  match c.rest with
  | [] => .ok c
  | b :: _ => if isBreak b then .ok (c.skip 1) else .error (.malformed problem)

theorem length_span_le (p : Char → Bool) (c : Cursor) :
    (c.span p).2.rest.length ≤ c.rest.length :=
  (List.dropWhile_suffix p).length_le

end Cursor

end TypeWire.Yaml
