import TypeWire.Yaml.Cursor

/-!
# Plain scalars

A scalar without quotes goes on as long as nothing in it can mean anything else: it ends at a colon
that ends a word, at a `#` behind a blank, at a tab, at a line that is not indented deeper than its
surroundings or that begins or ends a document, and between brackets at the characters that
separate items there. Lines are folded as in quoted scalars.
-/

namespace TypeWire.Yaml.Plain

/-- What stands since the last character of the scalar. -/
inductive Gap where
  | none
  | spaces (count : Nat)
  /-- Line breaks, and the number of spaces in the line that follows. -/
  | lines (first : Char) (reversed : List Char) (column : Nat)

/-- What a gap counts as. -/
def Gap.text : Gap → List Char
  | .none => []
  | .spaces count => List.replicate count ' '
  | .lines first reversed _ => foldBreaks first reversed.reverse

/-- A gap goes on with a space. -/
def Gap.space : Gap → Gap
  | .none => .spaces 1
  | .spaces count => .spaces (count + 1)
  | .lines first reversed column => .lines first reversed (column + 1)

/-- A gap goes on with a line break. -/
def Gap.newLine (c : Char) : Gap → Gap
  | .lines first reversed _ => .lines first (breakText c :: reversed) 0
  | _ => .lines (breakText c) [] 0

/-- Whether a line break stands in a gap. -/
def Gap.isLines : Gap → Bool
  | .lines .. => true
  | _ => false

/-- What may stand around a plain scalar. -/
structure Surroundings where
  /-- Inside brackets. -/
  inFlow : Bool
  /-- The least number of spaces before a further line, outside brackets. -/
  indent : Nat

/-- The characters that end a plain scalar between brackets. -/
def isFlowSign (c : Char) : Bool := [',', '[', ']', '{', '}'].contains c

/-- Whether a character that is no space and no break ends the scalar. -/
def endsAt (around : Surroundings) (c : Char) (rest : List Char) : Bool :=
  c == '\t' ||
  (c == ':' && (endsWord rest || (around.inFlow && rest.head?.any isFlowSign))) ||
  (around.inFlow && (isFlowSign c || c == '?'))

/-- Whether a gap ends the scalar in front of a character. -/
def endsIn (around : Surroundings) (c : Char) : Gap → Bool
  | .none => false
  | .spaces _ => c == '#'
  | .lines _ _ column => c == '#' || (!around.inFlow && column < around.indent)

/-- Reads on after a gap; `reversed` is the text so far. The answer also tells whether a line break
stands behind the scalar. -/
def readFrom (around : Surroundings) (p : Position) :
    Gap → List Char → List Char → List Char × Bool × Cursor
  | gap, reversed, [] => (reversed, gap.isLines, ⟨[], p⟩)
  | gap, reversed, c :: rest =>
    if c = ' ' then readFrom around (p.next c) gap.space reversed rest
    else if isBreak c then
      if isMarker rest then (reversed, true, ⟨rest, p.next c⟩)
      else readFrom around (p.next c) (gap.newLine c) reversed rest
    else if endsIn around c gap || endsAt around c rest then
      (reversed, gap.isLines, ⟨c :: rest, p⟩)
    else readFrom around (p.next c) .none (c :: (gap.text.reverse ++ reversed)) rest

/-- Reads a plain scalar: its text, whether a line break stands behind it, and what follows. -/
def read (around : Surroundings) (c : Cursor) : String × Bool × Cursor :=
  let (reversed, lineEnded, after) := readFrom around c.position .none [] c.rest
  (String.ofList reversed.reverse, lineEnded, after)

end TypeWire.Yaml.Plain
