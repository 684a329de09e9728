import TypeWire.Yaml.Cursor

/-!
# Block scalars

After `|` or `>` the lines that follow are text as long as they are indented. `|` keeps the line
breaks; `>` folds a break between two lines that both begin without a blank. A header says how deep
the text is indented, where that cannot be seen, and what becomes of the line breaks at its end.
-/

namespace TypeWire.Yaml.Block

/-- What becomes of the line breaks at the end: none, one or all are kept. -/
inductive Chomping where
  | strip
  | clip
  | keep
deriving DecidableEq, Repr

/-- The header of a block scalar. -/
structure Header where
  chomping : Chomping := .clip
  /-- The indentation of the text relative to its surroundings. -/
  indent : Option Nat := none

/-- The sign for what becomes of the last breaks. -/
def chompingOf? : Char → Option Chomping
  | '+' => some .keep
  | '-' => some .strip
  | _ => none

/-- Reads the signs of a header, in either order, and tells how many there are. -/
def readSigns : List Char → Except Error (Header × Nat)
  | a :: rest =>
    match chompingOf? a, rest with
    | some chomping, b :: _ =>
      if b.isDigit then (digit b).map fun n => (⟨chomping, some n⟩, 2)
      else .ok (⟨chomping, none⟩, 1)
    | some chomping, [] => .ok (⟨chomping, none⟩, 1)
    | none, rest =>
      if a.isDigit then do
        let n ← digit a
        match rest.head?.bind chompingOf? with
        | some chomping => return (⟨chomping, some n⟩, 2)
        | none => return (⟨.clip, some n⟩, 1)
      else .ok ({}, 0)
  | [] => .ok ({}, 0)
where
  /-- An indentation is at least one. -/
  digit (c : Char) : Except Error Nat :=
    if c = '0' then .error (.malformed .badHeader) else .ok (c.toNat - '0'.toNat)

/-- Moves over spaces and breaks from a place behind so many spaces of a line, with the breaks so
far. -/
def emptyLinesFrom (limit : Nat) (p : Position) (spaces : Nat) (reversed : List Char) :
    List Char → List Char × Cursor
  | [] => (reversed.reverse, ⟨[], p⟩)
  | c :: rest =>
    if c = ' ' ∧ spaces < limit then emptyLinesFrom limit (p.next c) (spaces + 1) reversed rest
    else if isBreak c then emptyLinesFrom limit (p.next c) 0 (breakText c :: reversed) rest
    else (reversed.reverse, ⟨c :: rest, p⟩)

/-- Moves over empty lines: their breaks, and the place behind the spaces of the line after them. At
most `limit` spaces of a line are taken. -/
def emptyLines (limit : Nat) (c : Cursor) : List Char × Cursor :=
  emptyLinesFrom limit c.position 0 [] c.rest

theorem length_emptyLinesFrom_le (limit : Nat) (p : Position) (spaces : Nat)
    (reversed cs : List Char) :
    (emptyLinesFrom limit p spaces reversed cs).2.rest.length ≤ cs.length := by
  induction cs generalizing p spaces reversed with
  | nil => simp [emptyLinesFrom]
  | cons c rest ih =>
    simp only [emptyLinesFrom]
    split
    · exact Nat.le_succ_of_le (ih ..)
    · split
      · exact Nat.le_succ_of_le (ih ..)
      · simp

theorem length_emptyLines_le (limit : Nat) (c : Cursor) :
    (emptyLines limit c).2.rest.length ≤ c.rest.length :=
  length_emptyLinesFrom_le ..

/-- The text of a block scalar, without what becomes of its last line break. -/
structure Lines where
  reversed : List Char
  /-- The break behind the last line. -/
  lastBreak : List Char := []
  /-- The breaks of the empty lines behind that. -/
  breaks : List Char := []
  after : Cursor

/-- What joins two lines with empty lines between them: the first break, unless it is folded, and the
breaks of the empty lines. -/
def joint (folded : Bool) (line : List Char) (b : Char) (breaks : List Char) (next : List Char) :
    List Char :=
  let text (cs : List Char) : Bool := !cs.head?.any isBlank
  (if folded ∧ breakText b = '\n' ∧ text line ∧ text next then
    if breaks = [] then [' '] else []
  else [breakText b]) ++ breaks

/-- Reads lines, the first of which begins at the cursor. -/
def readLines (folded : Bool) (indent : Nat) (reversed : List Char) (c : Cursor) : Lines :=
  match _h : (c.span (!isBreak ·)).2.rest with
  | [] => ⟨c.rest.reverse ++ reversed, [], [], (c.span (!isBreak ·)).2⟩
  | b :: rest =>
    let line := (c.span (!isBreak ·)).1
    let reversed := line.reverse ++ reversed
    let next := emptyLines indent ⟨rest, (c.span (!isBreak ·)).2.position.next b⟩
    if next.2.position.column = indent ∧ next.2.rest ≠ [] then
      readLines folded indent ((joint folded line b next.1 next.2.rest).reverse ++ reversed) next.2
    else ⟨reversed, [breakText b], next.1, next.2⟩
termination_by c.rest.length
decreasing_by
  have h1 := length_emptyLines_le indent ⟨rest, (c.span (!isBreak ·)).2.position.next b⟩
  have h2 := Cursor.length_span_le (!isBreak ·) c
  have h3 := congrArg List.length _h
  simp only [List.length_cons] at h1 h3
  omega

/-- How deep the first line of text is indented that is not empty, or an empty line before it if that
is deeper: the breaks before it, that depth, and the place behind its spaces. -/
def firstLine (c : Cursor) : List Char × Nat × Cursor :=
  let (breaks, after) := emptyLines c.rest.length c
  let gap := c.rest.take (c.rest.length - after.rest.length)
  (breaks, deepest 0 0 gap, after)
where
  /-- The longest run of spaces in a gap. -/
  deepest (column best : Nat) : List Char → Nat
    | [] => best
    | c :: rest =>
      if c = ' ' then deepest (column + 1) (max best (column + 1)) rest else deepest 0 best rest

/-- Reads a block scalar whose sign is behind the cursor. `indent` is the least indentation of its
text. -/
def read (folded : Bool) (indent : Nat) (c : Cursor) : Except Error (String × Cursor) := do
  let (header, n) ← readSigns c.rest
  let c := c.skip n
  if !endsItem c.rest then throw (.malformed .badHeader)
  let c ← c.skipLineEnd .badHeader
  let (breaks, indent, start) : List Char × Nat × Cursor :=
    match header.indent with
    | some n =>
      let (breaks, start) := emptyLines (indent + n - 1) c
      (breaks, indent + n - 1, start)
    | none =>
      let (breaks, depth, start) := firstLine c
      (breaks, max indent depth, start)
  let lines :=
    if start.position.column = indent ∧ start.rest ≠ [] then
      readLines folded indent breaks.reverse start
    else ⟨[], [], breaks, start⟩
  let last :=
    match header.chomping with
    | .strip => []
    | .clip => lines.lastBreak
    | .keep => lines.lastBreak ++ lines.breaks
  return (String.ofList (lines.reversed.reverse ++ last), lines.after)

end TypeWire.Yaml.Block
