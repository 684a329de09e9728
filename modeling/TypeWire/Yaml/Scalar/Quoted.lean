import TypeWire.Yaml.Cursor

/-!
# Quoted scalars

A scalar in single quotes writes a single quote twice and knows no other escape. A scalar in double
quotes has escapes with a backslash, for single characters, for code numbers and for a line break
that shall not count. In both a line break with the blanks around it counts as one space, and each
empty line after it as a line feed. The reader (`Quoted.read`) goes over the text once; what it
remembers between two characters is the gap since the last one that counts.
-/

namespace TypeWire.Yaml.Quoted

/-- What stands since the last character that counts. -/
inductive Gap where
  | none
  | blanks (reversed : List Char)
  /-- Line breaks; the first is absent where it was escaped. -/
  | lines (first : Option Char) (reversed : List Char)

/-- What a gap counts as. -/
def Gap.text : Gap → List Char
  | .none => []
  | .blanks reversed => reversed.reverse
  | .lines (some first) reversed => foldBreaks first reversed.reverse
  | .lines Option.none reversed => reversed.reverse

/-- A gap goes on with a blank; blanks at the start of a line do not count. -/
def Gap.blank (c : Char) : Gap → Gap
  | .none => .blanks [c]
  | .blanks reversed => .blanks (c :: reversed)
  | .lines first reversed => .lines first reversed

/-- A gap goes on with a line break; blanks in front of it do not count. -/
def Gap.newLine (c : Char) : Gap → Gap
  | .lines first reversed => .lines first (breakText c :: reversed)
  | _ => .lines (some (breakText c)) []

/-- What the next character belongs to. -/
inductive Mode where
  | text (gap : Gap)
  /-- Behind a backslash. -/
  | escape
  /-- Within a code number, of which so many digits are still to come. -/
  | code (left : Nat) (value : Nat)

/-- The characters that a letter behind a backslash stands for. -/
def escapes : List (Char × Char) :=
  [('0', '\x00'), ('a', '\x07'), ('b', '\x08'), ('t', '\t'), ('\t', '\t'), ('n', '\n'),
    ('v', '\x0b'), ('f', '\x0c'), ('r', '\r'), ('e', '\x1b'), (' ', ' '), ('"', '"'), ('\\', '\\'),
    ('/', '/'), ('N', '\u0085'), ('_', '\u00a0'), ('L', '\u2028'), ('P', '\u2029')]

/-- How many digits the code number behind a letter has. -/
def codeLength? : Char → Option Nat
  | 'x' => some 2
  | 'u' => some 4
  | 'U' => some 8
  | _ => none

/-- The text of a list of codes, latest first. Two halves of a surrogate pair are one character; a
half that stands alone is replaced. -/
def textOfCodes : List Nat → List Char → List Char
  | [], acc => acc
  | low :: high :: rest, acc =>
    if 0xDC00 ≤ low ∧ low < 0xE000 ∧ 0xD800 ≤ high ∧ high < 0xDC00 then
      textOfCodes rest (Char.ofNat (0x10000 + (high - 0xD800) * 0x400 + (low - 0xDC00)) :: acc)
    else textOfCodes (high :: rest) (shown low :: acc)
  | [n], acc => shown n :: acc
where
  /-- The character with a code. -/
  shown (n : Nat) : Char := if 0xD800 ≤ n ∧ n < 0xE000 then '\uFFFD' else Char.ofNat n

/-- Codes are kept latest first. -/
def addText (text : List Char) (codes : List Nat) : List Nat :=
  text.foldl (fun acc c => c.toNat :: acc) codes

/-- Reads up to the closing quote. -/
def readFrom (quote : Char) (p : Position) :
    Mode → List Nat → List Char → Except Error (List Nat × Cursor)
  | _, _, [] => .error (.malformed .unclosedQuote)
  | .text gap, codes, c :: rest =>
    if isBreak c then
      if isMarker rest then .error (.malformed .markerInQuotes)
      else readFrom quote (p.next c) (.text (gap.newLine c)) codes rest
    else if isBlank c then readFrom quote (p.next c) (.text (gap.blank c)) codes rest
    else
      let codes := addText gap.text codes
      if c = '\'' ∧ quote = '\'' then
        match rest with
        | '\'' :: rest =>
          readFrom quote ((p.next c).next c) (.text .none) (c.toNat :: codes) rest
        | rest => .ok (codes, ⟨rest, p.next c⟩)
      else if c = quote then .ok (codes, ⟨rest, p.next c⟩)
      else if c = '\\' ∧ quote = '"' then readFrom quote (p.next c) .escape codes rest
      else readFrom quote (p.next c) (.text .none) (c.toNat :: codes) rest
  | .escape, codes, c :: rest =>
    match escapes.lookup c, codeLength? c with
    | some meant, _ => readFrom quote (p.next c) (.text .none) (meant.toNat :: codes) rest
    | _, some n => readFrom quote (p.next c) (.code n 0) codes rest
    | _, _ =>
      if isBreak c then
        if isMarker rest then .error (.malformed .markerInQuotes)
        else readFrom quote (p.next c) (.text (.lines none [])) codes rest
      else .error (.malformed .badEscape)
  | .code left value, codes, c :: rest =>
    match hexValue? c with
    | none => .error (.malformed .badEscape)
    | some d =>
      let value := value * 16 + d
      if left > 1 then readFrom quote (p.next c) (.code (left - 1) value) codes rest
      else if value < 0x110000 then
        readFrom quote (p.next c) (.text .none) (value :: codes) rest
      else if value < 0x80000000 then .error (.misfit (.noCharacter value))
      else .error (.misfit .codeTooLarge)

/-- Reads a scalar whose opening quote is behind the cursor. -/
def read (quote : Char) (c : Cursor) : Except Error (String × Cursor) := do
  let (codes, after) ← readFrom quote c.position (.text .none) [] c.rest
  return (String.ofList (textOfCodes codes []), after)

end TypeWire.Yaml.Quoted
