import TypeWire.Yaml.Property
import TypeWire.Yaml.Scalar.Quoted
import TypeWire.Yaml.Scalar.Plain
import TypeWire.Yaml.Scalar.Block

/-!
# The tokens of a text

Outside brackets the layout counts. A collection is open as long as no line is indented less than its
first item (`Scan.closeBlocks`). That a token is a key is only known at the colon behind it: each
token that could be one is remembered as a candidate, in its line and for 1024 characters, one for
each bracket that is open; at a colon the `key` token is put in front of it, and if that key is
indented deeper than its surroundings a mapping opens there (`Scan.value`).
-/

namespace TypeWire.Yaml

/-- A token that is a key if a colon follows. -/
structure Candidate where
  /-- The number of tokens in front of it. -/
  place : Nat
  position : Position
  /-- It stands where the keys of a mapping stand, so that it has to be one. -/
  required : Bool

/-- The longest text of a key that is told by its colon. -/
def longestKey : Nat := 1024

/-- The state of reading tokens. -/
structure Scan where
  cursor : Cursor
  /-- The columns of the open collections in block style, innermost first. -/
  columns : List Nat := []
  candidate : Option Candidate := none
  /-- The candidates around the open brackets, innermost first. -/
  outer : List (Option Candidate) := []
  /-- Whether a key may begin here. -/
  keyAllowed : Bool := true
  tokens : Array Token := #[]

namespace Scan

/-- Whether a bracket is open. -/
def inFlow (s : Scan) : Bool := !s.outer.isEmpty

/-- The column of the next character. -/
def column (s : Scan) : Nat := s.cursor.position.column

/-- Adds a token. -/
def emit (t : Token) (s : Scan) : Scan := { s with tokens := s.tokens.push t }

/-- Adds a token that has so many characters. -/
def take (n : Nat) (t : Token) (s : Scan) : Scan := { s.emit t with cursor := s.cursor.skip n }

/-- Closes the collections that are indented deeper than a column. -/
def closeBlocks (column : Nat) (s : Scan) : Scan :=
  if s.inFlow then s
  else
    let closed := s.columns.takeWhile (column < ·)
    { s with
      columns := s.columns.dropWhile (column < ·)
      tokens := s.tokens ++ closed.map fun _ => Token.blockEnd }

/-- Closes all collections in block style. -/
def closeAll (s : Scan) : Scan :=
  if s.inFlow then s
  else { s with columns := [], tokens := s.tokens ++ s.columns.map fun _ => Token.blockEnd }

/-- Whether a collection opens at a column. -/
def opensAt (column : Nat) (s : Scan) : Bool :=
  match s.columns with
  | [] => true
  | c :: _ => c < column

/-- Opens a collection at the next character if that is indented deeper than the last. -/
def openBlock (t : Token) (s : Scan) : Scan :=
  if s.opensAt s.column then { s.emit t with columns := s.column :: s.columns } else s

/-- Gives up a candidate. -/
def dismiss (c : Option Candidate) : Except Error (Option Candidate) :=
  if c.any Candidate.required then .error (.malformed .keyWithoutValue) else .ok none

/-- Gives up the innermost candidate. -/
def dropCandidate (s : Scan) : Except Error Scan := do
  return { s with candidate := ← dismiss s.candidate }

/-- Gives up a candidate from which the reader has gone too far. -/
def expire (here : Position) (c : Option Candidate) : Except Error (Option Candidate) :=
  if c.any fun c => c.position.line ≠ here.line ∨ c.position.index + longestKey < here.index then
    dismiss c
  else .ok c

/-- Gives up the candidates from which the reader has gone too far. -/
def expireCandidates (s : Scan) : Except Error Scan := do
  let here := s.cursor.position
  return { s with candidate := ← expire here s.candidate, outer := ← s.outer.mapM (expire here) }

/-- Remembers that the next token could be a key. -/
def noteCandidate (s : Scan) : Except Error Scan :=
  if s.keyAllowed then do
    let s ← s.dropCandidate
    let required := !s.inFlow && s.columns.head? == some s.column
    return { s with candidate := some ⟨s.tokens.size, s.cursor.position, required⟩ }
  else .ok s

/-! ## Gaps between tokens -/

/-- Moves over spaces, comments and line breaks, and tells whether there were breaks. -/
def skipGapFrom (p : Position) (inComment broken : Bool) : List Char → Bool × Cursor
  | [] => (broken, ⟨[], p⟩)
  | c :: rest =>
    if isBreak c then skipGapFrom (p.next c) false true rest
    else if inComment || c = ' ' || c = '#' then
      skipGapFrom (p.next c) (inComment || c = '#') broken rest
    else (broken, ⟨c :: rest, p⟩)

/-- Moves to the next token. On a new line a key may begin, and collections may be over. -/
def toNextToken (s : Scan) : Except Error Scan := do
  let start :=
    if s.cursor.position.index = 0 ∧ s.cursor.rest.head? = some '\uFEFF' then s.cursor.skip 1
    else s.cursor
  let (broken, cursor) := skipGapFrom start.position false false start.rest
  let s := { s with cursor, keyAllowed := s.keyAllowed || (broken && !s.inFlow) }
  return (← s.expireCandidates).closeBlocks s.column

/-! ## Tokens -/

/-- What begins or ends a document, or stands in front of it, ends all collections. -/
def endAll (s : Scan) : Except Error Scan := do
  let s ← s.closeAll.dropCandidate
  return { s with keyAllowed := false }

/-- A bracket opens; it could begin a key. -/
def openFlow (t : Token) (s : Scan) : Except Error Scan := do
  let s ← s.noteCandidate
  return { s.take 1 t with candidate := none, outer := s.candidate :: s.outer, keyAllowed := true }

/-- A bracket closes. -/
def closeFlow (c : Char) (t : Token) (s : Scan) : Except Error Scan := do
  let s ← s.dropCandidate
  match s.outer with
  | [] => throw (.malformed (.badStart c))
  | candidate :: outer => return { s.take 1 t with candidate, outer, keyAllowed := false }

/-- A comma. -/
def comma (s : Scan) : Except Error Scan := do
  return { (← s.dropCandidate).take 1 .comma with keyAllowed := true }

/-- A dash in front of an item; the first opens a sequence. -/
def entry (s : Scan) : Except Error Scan := do
  if !s.inFlow && !s.keyAllowed then throw (.malformed .entryNotAllowed)
  let s := if s.inFlow then s else s.openBlock .blockSequence
  return { (← s.dropCandidate).take 1 .entry with keyAllowed := true }

/-- A question mark in front of a key; the first opens a mapping. -/
def key (s : Scan) : Except Error Scan := do
  if !s.inFlow && !s.keyAllowed then throw (.malformed .keyNotAllowed)
  let s := if s.inFlow then s else s.openBlock .blockMapping
  return { (← s.dropCandidate).take 1 .key with keyAllowed := !s.inFlow }

/-- A colon. The candidate in front of it, if there is one, is a key. -/
def value (s : Scan) : Except Error Scan := do
  match s.candidate with
  | some c =>
    let opens := !s.inFlow && s.opensAt c.position.column
    let added := if opens then [.key, Token.blockMapping] else [.key]
    let tokens := added.foldl (·.insertIdxIfInBounds c.place ·) s.tokens
    let columns := if opens then c.position.column :: s.columns else s.columns
    return { ({ s with tokens, columns } : Scan).take 1 .value with
      candidate := none, keyAllowed := false }
  | none =>
    if !s.inFlow && !s.keyAllowed then throw (.malformed .valueNotAllowed)
    let s := if s.inFlow then s else s.openBlock .blockMapping
    return { s.take 1 .value with keyAllowed := !s.inFlow }

/-- A token that could be a key, and behind which no key begins. -/
def word (read : Cursor → Except Error (Token × Cursor)) (s : Scan) : Except Error Scan := do
  let s ← s.noteCandidate
  let (t, cursor) ← read s.cursor
  return { s.emit t with cursor, keyAllowed := false }

/-- A plain scalar. Behind a line break a key may begin. -/
def plain (s : Scan) : Except Error Scan := do
  let s ← s.noteCandidate
  let indent := (s.columns.head?.map (· + 1)).getD 0
  let (text, lineEnded, cursor) := Plain.read ⟨s.inFlow, indent⟩ s.cursor
  return { s.emit (.scalar text true) with cursor, keyAllowed := lineEnded }

/-- A block scalar. -/
def block (folded : Bool) (s : Scan) : Except Error Scan := do
  let s ← s.dropCandidate
  let indent := (s.columns.head?.map (· + 1)).getD 1
  let (text, cursor) ← Block.read folded indent (s.cursor.skip 1)
  return { s.emit (.scalar text false) with cursor, keyAllowed := true }

/-- Whether a plain scalar may begin with a character. -/
def beginsPlain (inFlow : Bool) (c : Char) (rest : List Char) : Bool :=
  let signs := ['-', '?', ':', ',', '[', ']', '{', '}', '#', '&', '*', '!', '|', '>', '\'', '"', '%',
    '@', '\x60']
  (!isBlank c && !isBreak c && !signs.contains c) ||
    (!endsWord rest && (c == '-' || (!inFlow && (c == '?' || c == ':'))))

/-- Reads the token that begins with a character. -/
def step (s : Scan) (c : Char) (rest : List Char) : Except Error Scan :=
  let stands := endsWord rest
  if s.column = 0 ∧ c = '%' then do
    let s ← s.endAll
    let (d, cursor) ← readDirective s.cursor
    return { s.emit (.directive d) with cursor }
  else if s.column = 0 ∧ isMarker (c :: rest) then do
    return (← s.endAll).take 3 (if c = '-' then .documentStart else .documentEnd)
  else
    match c with
    | '[' => s.openFlow .openBracket
    | '{' => s.openFlow .openBrace
    | ']' => s.closeFlow c .closeBracket
    | '}' => s.closeFlow c .closeBrace
    | ',' => s.comma
    | '*' => s.word fun start => (readName (start.skip 1)).map fun (n, after) => (.reference n, after)
    | '&' => s.word fun start => (readName (start.skip 1)).map fun (n, after) => (.anchor n, after)
    | '!' => s.word fun start => (readTag start).map fun (t, after) => (.tag t, after)
    | '\'' | '"' =>
      s.word fun start => (Quoted.read c (start.skip 1)).map fun (t, after) => (.scalar t false, after)
    | c =>
      if c = '-' ∧ stands then s.entry
      else if c = '?' ∧ (s.inFlow ∨ stands) then s.key
      else if c = ':' ∧ (s.inFlow ∨ stands) then s.value
      else if (c = '|' ∨ c = '>') ∧ !s.inFlow then s.block (c = '>')
      else if beginsPlain s.inFlow c rest then s.plain
      else .error (.malformed (.badStart c))

/-- The number of characters read. -/
def index (s : Scan) : Nat := s.cursor.position.index

/-- Reads all tokens of a text of `limit` characters, from a place on. Each token takes at least one
character. -/
def runFrom (limit start : Nat) (s : Scan) : Except Error (Array Token) := do
  let here ← s.toNextToken
  match here.cursor.rest with
  | [] => return (← here.endAll).tokens
  | c :: rest =>
    let next ← here.step c rest
    if _h : start < next.index ∧ next.index ≤ limit then runFrom limit next.index next
    else throw (.malformed (.badStart c))
termination_by limit - start

end Scan

/-- The characters that a document may be written with. -/
def isPrintable (c : Char) : Bool :=
  let n := c.toNat
  n == 0x09 || n == 0x0A || n == 0x0D || (0x20 ≤ n && n ≤ 0x7E) || n == 0x85 ||
    (0xA0 ≤ n && n ≤ 0xD7FF) || (0xE000 ≤ n && n ≤ 0xFFFD) || 0x10000 ≤ n

/-- The tokens of a text. -/
def Token.ofText (cs : List Char) : Except Error (List Token) :=
  match cs.find? (!isPrintable ·) with
  | some c => .error (.malformed (.unprintable c))
  | none => (Scan.runFrom cs.length 0 { cursor := { rest := cs } }).map Array.toList

end TypeWire.Yaml
