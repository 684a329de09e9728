import TypeWire.Yaml.Token

/-!
# Names, tags and directives

The words that begin with a sign of their own: `&name` and `*name`, `!tag`, and the directives that
a line with `%` at its start holds.
-/

namespace TypeWire.Yaml

/-- Whether a text goes on with what may stand behind the name of an anchor. -/
def endsName (cs : List Char) : Bool :=
  endsWord cs || cs.head?.any ['?', ':', ',', ']', '}', '%', '@', '\x60'].contains

/-- Reads the name of an anchor or an alias. -/
def readName (c : Cursor) : Except Error (String × Cursor) :=
  let (name, after) := c.span isNameChar
  if name ≠ [] ∧ endsName after.rest then .ok (String.ofList name, after)
  else .error (.malformed .badName)

/-! ## Tags -/

/-- The characters of a tag. -/
def isTagChar (c : Char) : Bool :=
  c.isAlphanum ||
    ['-', ';', '/', '?', ':', '@', '&', '=', '+', '$', ',', '_', '.', '!', '~', '*', '\'', '(', ')',
      '[', ']', '%'].contains c

/-- The bytes of a tag, in which `%` and two hexadecimal digits are one byte. -/
def tagBytes : List Char → Option (List UInt8)
  | [] => some []
  | '%' :: a :: b :: rest => do
    let high ← hexValue? a
    let low ← hexValue? b
    return UInt8.ofNat (high * 16 + low) :: (← tagBytes rest)
  | '%' :: _ => none
  | c :: rest => (tagBytes rest).map (UInt8.ofNat c.toNat :: ·)

/-- Reads the name of a tag, at least one character. -/
def readTagName (problem : Problem) (c : Cursor) : Except Error (String × Cursor) :=
  let (written, after) := c.span isTagChar
  match (tagBytes written).bind fun bytes => String.fromUTF8? ⟨bytes.toArray⟩ with
  | some name => if written = [] then .error (.malformed problem) else .ok (name, after)
  | none => .error (.malformed problem)

/-- Reads a handle: `!` alone, in front of a space, or a name between two of them. -/
def readHandle (problem : Problem) (c : Cursor) : Except Error (String × Cursor) :=
  let inner := c.skip 1
  if inner.rest.head? = some ' ' then .ok ("!", inner)
  else
    let (name, after) := inner.span isNameChar
    if after.rest.head? = some '!' then .ok ("!" ++ String.ofList name ++ "!", after.skip 1)
    else .error (.malformed problem)

/-- Reads a tag, which begins at the cursor: `!<name>`, `!` alone, or a name behind a handle. -/
def readTag (c : Cursor) : Except Error (WrittenTag × Cursor) := do
  let inner := c.skip 1
  let (tag, after) ←
    if inner.rest.head? = some '<' then do
      let (name, after) ← readTagName .badTag (inner.skip 1)
      if after.rest.head? ≠ some '>' then throw (.malformed .badTag)
      pure (WrittenTag.mk none name, after.skip 1)
    else if endsWord inner.rest then pure (WrittenTag.mk none "!", inner)
    else do
      let word := inner.rest.takeWhile fun ch => !(ch == ' ' || isBreak ch)
      let (handle, after) ←
        if word.contains '!' then readHandle .badTag c else pure ("!", inner)
      let (suffix, after) ← readTagName .badTag after
      pure (WrittenTag.mk (some handle) suffix, after)
  if endsItem after.rest then return (tag, after) else throw (.malformed .badTag)

/-! ## Directives -/

/-- Reads a number of at least one digit. -/
def readNumber (c : Cursor) : Except Error (Nat × Cursor) :=
  let (digits, after) := c.span Char.isDigit
  if digits = [] then .error (.malformed .badDirective)
  else .ok (digits.foldl (fun n d => n * 10 + (d.toNat - '0'.toNat)) 0, after)

/-- Reads the number of a version. -/
def readVersion (c : Cursor) : Except Error (Directive × Cursor) := do
  let (major, after) ← readNumber (c.skipWhile (· = ' '))
  if after.rest.head? ≠ some '.' then throw (.malformed .badDirective)
  let (_, after) ← readNumber (after.skip 1)
  if endsItem after.rest then return (.version major, after) else throw (.malformed .badDirective)

/-- Reads the definition of a handle. -/
def readHandleDefinition (c : Cursor) : Except Error (Directive × Cursor) := do
  let start := c.skipWhile (· = ' ')
  if start.rest.head? ≠ some '!' then throw (.malformed .badDirective)
  let (handle, after) ← readHandle .badDirective start
  if after.rest.head? ≠ some ' ' then throw (.malformed .badDirective)
  let (name, after) ← readTagName .badDirective (after.skipWhile (· = ' '))
  if endsItem after.rest then return (.tag handle name, after) else throw (.malformed .badDirective)

/-- Reads a directive, which begins at the cursor, with the rest of its line. -/
def readDirective (c : Cursor) : Except Error (Directive × Cursor) := do
  let (name, after) := (c.skip 1).span isNameChar
  if name = [] ∨ !endsItem after.rest then throw (.malformed .badDirective)
  let (directive, after) ←
    match String.ofList name with
    | "YAML" => readVersion after
    | "TAG" => readHandleDefinition after
    | _ => pure (.other, after.skipWhile (!isBreak ·))
  return (directive, ← after.skipLineEnd .badDirective)

end TypeWire.Yaml
