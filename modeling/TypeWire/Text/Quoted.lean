import TypeWire.Text.Printable

/-!
# Quoted text

Two ways of writing a text inside quotes. `jsonQuoted` is a JSON string: double quotes, and
backslashes before what JSON does not allow. `quoted` is the form used in messages: single quotes
unless that needs an escape and double quotes do not, with an escape for every character that has no
visible form. `asciiOnly` writes what is left beyond ASCII as escapes too, and `bytesQuoted` is the
form of a byte string.
-/

namespace TypeWire.Text

/-- A hexadecimal digit in lower case. -/
def hexDigit (n : Nat) : Char := (Nat.toDigits 16 (n % 16)).headD '0'

/-- The last `width` hexadecimal digits of a number. -/
def hex : Nat → Nat → List Char
  | 0, _ => []
  | width + 1, n => hex width (n / 16) ++ [hexDigit n]

/-- One character inside a JSON string. -/
def jsonChar (c : Char) : List Char :=
  if c = '"' then ['\\', '"']
  else if c = '\\' then ['\\', '\\']
  else if c = '\n' then ['\\', 'n']
  else if c = '\r' then ['\\', 'r']
  else if c = '\t' then ['\\', 't']
  else if c = '\x08' then ['\\', 'b']
  else if c = '\x0c' then ['\\', 'f']
  else if c.toNat < 32 then ['\\', 'u'] ++ hex 4 c.toNat
  else [c]

/-- A text as a JSON string; characters beyond ASCII stand for themselves. -/
def jsonQuoted (s : String) : String :=
  String.ofList ('"' :: s.toList.flatMap jsonChar ++ ['"'])

/-- A character by its number, in the shortest of three forms. -/
def escaped (c : Char) : List Char :=
  if c.toNat < 0x100 then ['\\', 'x'] ++ hex 2 c.toNat
  else if c.toNat < 0x10000 then ['\\', 'u'] ++ hex 4 c.toNat
  else ['\\', 'U'] ++ hex 8 c.toNat

/-- One character inside a quoted text whose quote is `quote`. -/
def quotedChar (quote c : Char) : List Char :=
  if c = quote ∨ c = '\\' then ['\\', c]
  else if c = '\n' then ['\\', 'n']
  else if c = '\r' then ['\\', 'r']
  else if c = '\t' then ['\\', 't']
  else if isPrintable c then [c]
  else escaped c

/-- A text in quotes, as messages show it. -/
def quoted (s : String) : String :=
  let cs := s.toList
  let quote := if cs.contains '\'' && !cs.contains '"' then '"' else '\''
  String.ofList (quote :: cs.flatMap (quotedChar quote) ++ [quote])

/-- A text in which characters beyond ASCII are given by their numbers. -/
def asciiOnly (s : String) : String :=
  String.ofList (s.toList.flatMap fun c => if c.toNat < 0x80 then [c] else escaped c)

/-- The bytes of a text in quotes; those beyond ASCII are given by their numbers. -/
def bytesQuoted (s : String) : String :=
  "b" ++ asciiOnly (quoted (String.ofList (s.toUTF8.toList.map fun b => Char.ofNat b.toNat)))

end TypeWire.Text
