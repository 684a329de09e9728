/-!
# Blank characters and empty texts

Two classes of white space: the characters that a docstring's indentation is made of (`isBlank`),
and the narrower class that may surround a number (`isSpace`), which lacks the four separators
`U+001C` to `U+001F`. Where a text may be absent, an empty one often counts as absent (`nonEmpty`).
-/

namespace TypeWire

/-- A text that is there and not empty. -/
def nonEmpty (s : Option String) : Option String := s.filter (· != "")

theorem nonEmpty_of_ne {s : String} (h : s ≠ "") : nonEmpty (some s) = some s := by
  simp [nonEmpty, Option.filter, h]

namespace Text

/-- White space around numbers: the white-space characters of every script. -/
def isSpace (c : Char) : Bool :=
  let n := c.toNat
  (9 ≤ n && n ≤ 13) || n == 32 || n == 0x85 || n == 0xA0 || n == 0x1680 ||
    (0x2000 ≤ n && n ≤ 0x200A) || n == 0x2028 || n == 0x2029 || n == 0x202F || n == 0x205F ||
    n == 0x3000

/-- White space in running text: also the four information separators. -/
def isBlank (c : Char) : Bool := isSpace c || (0x1C ≤ c.toNat && c.toNat ≤ 0x1F)

/-- Removes white space on both sides. -/
def trimSpace (cs : List Char) : List Char :=
  ((cs.dropWhile isSpace).reverse.dropWhile isSpace).reverse

end Text

end TypeWire
