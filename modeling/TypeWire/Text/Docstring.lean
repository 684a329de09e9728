import TypeWire.Text.Blank

/-!
# Docstrings

A docstring is written inside indented code. `cleanDocstring` removes what the code's layout put in:
tabs become spaces, the indentation common to all lines but the first goes, and so do blank lines at
both ends.
-/

namespace TypeWire.Text

/-- Tabs become spaces up to the next multiple of eight columns; a line break returns to column
zero. -/
def expandTabs : Nat → List Char → List Char
  | _, [] => []
  | column, c :: cs =>
    if c = '\t' then
      let width := 8 - column % 8
      List.replicate width ' ' ++ expandTabs (column + width) cs
    else if c = '\n' ∨ c = '\r' then c :: expandTabs 0 cs
    else c :: expandTabs (column + 1) cs

/-- The lines of a text; a text without a line break is one line. -/
def splitLines : List Char → List (List Char)
  | [] => [[]]
  | c :: cs =>
    if c = '\n' then [] :: splitLines cs
    else
      match splitLines cs with
      | [] => [[c]]
      | line :: lines => (c :: line) :: lines

/-- The indentation of a line, if anything follows it. -/
def indentation? (line : List Char) : Option Nat :=
  if line.all isBlank then none else some (line.takeWhile isBlank).length

/-- The least of the indentations of the lines that have text. -/
def commonIndentation (lines : List (List Char)) : Option Nat :=
  (lines.filterMap indentation?).min?

/-- Drops empty lines at the start. -/
def dropEmptyLines (lines : List (List Char)) : List (List Char) := lines.dropWhile List.isEmpty

/-- A docstring without the indentation of the code around it. -/
def cleanDocstring (doc : String) : String :=
  match splitLines (expandTabs 0 doc.toList) with
  | [] => ""
  | first :: rest =>
    let margin := (commonIndentation rest).getD 0
    let lines := first.dropWhile isBlank :: rest.map (List.drop margin)
    let kept := dropEmptyLines (dropEmptyLines lines.reverse).reverse
    String.ofList (List.intercalate ['\n'] kept)

end TypeWire.Text
