/-!
# Positions and excerpts of a source text

A place in a source text is a line and a column, both counted from one; columns count
characters. A line ends at a carriage return followed by a line feed, or at either of the two
alone.

This module introduces:

- `Position` and `Position.after`, the position reached after reading some characters;
- `splitLines`, the lines of a text;
- `excerpt`, the lines around a position with a caret under the column, and `located`, which
  shows them below a message.
-/

namespace RelayCheck

/-- A place in a source text. -/
structure Position where
  /-- The line, the first being one. -/
  line : Nat
  /-- The character within the line, the first being one. -/
  column : Nat
deriving DecidableEq, Inhabited

namespace Position

/-- The first character of a text. -/
def start : Position := ⟨1, 1⟩

/-- The position reached from `pos` after reading the given characters. -/
def after (pos : Position) : List Char → Position
  | [] => pos
  | '\r' :: '\n' :: rest => after ⟨pos.line + 1, 1⟩ rest
  | c :: rest =>
    if c = '\n' ∨ c = '\r' then after ⟨pos.line + 1, 1⟩ rest
    else after ⟨pos.line, pos.column + 1⟩ rest

end Position

/-- The lines of a text, without their line ends; there is always at least one. -/
def splitLines : List Char → List (List Char)
  | [] => [[]]
  | '\r' :: '\n' :: rest => [] :: splitLines rest
  | c :: rest =>
    if c = '\n' ∨ c = '\r' then [] :: splitLines rest
    else match splitLines rest with
      | [] => [[c]]
      | line :: lines => (c :: line) :: lines

/-- The text cut into pieces of `width` characters, the last one possibly shorter. -/
def pieces (width : Nat) (text : List Char) : List (List Char) :=
  if _h : width = 0 ∨ text.length ≤ width then [text]
  else text.take width :: pieces width (text.drop width)
termination_by text.length
decreasing_by
  simp only [List.length_drop]
  omega

/-- The text with spaces put before it until it has the given width. -/
def padLeft (width : Nat) (text : String) : String :=
  String.ofList (List.replicate (width - text.length) ' ') ++ text

/-- A caret in the given column. -/
def caret (column : Nat) : String :=
  padLeft column "^"

/-- Rows of a label and a text, with the labels aligned to the right; an empty text leaves no
space after its label. -/
def layoutRows (rows : List (String × String)) : String :=
  let width := (rows.map fun row => row.1.length).foldl max 0
  let layoutRow : String × String → String := fun (label, text) =>
    padLeft width label ++ (if text.isEmpty then "" else " " ++ text)
  "\n".intercalate (rows.map layoutRow)

/-- Lines longer than this are shown in pieces. -/
def longLine : Nat := 120

/-- The length of the pieces in which a long line is shown. -/
def pieceWidth : Nat := 80

/-- The line of the position and a caret under its column: with the neighbouring lines, or, for
a long line, in pieces up to the one that follows the caret. -/
def excerpt (source : String) (pos : Position) : String :=
  let lines := (splitLines source.toList).map String.ofList
  let line := lines[pos.line - 1]?.getD ""
  let label : Nat → String := fun number => toString number ++ " |"
  if line.length > longLine then
    let parts := (pieces pieceWidth line.toList).map String.ofList
    let index := pos.column / pieceWidth
    layoutRows <|
      ((parts.take 1).map fun part => (label pos.line, part))
        ++ (((parts.take (index + 1)).drop 1).map fun part => ("|", part))
        ++ [("|", caret (pos.column % pieceWidth))]
        ++ (parts[index + 1]?.toList.map fun part => ("|", part))
  else
    let before := if pos.line ≤ 1 then none else lines[pos.line - 2]?
    layoutRows <|
      (before.toList.map fun text => (label (pos.line - 1), text))
        ++ [(label pos.line, line), ("|", caret pos.column)]
        ++ (lines[pos.line]?.toList.map fun text => (label (pos.line + 1), text))

/-- A message with the position it refers to and the excerpt of the source around it. -/
def located (message source : String) (pos : Position) : String :=
  s!"{message}\n\nGraphQL request:{pos.line}:{pos.column}\n" ++ excerpt source pos

end RelayCheck
