import MiniScheme.Console.Brackets
import MiniScheme.Text.Span

/-!
# Highlighting

The line being typed is coloured: strings green, a pair of brackets next to the
cursor blue, brackets that do not fit each other red. A character is coloured by
terminal control sequences around it.

A closing bracket settles the colour of the bracket it closes, which stands
earlier in the line. The coloured line is therefore kept as a row of cells, and
an open bracket as the number of its cell together with the width in bytes of
the coloured line before it; that width is what the cursor is compared with.
-/

namespace MiniScheme.Console

/-- How a character is shown. -/
inductive Colour where
  | plain
  | green
  | blue
  | boldBlue
  | red
  | boldRed
  deriving DecidableEq

/-- The parameters of the control sequence that switches a colour on. -/
def Colour.code? : Colour → Option String
  | plain => none
  | green => some "32"
  | blue => some "34"
  | boldBlue => some "1;34"
  | red => some "31"
  | boldRed => some "1;31"

/-- A character and its colour. -/
structure Cell where
  char : Char
  colour : Colour
  deriving DecidableEq

/-- The text of a cell, its control sequences included. -/
def Cell.text (cell : Cell) : List Char :=
  match cell.colour.code? with
  | none => [cell.char]
  | some code => "\x1b[".toList ++ code.toList ++ 'm' :: cell.char :: "\x1b[0m".toList

/-- The text of a row of cells. -/
def renderCells (cells : List Cell) : List Char := cells.flatMap Cell.text

/-- The width of a row of cells in bytes. -/
def cellsWidth (cells : List Cell) : Nat := byteLength (renderCells cells)

/-- An open bracket: which it is, its cell, and the width before it. -/
structure OpenBracket where
  bracket : Char
  cell : Nat
  width : Nat
  deriving DecidableEq

/-- The highlighter between two characters. -/
structure Highlighter where
  cells : List Cell
  opened : List OpenBracket
  zone : Zone
  deriving DecidableEq

namespace Highlighter

/-- The highlighter before a line. -/
def start : Highlighter := ⟨[], [], .code⟩

/-- Adds a character to the coloured line. -/
def paint (h : Highlighter) (c : Char) (colour : Colour) : Highlighter :=
  { h with cells := h.cells ++ [⟨c, colour⟩] }

/-- Gives a new colour to the cell of an open bracket. -/
def repaint (h : Highlighter) (opening : OpenBracket) (colour : Colour) : Highlighter :=
  { h with cells := h.cells.set opening.cell ⟨opening.bracket, colour⟩ }

/-- Takes an opening bracket. -/
def enter (h : Highlighter) (c : Char) : Highlighter :=
  { h with opened := ⟨c, h.cells.length, cellsWidth h.cells⟩ :: h.opened }.paint c .plain

/-- Takes a closing bracket. -/
def leave (h : Highlighter) (cursor : Nat) (c : Char) : Highlighter :=
  match h.opened with
  | [] => h.paint c .red
  | opening :: outer =>
    let inner := { h with opened := outer }
    if closes opening.bracket c then
      if opening.width + 1 = cursor ∨ h.cells.length + 1 = cursor then
        (inner.paint c .blue).repaint opening .boldBlue
      else inner.paint c .plain
    else (inner.paint c .red).repaint opening .boldRed

/-- Takes one character. -/
def feed (cursor : Nat) (h : Highlighter) (c : Char) : Highlighter :=
  match h.zone with
  | .code =>
    if isOpening c then h.enter c
    else if isClosing c then h.leave cursor c
    else if c = '"' then { h.paint c .green with zone := .string }
    else h.paint c .plain
  | zone => { h.paint c .green with zone := zone.next c }

end Highlighter

/-- The coloured line, given the place of the cursor. -/
def highlightCells (cursor : Nat) (line : List Char) : List Cell :=
  (line.foldl (Highlighter.feed cursor) .start).cells

/-- The line with its control sequences. -/
def highlight (line : String) (cursor : Nat) : String :=
  .ofList (renderCells (highlightCells cursor line.toList))

end MiniScheme.Console
