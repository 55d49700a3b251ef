import MiniScheme.Text.Span

/-!
# Lines

A text is cut into lines after every line terminator: line feed, carriage
return, the two together, vertical tab, form feed, next line, and the line and
paragraph separators. A terminator at the very end starts no further line, and
the empty text has one empty line. Places are counted in characters.

* `splitLines` — the lines, each with its terminator;
* `lineAt` — the line that a place belongs to.
-/

namespace MiniScheme

/-- The characters that end a line by themselves. -/
def isLineEnd (c : Char) : Bool :=
  c = '\n' || c = '\r' || c = '\x0b' || c = '\x0c' || c = '\x85' || c = '\u2028' || c = '\u2029'

/-- The lines of a text that begins in the middle of a line; the beginning of
that line is given in reverse. -/
def splitLinesOnto (line : List Char) : List Char → List (List Char)
  | [] => if line = [] then [] else [line.reverse]
  | '\r' :: '\n' :: rest => ('\n' :: '\r' :: line).reverse :: splitLinesOnto [] rest
  | c :: rest =>
    if isLineEnd c then (c :: line).reverse :: splitLinesOnto [] rest
    else splitLinesOnto (c :: line) rest

/-- The lines of a text, each with its terminator. -/
def splitLines (text : List Char) : List (List Char) :=
  if text = [] then [[]] else splitLinesOnto [] text

/-- A line by its number, from 0, the place of its first character and the place
after its last one. -/
structure Line where
  number : Nat
  start : Nat
  stop : Nat
  deriving DecidableEq

/-- The lines with their places, from the given number and place on. -/
def placeLines (number start : Nat) : List (List Char) → List Line
  | [] => []
  | line :: lines =>
    ⟨number, start, start + line.length⟩ :: placeLines (number + 1) (start + line.length) lines

/-- The last line that starts at or before a place. -/
def lineAt (text : List Char) (place : Nat) : Line :=
  let lines := placeLines 0 0 (splitLines text)
  (lines.reverse.find? fun line => line.start ≤ place).getD ⟨0, 0, 0⟩

end MiniScheme
