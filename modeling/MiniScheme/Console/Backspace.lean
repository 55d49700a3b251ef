import MiniScheme.Text.Grapheme.Clusters
import MiniScheme.Text.Span

/-!
# Backspaces

A backspace in a text takes away the cluster before it. The size of each cluster
is kept in one byte, so a cluster of many bytes is taken away in part only; there
is no text left if that part begins inside a character.

* `Typed` — what is left of the clusters so far;
* `applyBackspaces?` — what is left of a text.
-/

namespace MiniScheme.Console

/-- The character that takes away what is before it. -/
def backspace : Char := '\x08'

/-- One more than the greatest size of a cluster that is kept. -/
def sizeBound : Nat := 256

/-- A text in reverse without so many bytes at its end, if a character begins
there. -/
def dropBytes? : Nat → List Char → Option (List Char)
  | 0, cs => some cs
  | _, [] => none
  | n, c :: rest => if c.utf8Size ≤ n then dropBytes? (n - c.utf8Size) rest else none

/-- What has been typed: the text in reverse, and the sizes of its clusters, those
of the last ones first. -/
structure Typed where
  reversed : List Char
  sizes : List Nat

namespace Typed

/-- Nothing has been typed. -/
def empty : Typed := ⟨[], []⟩

/-- Takes away the last cluster, if there is one. -/
def erase (t : Typed) : Option Typed :=
  match t.sizes with
  | [] => some t
  | size :: sizes => (dropBytes? size t.reversed).map fun reversed => ⟨reversed, sizes⟩

/-- Adds a cluster. -/
def push (t : Typed) (cluster : List Char) : Typed :=
  ⟨cluster.reverse ++ t.reversed, byteLength cluster % sizeBound :: t.sizes⟩

/-- Takes the next cluster of a text. -/
def feed (t : Typed) (cluster : List Char) : Option Typed :=
  if cluster = [backspace] then t.erase else some (t.push cluster)

end Typed

/-- What the backspaces of a text leave of it. A text without any is left as it
is. -/
def applyBackspaces? (text : List Char) : Option (List Char) :=
  if backspace ∈ text then
    ((clusters text).foldlM Typed.feed Typed.empty).map fun t => t.reversed.reverse
  else some text

end MiniScheme.Console
