import MiniScheme.Text.Quoted
import MiniScheme.Token.Basic

/-!
# Data

What the reader yields: atoms and pairs. A list is a chain of pairs; it is
proper if the chain ends in the empty list.

* `Datum.ofList` — the chain over some items with a given end;
* `Datum.text` — the written form, which abbreviates nothing: the datum of `'a`
  is written `(quote a)`.
-/

namespace MiniScheme

/-- A datum that is no pair. -/
inductive Atom where
  | nil
  | boolean (b : Bool)
  | number (x : Float)
  | symbol (name : String)
  | string (s : String)
  deriving DecidableEq

/-- The written form of an atom. -/
def Atom.text : Atom → String
  | .nil => "()"
  | .boolean b => booleanText b
  | .number x => Number.text x
  | .symbol name => name
  | .string s => .ofList (Quoted.literal s.toList)

/-- An atom, or a pair of two data. -/
inductive Datum where
  | atom (a : Atom)
  | pair (first rest : Datum)
  deriving DecidableEq

namespace Datum

/-- The empty list. -/
@[match_pattern] abbrev nil : Datum := .atom .nil

/-- A symbol. -/
@[match_pattern] abbrev symbol (name : String) : Datum := .atom (.symbol name)

/-- The chain of pairs over the items, ended by `tail`. -/
def ofList (items : List Datum) (tail : Datum) : Datum :=
  items.foldr pair tail

/-! ## Writing -/

mutual

/-- Writes a datum at the end of a text, given how its atoms are written. -/
def writeWith (leaf : Atom → String) (written : String) : Datum → String
  | .atom a => written ++ leaf a
  | .pair first rest => writeTailWith leaf (writeWith leaf (written ++ "(") first) rest

/-- Writes what follows an element of a list, up to the closing parenthesis. -/
def writeTailWith (leaf : Atom → String) (written : String) : Datum → String
  | .nil => written ++ ")"
  | .pair first rest => writeTailWith leaf (writeWith leaf (written ++ " ") first) rest
  | .atom a => written ++ " . " ++ leaf a ++ ")"

end

/-- The written form, given that of the atoms. -/
def textWith (leaf : Atom → String) (d : Datum) : String := writeWith leaf "" d

/-- The written form. -/
def text (d : Datum) : String := textWith Atom.text d

end Datum
end MiniScheme
