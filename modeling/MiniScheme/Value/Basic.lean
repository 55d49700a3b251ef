import MiniScheme.Datum.Basic
import MiniScheme.Procedure.Builtin
import MiniScheme.Procedure.Formals

/-!
# Values

The values of a running program. Expressions are values too: a program is read
as data, and `Value.ofDatum` turns a datum into a value.

Pairs and procedures have an identity, which programs can observe: it is a
stamp that the machine gives out when the pair or the procedure is made, a new
one every time. Frames are known by their number.
-/

namespace MiniScheme

/-- The identity of a pair or a procedure. -/
abbrev Stamp := Nat

/-- The number of a frame. -/
abbrev FrameId := Nat

/-- The three kinds of procedures made by programs. -/
inductive CompoundKind where
  /-- Its body runs in a child of the frame it was made in. -/
  | lambda (home : FrameId)
  /-- Its body runs in a child of the frame it is called from. -/
  | mu
  /-- Like `mu`, but it gets its operands unevaluated, and what it returns is
  evaluated in the place of the call. -/
  | transformer
  deriving DecidableEq

/-- The frame whose child a procedure's body runs in, when it is called from
`caller`. -/
def CompoundKind.parent (caller : FrameId) : CompoundKind → FrameId
  | lambda home => home
  | mu => caller
  | transformer => caller

/-- A value. -/
inductive Value where
  | atom (a : Atom)
  /-- What forms without a useful value return. -/
  | undefined
  | pair (stamp : Stamp) (first rest : Value)
  | builtin (stamp : Stamp) (b : Builtin)
  /-- A procedure with its parameters and the list of its body's expressions. -/
  | compound (stamp : Stamp) (kind : CompoundKind) (formals : Formals) (body : Value)
  | environment (frame : FrameId)
  deriving DecidableEq

namespace Value

/-- The empty list. -/
@[match_pattern] abbrev nil : Value := .atom .nil

/-- A truth value. -/
@[match_pattern] abbrev boolean (b : Bool) : Value := .atom (.boolean b)

/-- A number. -/
@[match_pattern] abbrev number (x : Float) : Value := .atom (.number x)

/-- A symbol. -/
@[match_pattern] abbrev symbol (name : String) : Value := .atom (.symbol name)

/-- A string. -/
@[match_pattern] abbrev string (s : String) : Value := .atom (.string s)

/-- The name of the type of a value. -/
def typeName : Value → String
  | nil => "nil"
  | boolean _ => "boolean"
  | number _ => "number"
  | symbol _ => "symbol"
  | string _ => "string"
  | undefined => "undefined"
  | pair .. => "pair"
  | builtin .. => "procedure"
  | compound .. => "procedure"
  | environment _ => "environment"

/-- Everything but `#f` counts as true. -/
def isTruthy : Value → Bool
  | boolean false => false
  | _ => true

/-- Everything but symbols and pairs evaluates to itself. -/
def isSelfEvaluating : Value → Bool
  | symbol _ => false
  | pair .. => false
  | _ => true

/-- Is the value a procedure whose calls are expanded? -/
def isTransformer : Value → Bool
  | compound _ .transformer _ _ => true
  | _ => false

/-! ## Lists -/

/-- Is the value a chain of pairs that ends in the empty list? -/
def isList : Value → Bool
  | nil => true
  | pair _ _ rest => rest.isList
  | _ => false

/-- The first parts along a chain of pairs after those already collected. -/
def itemsOnto (collected : List Value) : Value → List Value
  | pair _ first rest => rest.itemsOnto (first :: collected)
  | _ => collected.reverse

/-- The first parts along a chain of pairs, whatever ends it. -/
def items (v : Value) : List Value := itemsOnto [] v

/-- The items of a proper list. -/
def toList? (v : Value) : Option (List Value) := if v.isList then some v.items else none

/-- The chain over items given in reverse, made from the end on. -/
def chainOfReverse (next : Stamp) (tail : Value) : List Value → Value
  | [] => tail
  | last :: before => chainOfReverse (next + 1) (pair next last tail) before

/-- The chain of new pairs over the items that ends in `tail`; `next` is the
first of as many stamps as there are items. -/
def chain (next : Stamp) (items : List Value) (tail : Value) : Value :=
  chainOfReverse next tail items.reverse

/-- A datum as a value made of new pairs, with the first stamp left. -/
def ofDatum (next : Stamp) : Datum → Value × Stamp
  | .atom a => (.atom a, next)
  | .pair first rest =>
    let (first, next) := ofDatum next first
    let (rest, next) := ofDatum next rest
    (pair next first rest, next + 1)

end Value
end MiniScheme
