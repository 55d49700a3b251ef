import MiniScheme.Value.Basic

/-!
# Frames

A frame binds names to values and may have a parent. A name is bound at most
once in a frame, and the order of the bindings is never shown.
-/

namespace MiniScheme

/-- Names with their values. -/
abbrev Bindings := List (String × Value)

namespace Bindings

/-- Gives a new value to a name that is bound. -/
def replace (name : String) (v : Value) (bs : Bindings) : Bindings :=
  bs.map fun (n, w) => if n = name then (n, v) else (n, w)

/-- Binds a name, whether it is bound already or not. -/
def define (name : String) (v : Value) (bs : Bindings) : Bindings :=
  if (bs.lookup name).isSome then bs.replace name v else (name, v) :: bs

/-- The bound names. -/
def names (bs : Bindings) : List String := bs.map Prod.fst

end Bindings

/-- Bindings and the frame in which to look further. -/
structure Frame where
  parent : Option FrameId
  bindings : Bindings
  deriving DecidableEq

namespace Frame

/-- The value of a name in this very frame. -/
def get? (f : Frame) (name : String) : Option Value := f.bindings.lookup name

/-- Binds a name in the frame. -/
def define (name : String) (v : Value) (f : Frame) : Frame :=
  { f with bindings := Bindings.define name v f.bindings }

/-- A frame without a parent is a global one. -/
def isGlobal (f : Frame) : Bool := f.parent.isNone

end Frame
end MiniScheme
