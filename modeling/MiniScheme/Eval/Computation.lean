import MiniScheme.Eval.Error
import MiniScheme.Machine.Basic
import MiniScheme.Value.Parameters

/-!
# Computations

A computation runs on a machine and ends with a value or an error, both with the
machine as it then is: what was done before an error stays done. It may also
run out of fuel, and then there is no answer.

The steps that evaluation is made of are few: looking a name up, binding or
assigning it, making pairs, procedures and frames, and displaying a text.
-/

namespace MiniScheme

/-- The end of a computation. -/
inductive Answer (α : Type) where
  | value (a : α) (m : Machine)
  | failure (e : EvalError) (m : Machine)
  | outOfFuel

/-- A computation that yields an `α`. -/
def Eval (α : Type) := Machine → Answer α

namespace Eval

/-- Does nothing. -/
@[inline] protected def pure {α : Type} (a : α) : Eval α := fun m => .value a m

/-- Goes on with the value of a computation, unless it fails. -/
@[inline] protected def bind {α β : Type} (x : Eval α) (f : α → Eval β) : Eval β := fun m =>
  match x m with
  | .value a m => f a m
  | .failure e m => .failure e m
  | .outOfFuel => .outOfFuel

instance : Monad Eval where
  pure := Eval.pure
  bind := Eval.bind

/-- Fails. -/
@[inline] def fail {α : Type} (e : EvalError) : Eval α := fun m => .failure e m

/-- The value of an outcome that may be an error. -/
@[inline] def ofExcept {α : Type} : Except EvalError α → Eval α
  | .ok a => Eval.pure a
  | .error e => fail e

/-! ## Steps -/

/-- The value of a name. -/
def lookup (env : FrameId) (name : String) : Eval Value := fun m =>
  match m.get? env name with
  | some v => .value v m
  | none => .failure (.unboundVariable name) m

/-- Binds a name in the given frame. -/
def define (env : FrameId) (name : String) (v : Value) : Eval Unit := fun m =>
  .value () (m.define env name v)

/-- Gives a new value to the nearest binding of a name. -/
def assign (env : FrameId) (name : String) (v : Value) : Eval Unit := fun m =>
  match m.set? env name v with
  | some m => .value () m
  | none => .failure (.unboundVariable name) m

/-- Displays a text. -/
def display (text : String) : Eval Value := fun m => .value .undefined (m.write text)

/-- Makes the chain of new pairs over the items that ends in `tail`. -/
def makeChain (items : List Value) (tail : Value) : Eval Value := fun m =>
  let (v, m) := m.chain items tail
  .value v m

/-- Makes a new proper list. -/
def makeList (items : List Value) : Eval Value := makeChain items .nil

/-- Makes a new pair. -/
def makePair (first rest : Value) : Eval Value := makeChain [first] rest

/-- Makes a new procedure. -/
def makeProcedure (kind : CompoundKind) (formals : Formals) (body : Value) : Eval Value := fun m =>
  .value (.compound m.nextStamp kind formals body) { m with nextStamp := m.nextStamp + 1 }

/-- Makes a new frame. -/
def makeFrame (frame : Frame) : Eval FrameId := fun m =>
  let (id, m) := m.addFrame frame
  .value id m

/-- Makes the frame of a call: a child of `parent` that binds the arguments to
the parameters. Nothing is made unless the arguments fit. -/
def makeChildFrame (parent : FrameId) (formals : Formals) (args : List Value) : Eval FrameId :=
  if formals.arity.accepts args.length then
    match formals.rest with
    | none => makeFrame ⟨some parent, formals.bindings args⟩
    | some rest => do
      let surplus ← makeList (formals.surplus args)
      makeFrame ⟨some parent, (rest, surplus) :: formals.bindings args⟩
  else fail (.wrongCount formals args.length)

/-- Makes the frame of a call with the items of a value as its arguments. An
improper list of arguments fits nothing: the items that are there are counted. -/
def makeChildFrameOn (parent : FrameId) (formals : Formals) (args : Value) : Eval FrameId :=
  match args.toList? with
  | some args => makeChildFrame parent formals args
  | none => fail (.wrongCount formals args.items.length)

end Eval
end MiniScheme
