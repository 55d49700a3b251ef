import MiniScheme.Eval.Computation

/-!
# Tasks and outcomes

Evaluation proceeds in steps. A step may need whole evaluations of parts; it
gets a `Runner` for them. What stands in tail position it does not run: it
returns it as a pending outcome, and whoever runs the step goes on from there.

* `evalTail`, `evalBody` — an expression, and a body, in tail position;
* `complete` — the value of an outcome.
-/

namespace MiniScheme

/-- What can be run to a value. -/
inductive Task where
  /-- The evaluation of an expression in a frame. -/
  | eval (expr : Value) (env : FrameId)
  /-- The call of a procedure from a frame with evaluated arguments. -/
  | call (procedure : Value) (args : List Value) (env : FrameId)

/-- Runs tasks to their values. -/
abbrev Runner := Task → Eval Value

/-- The result of a step: a value, or an expression that is still to be
evaluated in a frame. -/
inductive Outcome where
  | done (v : Value)
  | pending (expr : Value) (env : FrameId)

/-- Ends a step with a value. -/
@[inline] def finished (x : Eval Value) : Eval Outcome := do
  let v ← x
  return .done v

/-- The value of an outcome. -/
def complete (run : Runner) : Outcome → Eval Value
  | .done v => pure v
  | .pending expr env => run (.eval expr env)

/-- The value of a symbol, or an atom itself. -/
def evalAtom (expr : Value) (env : FrameId) : Eval Value :=
  match expr with
  | .symbol name => Eval.lookup env name
  | v => pure v

/-- An expression in tail position: a pair is left pending. -/
def evalTail (expr : Value) (env : FrameId) : Eval Outcome :=
  match expr with
  | .pair .. => pure (.pending expr env)
  | atom => finished (evalAtom atom env)

/-- A list of expressions: all but the last are run in order, and the last is in
tail position. -/
def evalBody (run : Runner) (env : FrameId) : Value → Eval Outcome
  | .pair _ last .nil => evalTail last env
  | .pair _ first rest => do
    let _ ← run (.eval first env)
    evalBody run env rest
  | v => Eval.fail (.emptyBody v.text)

/-- Evaluates expressions from left to right, with the values so far in
reverse. -/
def evalEachOnto (run : Runner) (env : FrameId) (values : List Value) :
    List Value → Eval (List Value)
  | [] => pure values.reverse
  | expr :: exprs => do
    let v ← run (.eval expr env)
    evalEachOnto run env (v :: values) exprs

/-- Evaluates expressions from left to right. -/
def evalEach (run : Runner) (env : FrameId) (exprs : List Value) : Eval (List Value) :=
  evalEachOnto run env [] exprs

end MiniScheme
