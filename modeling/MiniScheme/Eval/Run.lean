import MiniScheme.Eval.Operation
import MiniScheme.Eval.Special

/-!
# Running

A combination is a proper list. If it begins with a name in the table of special
forms it is that form. If it begins with the name of a transformer, the call is
expanded and the expansion takes its place. Else its parts are evaluated from
left to right and the first is called with the others.

* `step` — one step of an evaluation;
* `runTask` — steps until there is a value. The fuel bounds the length of every
  chain of steps and nested runs; a run in which it lasts does not depend on it;
* `evaluate` — the value of an expression in a frame.
-/

namespace MiniScheme

/-- Evaluates the parts of a combination that is no special form. -/
def stepCombination (run : Runner) (head : Value) (operands : List Value) (env : FrameId) :
    Eval Outcome :=
  match head with
  | .symbol name => do
    let operator ← Eval.lookup env name
    if operator.isTransformer then
      let expansion ← run (.call operator operands env)
      return .pending expansion env
    else
      let args ← evalEach run env operands
      call run operator args env
  | head => do
    let operator ← run (.eval head env)
    let args ← evalEach run env operands
    call run operator args env

/-- One step of the evaluation of an expression. -/
def step (forms : FormTable) (run : Runner) (expr : Value) (env : FrameId) : Eval Outcome :=
  match expr with
  | .pair _ head rest =>
    match rest.toList? with
    | none => Eval.fail (.malformed expr.text)
    | some operands =>
      match head with
      | .symbol name =>
        match forms.lookup name with
        | some form => form.eval run rest env
        | none => stepCombination run head operands env
      | _ => stepCombination run head operands env
  | atom => finished (evalAtom atom env)

/-- One step of a task. -/
def Task.step (forms : FormTable) (run : Runner) : Task → Eval Outcome
  | .eval expr env => MiniScheme.step forms run expr env
  | .call procedure args env => MiniScheme.call run procedure args env

/-- Runs a task to its value, one step after the other. -/
def runTask (forms : FormTable) : (fuel : Nat) → Runner
  | 0, _ => fun _ => .outOfFuel
  | fuel + 1, task => fun m =>
    match task.step forms (runTask forms fuel) m with
    | .value (.done v) m => .value v m
    | .value (.pending expr env) m => runTask forms fuel (.eval expr env) m
    | .failure e m => .failure e m
    | .outOfFuel => .outOfFuel

/-- The value of an expression in a frame. -/
def evaluate (forms : FormTable) (fuel : Nat) (expr : Value) (env : FrameId) : Eval Value :=
  runTask forms fuel (.eval expr env)

/-- Calls a procedure with the items of a value and completes the outcome. -/
def completeCall (forms : FormTable) (fuel : Nat) (procedure args : Value) (env : FrameId) :
    Eval Value := do
  let outcome ← callOn (runTask forms fuel) procedure args env
  complete (runTask forms fuel) outcome

end MiniScheme
