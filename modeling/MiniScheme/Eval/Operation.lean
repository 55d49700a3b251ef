import MiniScheme.Eval.Task
import MiniScheme.Number.Integral
import MiniScheme.Value.Equality

/-!
# What the built-in procedures do

`Operation.perform` runs an operation on its arguments. The arguments are as
many as the arity in the table of built-in procedures accepts; an operation that
still misses one fails with `EvalError.missingArgument`.
-/

namespace MiniScheme

namespace Operation

/-! ## Numbers -/

/-- The number that an argument is. -/
def number (procedure : String) : Value → Except EvalError Float
  | .number x => .ok x
  | v => .error (.typeMismatch procedure .number v.text)

/-- Combines the arguments from left to right, beginning with `acc`. -/
def foldNumbers (procedure : String) (combine : Float → Float → Float) (acc : Float) :
    List Value → Except EvalError Value
  | [] => .ok (.number acc)
  | v :: vs => do
    let x ← number procedure v
    foldNumbers procedure combine (combine acc x) vs

/-- Divides by the arguments from left to right. -/
def divideBy (procedure : String) (acc : Float) : List Value → Except EvalError Value
  | [] => .ok (.number acc)
  | v :: vs => do
    let x ← number procedure v
    if x == 0 then .error .divisionByZero
    else divideBy procedure (acc / x) vs

/-- An operation on two integers, of which the second is not zero. -/
def integerOperation (procedure : String) (operate : Float → Float → Float) (a b : Value) :
    Except EvalError Value := do
  let x ← number procedure a
  let y ← number procedure b
  if y == 0 then .error .divisionByZero else .ok (.number (operate x y))

/-- Does every neighbouring pair stand in the order? -/
def inOrder (holds : Float → Float → Bool) : List Float → Bool
  | x :: y :: more => holds x y && inOrder holds (y :: more)
  | _ => true

/-- The order that a comparison asks for. -/
def holds : Comparison → Float → Float → Bool
  | .equal, x, y => x == y
  | .less, x, y => decide (x < y)
  | .lessOrEqual, x, y => decide (x ≤ y)
  | .greater, x, y => decide (y < x)
  | .greaterOrEqual, x, y => decide (y ≤ x)

/-- The answer to a question about a value. -/
def answer : Question → Value → Bool
  | .isFalse, v => !v.isTruthy
  | .isNull, v => match v with | .nil => true | _ => false
  | .isPair, v => match v with | .pair .. => true | _ => false
  | .isList, v => v.isList
  | .isNumber, v => match v with | .number _ => true | _ => false
  | .isInteger, v => match v with | .number x => Number.isInteger x | _ => false
  | .isBoolean, v => match v with | .boolean _ => true | _ => false
  | .isSymbol, v => match v with | .symbol _ => true | _ => false
  | .isString, v => match v with | .string _ => true | _ => false
  | .isProcedure, v => match v with | .builtin .. => true | .compound .. => true | _ => false

/-! ## Lists -/

/-- Puts the lists, given in reverse, before `tail`. -/
def appendOnto (procedure : String) (tail : Value) : List Value → Eval Value
  | [] => pure tail
  | v :: before =>
    match v.toList? with
    | none => Eval.fail (.typeMismatch procedure .list v.text)
    | some items => do
      let tail ← Eval.makeChain items tail
      appendOnto procedure tail before

/-! ## Performing -/

/-- Runs an operation on the arguments of the procedure with the given name. -/
def perform (run : Runner) (procedure : String) (op : Operation) (args : List Value) :
    Eval Value :=
  match op, args with
  | add, args => Eval.ofExcept (foldNumbers procedure (· + ·) 0 args)
  | subtract, [v] => Eval.ofExcept ((number procedure v).map fun x => .number (-x))
  | subtract, v :: vs =>
    Eval.ofExcept (number procedure v >>= fun x => foldNumbers procedure (· - ·) x vs)
  | multiply, args => Eval.ofExcept (foldNumbers procedure (· * ·) 1 args)
  | divide, [v] => Eval.ofExcept (divideBy procedure 1 [v])
  | divide, v :: vs => Eval.ofExcept (number procedure v >>= fun x => divideBy procedure x vs)
  | absolute, v :: _ => Eval.ofExcept ((number procedure v).map fun x => .number x.abs)
  | quotient, a :: b :: _ =>
    Eval.ofExcept (integerOperation procedure (fun x y => Number.truncate (x / y)) a b)
  | remainder, a :: b :: _ => Eval.ofExcept (integerOperation procedure Number.remainder a b)
  | modulo, a :: b :: _ => Eval.ofExcept (integerOperation procedure Number.modulo a b)
  | compare c, args =>
    Eval.ofExcept ((args.mapM (number procedure)).map fun xs => .boolean (inOrder (holds c) xs))
  | isZero, v :: _ => Eval.ofExcept ((number procedure v).map fun x => .boolean (x == 0))
  | identical, a :: b :: _ => pure (.boolean (a.identical b))
  | equal, a :: b :: _ => pure (.boolean (a.equal b))
  | ask q, v :: _ => pure (.boolean (answer q v))
  | cons, a :: b :: _ => Eval.makePair a b
  | first, v :: _ =>
    match v with
    | .pair _ a _ => pure a
    | v => Eval.fail (.typeMismatch procedure .pair v.text)
  | rest, v :: _ =>
    match v with
    | .pair _ _ b => pure b
    | v => Eval.fail (.typeMismatch procedure .pair v.text)
  | list, args => Eval.makeList args
  | length, v :: _ =>
    match v.toList? with
    | some items => pure (.number (.ofNat items.length))
    | none => Eval.fail (.typeMismatch procedure .list v.text)
  | append, args =>
    match args.reverse with
    | [] => pure .nil
    | tail :: before => appendOnto procedure tail before
  | display, v :: _ => Eval.display v.displayText
  | print, v :: _ => Eval.display (v.text ++ "\n")
  | newline, _ => Eval.display "\n"
  | raise, [] => Eval.fail (.raised "error")
  | raise, v :: _ => Eval.fail (.raised v.displayText)
  | evaluate, expr :: env :: _ =>
    match env with
    | .environment id => run (.eval expr id)
    | v => Eval.fail (.typeMismatch procedure .environment v.text)
  | apply, f :: operands :: env :: _ =>
    match env with
    | .environment id =>
      match operands.toList? with
      | some args => run (.call f args id)
      | none => Eval.fail (.typeMismatch procedure .list operands.text)
    | v => Eval.fail (.typeMismatch procedure .environment v.text)
  | _, _ => Eval.fail (.missingArgument procedure)

end Operation

/-! ## Calling -/

/-- Runs the body of a compound procedure in a new frame. -/
def callCompound (run : Runner) (procedure : Value) (kind : CompoundKind) (formals : Formals)
    (body : Value) (args : List Value) (env : FrameId) : Eval Outcome :=
  if formals.arity.accepts args.length then do
    let frame ← Eval.makeChildFrame (kind.parent env) formals args
    evalBody run frame body
  else Eval.fail (.wrongArguments procedure.text formals.arity args.length)

/-- The arguments with which a built-in procedure runs: if it takes the
environment, that of the call comes last. -/
def Builtin.allArguments (b : Builtin) (args : List Value) (env : FrameId) : List Value :=
  if b.takesEnvironment then args ++ [.environment env] else args

/-- Runs a built-in procedure on all its arguments, if it accepts as many. -/
def callBuiltin (run : Runner) (b : Builtin) (args : List Value) (env : FrameId) : Eval Value :=
  if b.arity.accepts (b.allArguments args env).length then
    b.operation.perform run b.name (b.allArguments args env)
  else Eval.fail (.wrongArguments b.name b.arity (b.allArguments args env).length)

/-- Calls a procedure from a frame. -/
def call (run : Runner) (procedure : Value) (args : List Value) (env : FrameId) : Eval Outcome :=
  match procedure with
  | .builtin _ b => finished (callBuiltin run b args env)
  | .compound _ kind formals body => callCompound run procedure kind formals body args env
  | v => Eval.fail (.notCallable v.text)

/-- Calls a procedure with the items of a value as its arguments. An improper
list of arguments fits nothing: a compound procedure reports the count of the
items that are there. -/
def callOn (run : Runner) (procedure args : Value) (env : FrameId) : Eval Outcome :=
  match args.toList? with
  | some items => call run procedure items env
  | none =>
    match procedure with
    | .builtin .. => Eval.fail (.malformed args.text)
    | .compound _ _ formals _ =>
      Eval.fail (.wrongArguments procedure.text formals.arity args.items.length)
    | v => Eval.fail (.notCallable v.text)

end MiniScheme
