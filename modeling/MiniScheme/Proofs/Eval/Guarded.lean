import MiniScheme.Eval.Run

/-!
# Guarded evaluation

The evaluator relies on things that it does not look at again: a body is a list
that is not empty, a built-in procedure has all the arguments it looks at. Guarded
evaluation is evaluation that does look. It has the same rules, but wherever the
evaluator hands something on to one of its own parts, it first asks whether a
contract holds, and raises an alarm if not.

If guarded evaluation comes to the same answer as evaluation, whatever the alarm
is, then no contract is ever broken, not even on the way to an error or in a run
that does not end.

* `Contracts` — what is asked, and where;
* `Guarded.evaluate` — evaluation with the questions.
-/

namespace MiniScheme

/-- What is asked of the things that the evaluator hands on. -/
structure Contracts where
  /-- Of a task and the machine, before each of its steps. -/
  step : Task → Machine → Bool
  /-- Of the value that a run comes to. -/
  value : Value → Bool
  /-- Of what is run as a body. -/
  body : Value → Bool
  /-- Of the parameters and the body of a new procedure. -/
  procedure : Formals → Value → Bool
  /-- Of the arguments that a procedure with a body is called with. -/
  call : List Value → Bool
  /-- Of all the arguments that a built-in procedure runs with. -/
  builtin : Builtin → List Value → Bool
  /-- Of the level at which a template or a part of one is copied. -/
  level : Nat → Bool

/-- Nothing is asked. -/
def Contracts.none : Contracts where
  step _ _ := true
  value _ := true
  body _ := true
  procedure _ _ := true
  call _ := true
  builtin _ _ := true
  level _ := true

/-- The computation if the contract is kept, and else the alarm. -/
def Eval.guard {α : Type} (alarm : EvalError) (kept : Bool) (x : Eval α) : Eval α :=
  if kept then x else Eval.fail alarm

namespace Guarded

open Eval (guard)

/-! ## Parts that are asked something -/

/-- A list of expressions as a body. -/
def evalBody (k : Contracts) (alarm : EvalError) (run : Runner) (env : FrameId) (body : Value) :
    Eval Outcome :=
  guard alarm (k.body body) (MiniScheme.evalBody run env body)

/-- A new procedure. -/
def makeProcedure (k : Contracts) (alarm : EvalError) (kind : CompoundKind) (formals : Formals)
    (body : Value) : Eval Value :=
  guard alarm (k.procedure formals body) (Eval.makeProcedure kind formals body)

/-- A template at a level. -/
def expandTemplate (k : Contracts) (alarm : EvalError) (run : Runner) (env : FrameId)
    (level : Nat) (template : Value) : Eval Value :=
  guard alarm (k.level level) <|
    match template with
    | .pair _ first rest =>
      match first with
      | .symbol "unquote" =>
        match level with
        | 0 => Eval.fail .negativeLevel
        | 1 => do
          let operand ← Eval.ofExcept (onlyOperand .unquote rest)
          run (.eval operand env)
        | outer + 1 => do
          let rest ← expandTemplate k alarm run env outer rest
          Eval.makePair first rest
      | .symbol "quasiquote" => do
        let rest ← expandTemplate k alarm run env (level + 1) rest
        Eval.makePair first rest
      | first =>
        match level, splicedOperands? first with
        | 1, some operands => do
          let operand ← Eval.ofExcept (onlyOperand .unquoteSplicing operands)
          let v ← run (.eval operand env)
          match v.toList? with
          | none => Eval.fail (.typeMismatch Form.unquoteSplicing.keyword .list v.text)
          | some items => do
            let rest ← expandTemplate k alarm run env level rest
            Eval.makeChain items rest
        | _, _ => do
          let first ← expandTemplate k alarm run env level first
          let rest ← expandTemplate k alarm run env level rest
          Eval.makePair first rest
    | v => pure v

/-- A built-in procedure. -/
def callBuiltin (k : Contracts) (alarm : EvalError) (run : Runner) (b : Builtin)
    (args : List Value) (env : FrameId) : Eval Value :=
  if b.arity.accepts (b.allArguments args env).length then
    guard alarm (k.builtin b (b.allArguments args env))
      (b.operation.perform run b.name (b.allArguments args env))
  else Eval.fail (.wrongArguments b.name b.arity (b.allArguments args env).length)

/-- A procedure with a body. -/
def callCompound (k : Contracts) (alarm : EvalError) (run : Runner) (procedure : Value)
    (kind : CompoundKind) (formals : Formals) (body : Value) (args : List Value) (env : FrameId) :
    Eval Outcome :=
  guard alarm (k.call args) <|
    if formals.arity.accepts args.length then do
      let frame ← Eval.makeChildFrame (kind.parent env) formals args
      evalBody k alarm run frame body
    else Eval.fail (.wrongArguments procedure.text formals.arity args.length)

/-! ## Special forms -/

/-- `(define name expr)`, `(define (name . formals) body...)`. -/
def evalDefine (k : Contracts) (alarm : EvalError) (run : Runner) (operands : Value)
    (env : FrameId) : Eval Value := do
  let items ← Eval.ofExcept (checkOperands .define operands 2 none)
  match operands with
  | .pair _ (.symbol name) _ =>
    match items with
    | [_, expr] => do
      let v ← run (.eval expr env)
      Eval.define env name v
      return .symbol name
    | _ => Eval.fail (.invalidForm .define (.tooMany operands.text))
  | .pair _ (.pair _ (.symbol name) parameters) body => do
    let formals ← Eval.ofExcept (parseFormals .define parameters)
    let procedure ← makeProcedure k alarm (.lambda env) formals body
    Eval.define env name procedure
    return .symbol name
  | .pair _ (.pair _ other _) _ => Eval.fail (.invalidForm .define (.notSymbol other.text))
  | .pair _ other _ => Eval.fail (.invalidForm .define (.notSymbol other.text))
  | _ => Eval.fail (.invalidForm .define (.tooFew operands.text))

/-- `(define-macro (name . formals) body...)`. -/
def evalDefineMacro (k : Contracts) (alarm : EvalError) (operands : Value) (env : FrameId) :
    Eval Value := do
  let _ ← Eval.ofExcept (checkOperands .defineMacro operands 2 none)
  match operands with
  | .pair _ (.pair _ (.symbol name) parameters) body => do
    let formals ← Eval.ofExcept (parseFormals .defineMacro parameters)
    let procedure ← makeProcedure k alarm .transformer formals body
    Eval.define env name procedure
    return .symbol name
  | .pair _ (.pair _ other _) _ => Eval.fail (.invalidForm .defineMacro (.notSymbol other.text))
  | _ => Eval.fail (.invalidForm .defineMacro (.improperSignature operands.text))

/-- `(lambda formals body...)` and `(mu formals body...)`. -/
def evalProcedure (k : Contracts) (alarm : EvalError) (form : Form) (kind : CompoundKind)
    (operands : Value) : Eval Value := do
  let _ ← Eval.ofExcept (checkOperands form operands 2 none)
  match operands with
  | .pair _ parameters body => do
    let formals ← Eval.ofExcept (parseFormals form parameters)
    makeProcedure k alarm kind formals body
  | _ => Eval.fail (.invalidForm form (.tooFew operands.text))

/-- `(let ((name expr)...) body...)`. -/
def evalLet (k : Contracts) (alarm : EvalError) (run : Runner) (operands : Value)
    (env : FrameId) : Eval Outcome := do
  let _ ← Eval.ofExcept (checkOperands .binding operands 2 none)
  match operands with
  | .pair _ bindings body =>
    match bindings.toList? with
    | none => Eval.fail (.invalidForm .binding (.badBindings bindings.text))
    | some bindings => do
      let (names, values) ← evalBindings run env [] [] bindings
      let formals ← Eval.ofExcept <|
        (Formals.ofNames names).mapError fun e => .invalidForm .binding (.parameters e)
      let frame ← Eval.makeChildFrame env formals values
      evalBody k alarm run frame body
  | _ => Eval.fail (.invalidForm .binding (.tooFew operands.text))

/-- The clauses of a `cond` from some clause on. -/
def evalClauses (k : Contracts) (alarm : EvalError) (run : Runner) (env : FrameId) :
    List Value → Eval Outcome
  | [] => pure (.done .undefined)
  | clause :: clauses => do
    let _ ← Eval.ofExcept (checkOperands .cond clause 1 none)
    match clause with
    | .pair _ test body => do
      let v ← evalTest run env test clauses
      if v.isTruthy then
        match body with
        | .nil => return .done v
        | body => evalBody k alarm run env body
      else evalClauses k alarm run env clauses
    | _ => Eval.fail (.invalidForm .cond (.tooFew clause.text))

/-- What a form makes of its operands. -/
def evalForm (k : Contracts) (alarm : EvalError) (run : Runner) (form : Form) (operands : Value)
    (env : FrameId) : Eval Outcome :=
  match form with
  | .conjunction => evalConjunction run operands env
  | .sequence => do
    let _ ← Eval.ofExcept (checkOperands .sequence operands 1 none)
    evalBody k alarm run env operands
  | .cond => do
    let clauses ← Eval.ofExcept (checkOperands .cond operands 0 none)
    evalClauses k alarm run env clauses
  | .define => finished (evalDefine k alarm run operands env)
  | .defineMacro => finished (evalDefineMacro k alarm operands env)
  | .branch => evalBranch run operands env
  | .lambda => finished (evalProcedure k alarm .lambda (.lambda env) operands)
  | .binding => evalLet k alarm run operands env
  | .mu => finished (evalProcedure k alarm .mu .mu operands)
  | .disjunction => evalDisjunction run operands env
  | .quasiquote => do
    let template ← Eval.ofExcept (onlyOperand .quasiquote operands)
    finished (expandTemplate k alarm run env 1 template)
  | .quote => finished (Eval.ofExcept (onlyOperand .quote operands))
  | .assignment => finished (evalAssignment run operands env)
  | .unquote => Eval.fail (.invalidForm .unquote .outsideQuasiquote)
  | .unquoteSplicing => Eval.fail (.invalidForm .unquote .outsideQuasiquote)

/-! ## Steps and runs -/

/-- A call from a frame. -/
def call (k : Contracts) (alarm : EvalError) (run : Runner) (procedure : Value)
    (args : List Value) (env : FrameId) : Eval Outcome :=
  match procedure with
  | .builtin _ b => finished (callBuiltin k alarm run b args env)
  | .compound _ kind formals body =>
    callCompound k alarm run procedure kind formals body args env
  | v => Eval.fail (.notCallable v.text)

/-- The parts of a combination that is no special form. -/
def stepCombination (k : Contracts) (alarm : EvalError) (run : Runner) (head : Value)
    (operands : List Value) (env : FrameId) : Eval Outcome :=
  match head with
  | .symbol name => do
    let operator ← Eval.lookup env name
    if operator.isTransformer then
      let expansion ← run (.call operator operands env)
      return .pending expansion env
    else
      let args ← evalEach run env operands
      call k alarm run operator args env
  | head => do
    let operator ← run (.eval head env)
    let args ← evalEach run env operands
    call k alarm run operator args env

/-- One step of a task. -/
def step (k : Contracts) (alarm : EvalError) (forms : FormTable) (run : Runner) :
    Task → Eval Outcome
  | .eval expr env =>
    match expr with
    | .pair _ head rest =>
      match rest.toList? with
      | none => Eval.fail (.malformed expr.text)
      | some operands =>
        match head with
        | .symbol name =>
          match forms.lookup name with
          | some form => evalForm k alarm run form rest env
          | none => stepCombination k alarm run head operands env
        | _ => stepCombination k alarm run head operands env
    | atom => finished (evalAtom atom env)
  | .call procedure args env => call k alarm run procedure args env

/-- The value of an outcome. -/
def complete (k : Contracts) (alarm : EvalError) (run : Runner) : Outcome → Eval Value
  | .done v => guard alarm (k.value v) (pure v)
  | .pending expr env => run (.eval expr env)

/-- Runs a task to its value, one step after the other. -/
def runTask (k : Contracts) (alarm : EvalError) (forms : FormTable) : (fuel : Nat) → Runner
  | 0, _ => fun _ => .outOfFuel
  | fuel + 1, task => fun m =>
    guard alarm (k.step task m)
      (step k alarm forms (runTask k alarm forms fuel) task >>=
        complete k alarm (runTask k alarm forms fuel)) m

/-- The value of an expression in a frame. -/
def evaluate (k : Contracts) (alarm : EvalError) (forms : FormTable) (fuel : Nat) (expr : Value)
    (env : FrameId) : Eval Value :=
  runTask k alarm forms fuel (.eval expr env)

end Guarded
end MiniScheme
