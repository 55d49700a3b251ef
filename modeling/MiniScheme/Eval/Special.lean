import MiniScheme.Eval.Quasiquote

/-!
# What the special forms do

One function for each kind of form, from the unevaluated operands to a value,
or to an outcome if the form has a tail position. All the operands of a form that
binds names are checked before the first of them is evaluated, except those of
`let`, whose bindings are checked one after the other.
-/

namespace MiniScheme

/-! ## Binding names -/

/-- Parameters and body of a procedure: an error in the parameters is one of the
form. -/
def parseFormals (form : Form) (v : Value) : Except EvalError Formals :=
  (Formals.parse v).mapError fun e => .invalidForm form (.parameters e)

/-- `(define name expr)`, `(define (name . formals) body...)`. -/
def evalDefine (run : Runner) (operands : Value) (env : FrameId) : Eval Value := do
  let items ← Eval.ofExcept (checkOperands .define operands 2 none)
  match operands with
  | .pair _ (.symbol name) _ =>
    match items with
    | [_, expr] => do
      let v ← run (.eval expr env)
      Eval.define env name v
      return .symbol name
    | _ => Eval.fail (.invalidForm .define (.tooMany operands.text))
  | .pair _ (.pair _ (.symbol name) parameters) body => do
    let formals ← Eval.ofExcept (parseFormals .define parameters)
    let procedure ← Eval.makeProcedure (.lambda env) formals body
    Eval.define env name procedure
    return .symbol name
  | .pair _ (.pair _ other _) _ => Eval.fail (.invalidForm .define (.notSymbol other.text))
  | .pair _ other _ => Eval.fail (.invalidForm .define (.notSymbol other.text))
  | _ => Eval.fail (.invalidForm .define (.tooFew operands.text))

/-- `(define-macro (name . formals) body...)`. -/
def evalDefineMacro (operands : Value) (env : FrameId) : Eval Value := do
  let _ ← Eval.ofExcept (checkOperands .defineMacro operands 2 none)
  match operands with
  | .pair _ (.pair _ (.symbol name) parameters) body => do
    let formals ← Eval.ofExcept (parseFormals .defineMacro parameters)
    let procedure ← Eval.makeProcedure .transformer formals body
    Eval.define env name procedure
    return .symbol name
  | .pair _ (.pair _ other _) _ => Eval.fail (.invalidForm .defineMacro (.notSymbol other.text))
  | _ => Eval.fail (.invalidForm .defineMacro (.improperSignature operands.text))

/-- `(set! name expr)`. -/
def evalAssignment (run : Runner) (operands : Value) (env : FrameId) : Eval Value := do
  match ← Eval.ofExcept (checkOperands .assignment operands 2 (some 2)) with
  | .symbol name :: expr :: _ => do
    let v ← run (.eval expr env)
    Eval.assign env name v
    return .undefined
  | other :: _ => Eval.fail (.invalidForm .assignment (.notSymbol other.text))
  | [] => Eval.fail (.invalidForm .assignment (.tooFew operands.text))

/-- The bindings of a `let`, checked and evaluated from left to right, with the
names and the values so far in reverse. -/
def evalBindings (run : Runner) (env : FrameId) (names : List String) (values : List Value) :
    List Value → Eval (List String × List Value)
  | [] => pure (names.reverse, values.reverse)
  | binding :: bindings => do
    match ← Eval.ofExcept (checkOperands .binding binding 2 (some 2)) with
    | .symbol name :: expr :: _ => do
      let v ← run (.eval expr env)
      evalBindings run env (name :: names) (v :: values) bindings
    | other :: _ => Eval.fail (.invalidForm .binding (.notSymbol other.text))
    | [] => Eval.fail (.invalidForm .binding (.tooFew binding.text))

/-- `(let ((name expr)...) body...)`. -/
def evalLet (run : Runner) (operands : Value) (env : FrameId) : Eval Outcome := do
  let _ ← Eval.ofExcept (checkOperands .binding operands 2 none)
  match operands with
  | .pair _ bindings body =>
    match bindings.toList? with
    | none => Eval.fail (.invalidForm .binding (.badBindings bindings.text))
    | some bindings => do
      let (names, values) ← evalBindings run env [] [] bindings
      let formals ← Eval.ofExcept <|
        (Formals.ofNames names).mapError fun e => .invalidForm .binding (.parameters e)
      let frame ← Eval.makeChildFrame env formals values
      evalBody run frame body
  | _ => Eval.fail (.invalidForm .binding (.tooFew operands.text))

/-! ## Making procedures -/

/-- `(lambda formals body...)` and `(mu formals body...)`. -/
def evalProcedure (form : Form) (kind : CompoundKind) (operands : Value) : Eval Value := do
  let _ ← Eval.ofExcept (checkOperands form operands 2 none)
  match operands with
  | .pair _ parameters body => do
    let formals ← Eval.ofExcept (parseFormals form parameters)
    Eval.makeProcedure kind formals body
  | _ => Eval.fail (.invalidForm form (.tooFew operands.text))

/-! ## Control -/

/-- `(if test consequent)`, `(if test consequent alternative)`. -/
def evalBranch (run : Runner) (operands : Value) (env : FrameId) : Eval Outcome := do
  match ← Eval.ofExcept (checkOperands .branch operands 2 (some 3)) with
  | test :: consequent :: alternative => do
    let v ← run (.eval test env)
    if v.isTruthy then evalTail consequent env
    else
      match alternative with
      | [] => return .done .undefined
      | alternative :: _ => evalTail alternative env
  | _ => Eval.fail (.invalidForm .branch (.tooFew operands.text))

/-- The test of a clause, given the clauses after it: `else` counts as true and
must be in the last one. -/
def evalTest (run : Runner) (env : FrameId) (test : Value) (later : List Value) : Eval Value :=
  match test, later with
  | .symbol "else", [] => pure (.boolean true)
  | .symbol "else", _ => Eval.fail (.invalidForm .cond .elseNotLast)
  | test, _ => run (.eval test env)

/-- The clauses of a `cond` from some clause on. -/
def evalClauses (run : Runner) (env : FrameId) : List Value → Eval Outcome
  | [] => pure (.done .undefined)
  | clause :: clauses => do
    let _ ← Eval.ofExcept (checkOperands .cond clause 1 none)
    match clause with
    | .pair _ test body => do
      let v ← evalTest run env test clauses
      if v.isTruthy then
        match body with
        | .nil => return .done v
        | body => evalBody run env body
      else evalClauses run env clauses
    | _ => Eval.fail (.invalidForm .cond (.tooFew clause.text))

/-- `(cond (test body...)...)`. -/
def evalCond (run : Runner) (operands : Value) (env : FrameId) : Eval Outcome := do
  let clauses ← Eval.ofExcept (checkOperands .cond operands 0 none)
  evalClauses run env clauses

/-- The operands of `and` from some operand on. -/
def evalConjuncts (run : Runner) (env : FrameId) : List Value → Eval Outcome
  | [] => pure (.done (.boolean true))
  | [last] => evalTail last env
  | expr :: exprs => do
    let v ← run (.eval expr env)
    if v.isTruthy then evalConjuncts run env exprs else return .done v

/-- The operands of `or` from some operand on. -/
def evalDisjuncts (run : Runner) (env : FrameId) : List Value → Eval Outcome
  | [] => pure (.done (.boolean false))
  | [last] => evalTail last env
  | expr :: exprs => do
    let v ← run (.eval expr env)
    if v.isTruthy then return .done v else evalDisjuncts run env exprs

/-- `(and expr...)`. -/
def evalConjunction (run : Runner) (operands : Value) (env : FrameId) : Eval Outcome := do
  let exprs ← Eval.ofExcept (checkOperands .conjunction operands 0 none)
  evalConjuncts run env exprs

/-- `(or expr...)`. -/
def evalDisjunction (run : Runner) (operands : Value) (env : FrameId) : Eval Outcome := do
  let exprs ← Eval.ofExcept (checkOperands .disjunction operands 0 none)
  evalDisjuncts run env exprs

/-- `(begin expr...)`. -/
def evalSequence (run : Runner) (operands : Value) (env : FrameId) : Eval Outcome := do
  let _ ← Eval.ofExcept (checkOperands .sequence operands 1 none)
  evalBody run env operands

/-! ## All forms -/

/-- What a form makes of its operands. -/
def Form.eval (run : Runner) (form : Form) (operands : Value) (env : FrameId) : Eval Outcome :=
  match form with
  | .conjunction => evalConjunction run operands env
  | .sequence => evalSequence run operands env
  | .cond => evalCond run operands env
  | .define => finished (evalDefine run operands env)
  | .defineMacro => finished (evalDefineMacro operands env)
  | .branch => evalBranch run operands env
  | .lambda => finished (evalProcedure .lambda (.lambda env) operands)
  | .binding => evalLet run operands env
  | .mu => finished (evalProcedure .mu .mu operands)
  | .disjunction => evalDisjunction run operands env
  | .quasiquote => do
    let template ← Eval.ofExcept (onlyOperand .quasiquote operands)
    finished (expandTemplate run env 1 template)
  | .quote => finished (Eval.ofExcept (onlyOperand .quote operands))
  | .assignment => finished (evalAssignment run operands env)
  | .unquote => Eval.fail (.invalidForm .unquote .outsideQuasiquote)
  | .unquoteSplicing => Eval.fail (.invalidForm .unquote .outsideQuasiquote)

end MiniScheme
