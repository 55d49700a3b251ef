import MiniScheme.Proofs.Eval.Congruence

/-!
# Direct evaluation

The rules of evaluation without pending outcomes: what stands in tail position
is evaluated on the spot, like any other part. This is the evaluator to reason
with; the one that runs leaves tail positions to a loop. The two come to the
same answers, on every machine and with every table of special forms.

* `Direct.run` — direct evaluation of a task;
* `ComesTo` — the answer that a computation gives when it gets enough fuel;
* `Direct.run_le_runTask`, `runTask_le_run` — each of the two evaluators answers
  whatever the other one answers, with at most one more unit of fuel;
* `runTask_le_succ` — more fuel never changes an answer;
* `comesTo_iff_direct` — the equivalence, for every way into the evaluator.
-/

namespace MiniScheme

namespace Direct

/-! ## Rules -/

/-- A list of expressions, run in order; the value is that of the last one. -/
def evalBody (run : Runner) (env : FrameId) : Value → Eval Value
  | .pair _ last .nil => run (.eval last env)
  | .pair _ first rest => do
    let _ ← run (.eval first env)
    evalBody run env rest
  | v => Eval.fail (.emptyBody v.text)

/-- `(let ((name expr)...) body...)`. -/
def evalLet (run : Runner) (operands : Value) (env : FrameId) : Eval Value := do
  let _ ← Eval.ofExcept (checkOperands .binding operands 2 none)
  match operands with
  | .pair _ bindings body =>
    match bindings.toList? with
    | none => Eval.fail (.invalidForm .binding (.badBindings bindings.text))
    | some bindings => do
      let (names, values) ← evalBindings run env [] [] bindings
      let formals ← Eval.ofExcept <|
        (Formals.ofNames names).mapError fun e => .invalidForm .binding (.parameters e)
      let frame ← Eval.makeChildFrame env formals values
      evalBody run frame body
  | _ => Eval.fail (.invalidForm .binding (.tooFew operands.text))

/-- `(if test consequent)`, `(if test consequent alternative)`. -/
def evalBranch (run : Runner) (operands : Value) (env : FrameId) : Eval Value := do
  match ← Eval.ofExcept (checkOperands .branch operands 2 (some 3)) with
  | test :: consequent :: alternative => do
    let v ← run (.eval test env)
    if v.isTruthy then run (.eval consequent env)
    else
      match alternative with
      | [] => return .undefined
      | alternative :: _ => run (.eval alternative env)
  | _ => Eval.fail (.invalidForm .branch (.tooFew operands.text))

/-- The clauses of a `cond` from some clause on. -/
def evalClauses (run : Runner) (env : FrameId) : List Value → Eval Value
  | [] => pure .undefined
  | clause :: clauses => do
    let _ ← Eval.ofExcept (checkOperands .cond clause 1 none)
    match clause with
    | .pair _ test body => do
      let v ← evalTest run env test clauses
      if v.isTruthy then
        match body with
        | .nil => return v
        | body => evalBody run env body
      else evalClauses run env clauses
    | _ => Eval.fail (.invalidForm .cond (.tooFew clause.text))

/-- The operands of `and` from some operand on. -/
def evalConjuncts (run : Runner) (env : FrameId) : List Value → Eval Value
  | [] => pure (.boolean true)
  | [last] => run (.eval last env)
  | expr :: exprs => do
    let v ← run (.eval expr env)
    if v.isTruthy then evalConjuncts run env exprs else return v

/-- The operands of `or` from some operand on. -/
def evalDisjuncts (run : Runner) (env : FrameId) : List Value → Eval Value
  | [] => pure (.boolean false)
  | [last] => run (.eval last env)
  | expr :: exprs => do
    let v ← run (.eval expr env)
    if v.isTruthy then return v else evalDisjuncts run env exprs

/-- What a form makes of its operands. -/
def evalForm (run : Runner) (form : Form) (operands : Value) (env : FrameId) : Eval Value :=
  match form with
  | .conjunction => do
    let exprs ← Eval.ofExcept (checkOperands .conjunction operands 0 none)
    evalConjuncts run env exprs
  | .sequence => do
    let _ ← Eval.ofExcept (checkOperands .sequence operands 1 none)
    evalBody run env operands
  | .cond => do
    let clauses ← Eval.ofExcept (checkOperands .cond operands 0 none)
    evalClauses run env clauses
  | .define => evalDefine run operands env
  | .defineMacro => evalDefineMacro operands env
  | .branch => evalBranch run operands env
  | .lambda => evalProcedure .lambda (.lambda env) operands
  | .binding => evalLet run operands env
  | .mu => evalProcedure .mu .mu operands
  | .disjunction => do
    let exprs ← Eval.ofExcept (checkOperands .disjunction operands 0 none)
    evalDisjuncts run env exprs
  | .quasiquote => do
    let template ← Eval.ofExcept (onlyOperand .quasiquote operands)
    expandTemplate run env 1 template
  | .quote => Eval.ofExcept (onlyOperand .quote operands)
  | .assignment => evalAssignment run operands env
  | .unquote => Eval.fail (.invalidForm .unquote .outsideQuasiquote)
  | .unquoteSplicing => Eval.fail (.invalidForm .unquote .outsideQuasiquote)

/-- Calls a procedure from a frame. -/
def call (run : Runner) (procedure : Value) (args : List Value) (env : FrameId) : Eval Value :=
  match procedure with
  | .builtin _ b => callBuiltin run b args env
  | .compound _ kind formals body =>
    if formals.arity.accepts args.length then do
      let frame ← Eval.makeChildFrame (kind.parent env) formals args
      evalBody run frame body
    else Eval.fail (.wrongArguments procedure.text formals.arity args.length)
  | v => Eval.fail (.notCallable v.text)

/-- Calls a procedure with the items of a value as its arguments, which must be
a proper list. -/
def callOn (run : Runner) (procedure args : Value) (env : FrameId) : Eval Value :=
  match args.toList? with
  | some items => call run procedure items env
  | none =>
    match procedure with
    | .builtin .. => Eval.fail (.malformed args.text)
    | .compound _ _ formals _ =>
      Eval.fail (.wrongArguments procedure.text formals.arity args.items.length)
    | v => Eval.fail (.notCallable v.text)

/-- The parts of a combination that is no special form, from left to right. A
transformer is called with the operands as they are, and what it returns is
evaluated in the same frame. -/
def evalCombination (run : Runner) (head : Value) (operands : List Value) (env : FrameId) :
    Eval Value :=
  match head with
  | .symbol name => do
    let operator ← Eval.lookup env name
    if operator.isTransformer then
      let expansion ← run (.call operator operands env)
      run (.eval expansion env)
    else
      let args ← evalEach run env operands
      call run operator args env
  | head => do
    let operator ← run (.eval head env)
    let args ← evalEach run env operands
    call run operator args env

/-- An expression in a frame. -/
def eval (forms : FormTable) (run : Runner) (expr : Value) (env : FrameId) : Eval Value :=
  match expr with
  | .pair _ head rest =>
    match rest.toList? with
    | none => Eval.fail (.malformed expr.text)
    | some operands =>
      match head with
      | .symbol name =>
        match forms.lookup name with
        | some form => evalForm run form rest env
        | none => evalCombination run head operands env
      | _ => evalCombination run head operands env
  | atom => evalAtom atom env

/-- Evaluates a task. The fuel bounds the depth of the recursion. -/
def run (forms : FormTable) : (fuel : Nat) → Runner
  | 0, _ => fun _ => .outOfFuel
  | fuel + 1, .eval expr env => eval forms (run forms fuel) expr env
  | fuel + 1, .call procedure args env => call (run forms fuel) procedure args env

/-! ## One step -/

section Steps
variable {r : {α : Type} → Eval α → Eval α → Prop} (hr : Eval.Congruence r)
  {direct looped : Runner} (hRun : ∀ t, r (direct t) (looped t))
  (hTail : ∀ expr env, r (direct (.eval expr env)) (evalTail expr env >>= complete looped))

/-- A step that ends with a value is complete. -/
theorem finished_complete (x : Eval Value) : finished x >>= complete looped = x := by
  simp only [finished, bind_assoc, pure_bind, complete, bind_pure]

include hr hRun hTail

/-- A body ends directly as its last expression does after the loop has taken it up. -/
theorem evalBody_rel (env : FrameId) (body : Value) :
    r (evalBody direct env body) (MiniScheme.evalBody looped env body >>= complete looped) := by
  -- One case for each way a body can end: its last expression, one before others, none at all.
  fun_induction evalBody direct env body with
  | case1 stamp last => exact hTail last env
  | case2 stamp first rest hRest ih =>
    rw [MiniScheme.evalBody, bind_assoc]
    · exact hr.bind (hRun _) fun _ => ih
    · exact hRest
  | case3 v hNil hPair =>
    rw [MiniScheme.evalBody]
    · exact hr.refl _
    · exact hNil
    · exact hPair

/-- A `let` is related: its bindings are evaluated alike, and its body is one. -/
theorem evalLet_rel (operands : Value) (env : FrameId) :
    r (evalLet direct operands env)
      (MiniScheme.evalLet looped operands env >>= complete looped) := by
  unfold evalLet MiniScheme.evalLet
  rw [bind_assoc]
  refine hr.bind (hr.refl _) fun _ => ?_
  cases operands with
  | pair stamp bindings body =>
    simp only
    cases bindings.toList? with
    | none => exact hr.refl _
    | some bindings =>
      simp only [bind_assoc]
      refine hr.bind (evalBindings_rel hr hRun env bindings [] []) fun evaluated => ?_
      refine hr.bind (hr.refl _) fun formals => hr.bind (hr.refl _) fun frame => ?_
      exact evalBody_rel hr hRun hTail frame body
  | _ => exact hr.refl _

/-- An `if` is related: the branch that is taken is in tail position. -/
theorem evalBranch_rel (operands : Value) (env : FrameId) :
    r (evalBranch direct operands env)
      (MiniScheme.evalBranch looped operands env >>= complete looped) := by
  unfold evalBranch MiniScheme.evalBranch
  rw [bind_assoc]
  refine hr.bind (hr.refl _) fun items => ?_
  rcases items with _ | ⟨test, _ | ⟨consequent, alternative⟩⟩
  · exact hr.refl _
  · exact hr.refl _
  · simp only [bind_assoc]
    refine hr.bind (hRun _) fun v => ?_
    split
    · exact hTail consequent env
    · cases alternative with
      | nil => exact hr.refl _
      | cons alternative more => exact hTail alternative env

/-- Clauses are related: the first whose test counts as true leaves its body to the loop. -/
theorem evalClauses_rel (env : FrameId) (clauses : List Value) :
    r (evalClauses direct env clauses)
      (MiniScheme.evalClauses looped env clauses >>= complete looped) := by
  induction clauses with
  | nil => exact hr.refl _
  | cons clause clauses ih =>
    unfold evalClauses MiniScheme.evalClauses
    rw [bind_assoc]
    refine hr.bind (hr.refl _) fun _ => ?_
    cases clause with
    | pair stamp test body =>
      simp only [bind_assoc]
      refine hr.bind (evalTest_rel hr hRun env test clauses) fun v => ?_
      split
      · -- a clause without a body ends with the value of its test
        have hBody := evalBody_rel hr hRun hTail env body
        cases body with
        | atom a =>
          cases a with
          | nil => exact hr.refl _
          | _ => exact hBody
        | _ => exact hBody
      · exact ih
    | _ => exact hr.refl _

/-- An `and` is related: its last operand is in tail position. -/
theorem evalConjuncts_rel (env : FrameId) (exprs : List Value) :
    r (evalConjuncts direct env exprs)
      (MiniScheme.evalConjuncts looped env exprs >>= complete looped) := by
  induction exprs with
  | nil => exact hr.refl _
  | cons expr exprs ih =>
    -- only the last operand is left to the loop
    cases exprs with
    | nil => exact hTail expr env
    | cons next exprs =>
      unfold evalConjuncts MiniScheme.evalConjuncts
      rw [bind_assoc]
      refine hr.bind (hRun _) fun v => ?_
      split
      · exact ih
      · exact hr.refl _

/-- An `or` is related: its last operand is in tail position. -/
theorem evalDisjuncts_rel (env : FrameId) (exprs : List Value) :
    r (evalDisjuncts direct env exprs)
      (MiniScheme.evalDisjuncts looped env exprs >>= complete looped) := by
  induction exprs with
  | nil => exact hr.refl _
  | cons expr exprs ih =>
    -- only the last operand is left to the loop
    cases exprs with
    | nil => exact hTail expr env
    | cons next exprs =>
      unfold evalDisjuncts MiniScheme.evalDisjuncts
      rw [bind_assoc]
      refine hr.bind (hRun _) fun v => ?_
      split
      · exact hr.refl _
      · exact ih

/-- **One form.** Direct evaluation of a form is related to its step and the completion of
whatever the step leaves pending. -/
theorem evalForm_rel (form : Form) (operands : Value) (env : FrameId) :
    r (evalForm direct form operands env) (form.eval looped operands env >>= complete looped) := by
  cases form with
  -- forms with something in tail position
  | conjunction =>
    simp only [evalForm, Form.eval, evalConjunction, bind_assoc]
    exact hr.bind (hr.refl _) fun exprs => evalConjuncts_rel hr hRun hTail env exprs
  | disjunction =>
    simp only [evalForm, Form.eval, evalDisjunction, bind_assoc]
    exact hr.bind (hr.refl _) fun exprs => evalDisjuncts_rel hr hRun hTail env exprs
  | sequence =>
    simp only [evalForm, Form.eval, evalSequence, bind_assoc]
    exact hr.bind (hr.refl _) fun _ => evalBody_rel hr hRun hTail env operands
  | cond =>
    simp only [evalForm, Form.eval, evalCond, bind_assoc]
    exact hr.bind (hr.refl _) fun clauses => evalClauses_rel hr hRun hTail env clauses
  | branch => exact evalBranch_rel hr hRun hTail operands env
  | binding => exact evalLet_rel hr hRun hTail operands env
  -- forms that leave nothing pending
  | define =>
    simp only [evalForm, Form.eval, finished_complete]
    exact evalDefine_rel hr hRun operands env
  | assignment =>
    simp only [evalForm, Form.eval, finished_complete]
    exact evalAssignment_rel hr hRun operands env
  | quasiquote =>
    simp only [evalForm, Form.eval, bind_assoc, finished_complete]
    exact hr.bind (hr.refl _) fun template => expandTemplate_rel hr hRun env 1 template
  | defineMacro | lambda | mu | quote =>
    simp only [evalForm, Form.eval, finished_complete]
    exact hr.refl _
  | unquote | unquoteSplicing => exact hr.refl _

/-- A call is related: only a procedure with a body leaves anything pending. -/
theorem call_rel (procedure : Value) (args : List Value) (env : FrameId) :
    r (call direct procedure args env)
      (MiniScheme.call looped procedure args env >>= complete looped) := by
  cases procedure with
  | builtin stamp b =>
    rw [call, MiniScheme.call, finished_complete]
    exact callBuiltin_rel hr hRun b args env
  | compound stamp kind formals body =>
    simp only [call, MiniScheme.call, callCompound]
    -- the arguments fit the parameters, or they do not
    split
    · rw [bind_assoc]
      exact hr.bind (hr.refl _) fun frame => evalBody_rel hr hRun hTail frame body
    · exact hr.refl _
  | _ => exact hr.refl _

/-- A call on the items of a value is related, as the refusal of one that is no list is. -/
theorem callOn_rel (procedure args : Value) (env : FrameId) :
    r (callOn direct procedure args env)
      (MiniScheme.callOn looped procedure args env >>= complete looped) := by
  unfold callOn MiniScheme.callOn
  cases args.toList? with
  | some items => exact call_rel hr hRun hTail procedure items env
  | none =>
    cases procedure with
    | _ => exact hr.refl _

/-- A combination is related: its parts are evaluated alike and its body, or the expansion of a
transformer, is left to the loop. -/
theorem evalCombination_rel (head : Value) (operands : List Value) (env : FrameId) :
    r (evalCombination direct head operands env)
      (stepCombination looped head operands env >>= complete looped) := by
  -- With the operator known, the operands are evaluated and it is called.
  have hOperator : ∀ operator,
      r (evalEach direct env operands >>= fun args => call direct operator args env)
        ((evalEach looped env operands >>= fun args => MiniScheme.call looped operator args env)
          >>= complete looped) := by
    intro operator
    rw [bind_assoc]
    exact hr.bind (evalEach_rel hr hRun env operands) fun args => call_rel hr hRun hTail _ args env
  have hHead : ∀ head,
      r (direct (.eval head env) >>= fun operator =>
          evalEach direct env operands >>= fun args => call direct operator args env)
        ((looped (.eval head env) >>= fun operator =>
          evalEach looped env operands >>= fun args => MiniScheme.call looped operator args env)
          >>= complete looped) := by
    intro head
    rw [bind_assoc]
    exact hr.bind (hRun _) hOperator
  cases head with
  | atom a =>
    cases a with
    | symbol name =>
      simp only [evalCombination, stepCombination]
      rw [bind_assoc]
      refine hr.bind (hr.refl _) fun operator => ?_
      split
      · -- the expansion is what is left pending
        rw [bind_assoc]
        exact hr.bind (hRun _) fun expansion => hRun _
      · exact hOperator operator
    | _ => exact hHead _
  | _ => exact hHead _

/-- **One expression.** Direct evaluation is related to one step and its completion. -/
theorem eval_rel (forms : FormTable) (expr : Value) (env : FrameId) :
    r (eval forms direct expr env) (step forms looped expr env >>= complete looped) := by
  -- Only a pair is a combination or the use of a form; all else is evaluated at once.
  cases expr with
  | pair stamp head rest =>
    simp only [eval, step]
    cases rest.toList? with
    | none => exact hr.refl _
    | some operands =>
      have hCombination := evalCombination_rel hr hRun hTail head operands env
      cases head with
      | atom a =>
        cases a with
        | symbol name =>
          simp only
          cases forms.lookup name with
          | none => exact hCombination
          | some form => exact evalForm_rel hr hRun hTail form rest env
        | _ => exact hCombination
      | _ => exact hCombination
  | _ =>
    simp only [eval, step, finished_complete]
    exact hr.refl _

end Steps

/-! ## Whole runs -/

/-- What is related for expressions and calls is related for tasks. -/
theorem run_succ_rel {r : {α : Type} → Eval α → Eval α → Prop} (hr : Eval.Congruence r)
    (forms : FormTable) {k n : Nat} (hRun : ∀ t, r (run forms k t) (runTask forms n t))
    (hTail : ∀ expr env, r (run forms k (.eval expr env))
      (evalTail expr env >>= complete (runTask forms n))) (t : Task) :
    r (run forms (k + 1) t) (runTask forms (n + 1) t) := by
  rw [runTask_succ]
  cases t with
  | eval expr env => exact eval_rel hr hRun hTail forms expr env
  | call procedure args env => exact call_rel hr hRun hTail procedure args env

/-- A tail position needs no more fuel than direct evaluation: for an atom it
needs none. -/
theorem run_le_tail {forms : FormTable} {fuel : Nat}
    (hRun : ∀ t, Eval.Le (run forms fuel t) (runTask forms fuel t)) (expr : Value) (env : FrameId) :
    Eval.Le (run forms fuel (.eval expr env))
      (evalTail expr env >>= complete (runTask forms fuel)) := by
  cases expr with
  | pair stamp first rest => exact hRun _
  | _ =>
    -- Without fuel direct evaluation does not even look at an atom.
    simp only [evalTail, finished_complete]
    cases fuel with
    | zero => exact fun m => .inl rfl
    | succ fuel => exact Eval.le_congruence.refl _

/-- With one more unit direct evaluation does what is left in a tail position. -/
theorem tail_le_run {forms : FormTable} {fuel : Nat}
    (hRun : ∀ t, Eval.Le (runTask forms fuel t) (run forms (fuel + 1) t)) (expr : Value)
    (env : FrameId) :
    Eval.Le (evalTail expr env >>= complete (runTask forms fuel))
      (run forms (fuel + 1) (.eval expr env)) := by
  cases expr with
  | pair stamp first rest => exact hRun _
  | _ =>
    simp only [evalTail, finished_complete]
    exact Eval.le_congruence.refl _

/-- Direct evaluation has no answer that the loop does not have with as much fuel. -/
theorem run_le_runTask (forms : FormTable) (fuel : Nat) (t : Task) :
    Eval.Le (run forms fuel t) (runTask forms fuel t) := by
  induction fuel generalizing t with
  | zero => exact fun m => .inl rfl
  | succ fuel ih => exact run_succ_rel Eval.le_congruence forms ih (run_le_tail ih) t

/-- The loop has no answer that direct evaluation does not have with one more unit of fuel. -/
theorem runTask_le_run (forms : FormTable) (fuel : Nat) (t : Task) :
    Eval.Le (runTask forms fuel t) (run forms (fuel + 1) t) := by
  induction fuel generalizing t with
  | zero => exact fun m => .inl rfl
  | succ fuel ih => exact run_succ_rel Eval.le_congruence.converse forms ih (tail_le_run ih) t

end Direct

/-- More fuel never changes an answer. -/
theorem runTask_le_succ (forms : FormTable) (fuel : Nat) (t : Task) :
    Eval.Le (runTask forms fuel t) (runTask forms (fuel + 1) t) :=
  (Direct.runTask_le_run forms fuel t).trans (Direct.run_le_runTask forms (fuel + 1) t)

/-- More fuel does not change an answer of the loop. -/
theorem runTask_le_of_le {forms : FormTable} {fuel fuel' : Nat} (h : fuel ≤ fuel') (t : Task) :
    Eval.Le (runTask forms fuel t) (runTask forms fuel' t) := by
  induction h with
  | refl => exact Eval.le_congruence.refl _
  | step _ ih => exact ih.trans (runTask_le_succ forms _ t)

/-! ## Answers -/

/-- Given enough fuel, the computation ends on the machine with this answer. -/
def ComesTo {α : Type} (x : Nat → Eval α) (m : Machine) (a : Answer α) : Prop :=
  a ≠ .outOfFuel ∧ ∃ fuel, x fuel m = a

/-- Where a computation answers as another with some more fuel, it has the answers of that one. -/
theorem ComesTo.of_le {α : Type} {x y : Nat → Eval α} (k : Nat)
    (h : ∀ fuel, Eval.Le (x fuel) (y (fuel + k))) {m : Machine} {a : Answer α}
    (hx : ComesTo x m a) : ComesTo y m a := by
  obtain ⟨ha, fuel, hFuel⟩ := hx
  exact ⟨ha, fuel + k, (h fuel).answer ha hFuel⟩

/-- A step and what it leaves pending come to an answer just as a direct
computation does, if the two are related for related runners. -/
theorem comesTo_complete_iff (forms : FormTable) {stepped : Runner → Eval Outcome}
    {direct : Runner → Eval Value}
    (h : ∀ {r : {α : Type} → Eval α → Eval α → Prop} {run looped : Runner}, Eval.Congruence r →
      (∀ t, r (run t) (looped t)) →
      (∀ expr env, r (run (.eval expr env)) (evalTail expr env >>= complete looped)) →
      r (direct run) (stepped looped >>= complete looped))
    (m : Machine) (a : Answer Value) :
    ComesTo (fun fuel => stepped (runTask forms fuel) >>= complete (runTask forms fuel)) m a ↔
      ComesTo (fun fuel => direct (Direct.run forms fuel)) m a := by
  -- The parts are related as the runners are, for either evaluator as the lesser one.
  constructor
  · refine ComesTo.of_le 1 fun fuel => ?_
    have hRun := Direct.runTask_le_run forms fuel
    exact h Eval.le_congruence.converse hRun (Direct.tail_le_run hRun)
  · refine ComesTo.of_le 0 fun fuel => ?_
    have hRun := Direct.run_le_runTask forms fuel
    exact h Eval.le_congruence hRun (Direct.run_le_tail hRun)

/-- **The loop changes nothing that can be observed.** Whatever evaluation comes
to, a value or an error and the machine with it, direct evaluation comes to, and
the other way round. The same holds of an expression in tail position, of a body
and of a call, each with the completion of what it leaves pending, and of a
completed call. -/
theorem comesTo_iff_direct (forms : FormTable) (env : FrameId) (m : Machine) (a : Answer Value) :
    (∀ expr, ComesTo (fun fuel => evaluate forms fuel expr env) m a ↔
      ComesTo (fun fuel => Direct.run forms fuel (.eval expr env)) m a) ∧
    (∀ expr,
      ComesTo (fun fuel => evalTail expr env >>= complete (runTask forms fuel)) m a ↔
        ComesTo (fun fuel => Direct.run forms fuel (.eval expr env)) m a) ∧
    (∀ body,
      ComesTo (fun fuel =>
          evalBody (runTask forms fuel) env body >>= complete (runTask forms fuel)) m a ↔
        ComesTo (fun fuel => Direct.evalBody (Direct.run forms fuel) env body) m a) ∧
    (∀ procedure args,
      ComesTo (fun fuel =>
          callOn (runTask forms fuel) procedure args env >>= complete (runTask forms fuel)) m a ↔
        ComesTo (fun fuel => Direct.callOn (Direct.run forms fuel) procedure args env) m a) ∧
    (∀ procedure args,
      ComesTo (fun fuel => completeCall forms fuel procedure args env) m a ↔
        ComesTo (fun fuel => Direct.callOn (Direct.run forms fuel) procedure args env) m a) := by
  have hCall := fun procedure args => comesTo_complete_iff forms
    (fun hr hRun hTail => Direct.callOn_rel hr hRun hTail procedure args env) m a
  refine ⟨fun expr => ⟨?_, ?_⟩, fun expr => ?_, fun body => ?_, hCall, hCall⟩
  · exact ComesTo.of_le 1 fun fuel => Direct.runTask_le_run forms fuel _
  · exact ComesTo.of_le 0 fun fuel => Direct.run_le_runTask forms fuel _
  · exact comesTo_complete_iff forms (fun hr hRun hTail => hTail expr env) m a
  · exact comesTo_complete_iff forms
      (fun hr hRun hTail => Direct.evalBody_rel hr hRun hTail env body) m a

end MiniScheme
