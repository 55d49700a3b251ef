import MiniScheme.Proofs.Eval.Direct
import MiniScheme.Proofs.Eval.History
import MiniScheme.Proofs.Eval.Plan
import Mathlib.Logic.Relation

/-!
# Nested loops

A step leaves what stands in tail position to the loop that runs it. What does not stand there
the step has to evaluate itself, and for that it runs a loop of its own, nested in the first.
So the depth of the nesting is what the stack of the evaluator has to hold, and a chain of tail
calls adds nothing to it.

* `step_rel` — related runners give related steps;
* `loop`, `nested` — one loop over a runner for everything else, and loops nested up to some
  depth;
* `WithinDepth`, `comesTo_iff_withinDepth` — the answers that some depth of nesting is enough
  for: these are the answers of evaluation;
* `TailCall`, `withinDepth_of_tailCalls` — a chain of tail calls needs no depth;
* `tail_expressions_deferred` — what is deferred by bodies, calls and forms, and hence by a
  chain of them.
-/

namespace MiniScheme

/-! ## Steps of related runners -/

section Steps
variable {r : {α : Type} → Eval α → Eval α → Prop} (hr : Eval.Congruence r)
  {run run' : Runner} (hRun : ∀ t, r (run t) (run' t))
include hr hRun

/-- A body is related: each expression before the last is evaluated by the runner. -/
theorem evalBody_rel (env : FrameId) (body : Value) :
    r (evalBody run env body) (evalBody run' env body) := by
  -- One case for each way a body can end: its last expression, one before others, none at all.
  fun_induction evalBody run env body with
  | case1 stamp last => exact hr.refl _
  | case2 stamp first rest hRest ih =>
    rw [evalBody]
    · exact hr.bind (hRun _) fun _ => ih
    · exact hRest
  | case3 v hNil hPair =>
    rw [evalBody]
    · exact hr.refl _
    · exact hNil
    · exact hPair

/-- A `let` is related: the runner evaluates its bindings and the expressions before its last. -/
theorem evalLet_rel (operands : Value) (env : FrameId) :
    r (evalLet run operands env) (evalLet run' operands env) := by
  unfold evalLet
  refine hr.bind (hr.refl _) fun _ => ?_
  cases operands with
  | pair stamp bindings body =>
    dsimp only
    cases bindings.toList? with
    | none => exact hr.refl _
    | some bindings =>
      refine hr.bind (evalBindings_rel hr hRun env bindings [] []) fun evaluated => ?_
      refine hr.bind (hr.refl _) fun formals => hr.bind (hr.refl _) fun frame => ?_
      exact evalBody_rel hr hRun frame body
  | _ => exact hr.refl _

omit hRun in
theorem finished_rel {x y : Eval Value} (h : r x y) : r (finished x) (finished y) :=
  hr.bind h fun _ => hr.refl _

/-- **One form** is related. Planned forms are, as their plans; in the others the runner evaluates
parts that are not in tail position. -/
theorem formEval_rel (form : Form) (operands : Value) (env : FrameId) :
    r (form.eval run operands env) (form.eval run' operands env) := by
  cases hPlan : form.plan? operands with
  | some plan =>
    rw [Form.eval_eq_plan hPlan, Form.eval_eq_plan hPlan]
    exact plan.eval_rel hr hRun env
  | none =>
    cases form with
    | binding => exact evalLet_rel hr hRun operands env
    | define => exact finished_rel hr (evalDefine_rel hr hRun operands env)
    | assignment => exact finished_rel hr (evalAssignment_rel hr hRun operands env)
    | quasiquote =>
      refine hr.bind (hr.refl _) fun template => ?_
      exact finished_rel hr (expandTemplate_rel hr hRun env 1 template)
    | conjunction | disjunction | sequence | cond | branch => cases hPlan
    | defineMacro | lambda | mu | quote | unquote | unquoteSplicing => exact hr.refl _

/-- A call is related: the runner evaluates all but the end of the body. -/
theorem call_rel (procedure : Value) (args : List Value) (env : FrameId) :
    r (call run procedure args env) (call run' procedure args env) := by
  cases procedure with
  | builtin stamp b => exact finished_rel hr (callBuiltin_rel hr hRun b args env)
  | compound stamp kind formals body =>
    simp only [call, callCompound]
    -- whether the arguments fit does not depend on the runner
    split
    · exact hr.bind (hr.refl _) fun frame => evalBody_rel hr hRun frame body
    · exact hr.refl _
  | _ => exact hr.refl _

/-- A combination is related: the runner evaluates its parts and calls its transformers. -/
theorem stepCombination_rel (head : Value) (operands : List Value) (env : FrameId) :
    r (stepCombination run head operands env) (stepCombination run' head operands env) := by
  -- An operator that is no transformer is called on the values of the operands, and whether it
  -- was looked up or evaluated makes no difference.
  have hOperator : ∀ operator,
      r (evalEach run env operands >>= fun args => call run operator args env)
        (evalEach run' env operands >>= fun args => call run' operator args env) := by
    intro operator
    exact hr.bind (evalEach_rel hr hRun env operands) fun args => call_rel hr hRun _ args env
  have hHead := hr.bind (hRun (.eval head env)) hOperator
  cases head with
  | atom a =>
    cases a with
    | symbol name =>
      refine hr.bind (hr.refl _) fun operator => ?_
      split
      · exact hr.bind (hRun _) fun expansion => hr.refl _
      · exact hOperator operator
    | _ => exact hHead
  | _ => exact hHead

/-- **One step** of related runners is related. -/
theorem step_rel (forms : FormTable) (t : Task) : r (t.step forms run) (t.step forms run') := by
  cases t with
  | call procedure args env => exact call_rel hr hRun procedure args env
  | eval expr env =>
    cases expr with
    | pair stamp head rest =>
      simp only [Task.step, step]
      cases rest.toList? with
      | none => exact hr.refl _
      | some operands =>
        have hCombination := stepCombination_rel hr hRun head operands env
        -- A symbol at the head may name a form; any other head is an operator.
        cases head with
        | atom a =>
          cases a with
          | symbol name =>
            dsimp only
            cases forms.lookup name with
            | none => exact hCombination
            | some form => exact formEval_rel hr hRun form rest env
          | _ => exact hCombination
        | _ => exact hCombination
    | _ => exact hr.refl _

end Steps

/-! ## Loops -/

/-- One loop. It runs at most so many steps one after the other, and `run` does what the steps
cannot leave to it. -/
def loop (forms : FormTable) (run : Runner) : (steps : Nat) → Runner
  | 0, _ => fun _ => .outOfFuel
  | steps + 1, t => do
    match ← t.step forms run with
    | .done v => pure v
    | .pending expr env => loop forms run steps (.eval expr env)

/-- Loops nested to some depth. None of them runs more than so many steps. -/
def nested (forms : FormTable) (steps : Nat) : (depth : Nat) → Runner
  | 0, _ => fun _ => .outOfFuel
  | depth + 1, t => loop forms (nested forms steps depth) steps t

variable {forms : FormTable}

/-- A loop with a better runner and no fewer steps has the same answers. -/
theorem loop_le {run run' : Runner} (hRun : ∀ t, Eval.Le (run t) (run' t)) {steps steps' : Nat}
    (hSteps : steps ≤ steps') (t : Task) :
    Eval.Le (loop forms run steps t) (loop forms run' steps' t) := by
  -- Step by step; a loop without steps has no answer.
  induction steps generalizing steps' t with
  | zero => exact fun m => .inl rfl
  | succ steps ih =>
    obtain ⟨more, rfl⟩ : ∃ more, steps' = more + 1 := ⟨steps' - 1, by omega⟩
    -- the first steps are related, and after them both loops have one step less
    refine Eval.le_congruence.bind (step_rel Eval.le_congruence hRun forms t) fun outcome => ?_
    cases outcome with
    | done v => exact Eval.le_congruence.refl _
    | pending expr env => exact ih (Nat.le_of_succ_le_succ hSteps) _

/-- More steps and more depth do not change an answer. -/
theorem nested_le {steps steps' depth depth' : Nat} (hSteps : steps ≤ steps')
    (hDepth : depth ≤ depth') (t : Task) :
    Eval.Le (nested forms steps depth t) (nested forms steps' depth' t) := by
  induction depth generalizing depth' t with
  | zero => exact fun m => .inl rfl
  | succ depth ih =>
    obtain ⟨more, rfl⟩ : ∃ more, depth' = more + 1 := ⟨depth' - 1, by omega⟩
    exact loop_le (fun t => ih (Nat.le_of_succ_le_succ hDepth) t) hSteps t

/-! ## Depth -/

/-- A loop over a runner that fuel is enough for takes as much more fuel as it has steps. -/
theorem loop_le_runTask {run : Runner} {fuel : Nat}
    (hRun : ∀ t, Eval.Le (run t) (runTask forms fuel t)) (steps : Nat) (t : Task) :
    Eval.Le (loop forms run steps t) (runTask forms (fuel + steps) t) := by
  induction steps generalizing t with
  | zero => exact fun m => .inl rfl
  | succ steps ih =>
    -- A run hands the same fuel to the parts and to the steps that are left, so the parts get
    -- more of it than they need.
    have hMore : ∀ t, Eval.Le (run t) (runTask forms (fuel + steps) t) :=
      fun t => (hRun t).trans (runTask_le_of_le (Nat.le_add_right fuel steps) t)
    rw [← Nat.add_assoc, runTask_succ]
    refine Eval.le_congruence.bind (step_rel Eval.le_congruence hMore forms t) fun outcome => ?_
    cases outcome with
    | done v => exact Eval.le_congruence.refl _
    | pending expr env => exact ih _

/-- Loops nested to some depth have no answer that a run does not have with fuel for all
their steps. -/
theorem nested_le_runTask (steps depth : Nat) (t : Task) :
    Eval.Le (nested forms steps depth t) (runTask forms (depth * steps) t) := by
  induction depth generalizing t with
  | zero => exact fun m => .inl rfl
  | succ depth ih =>
    rw [Nat.succ_mul]
    exact loop_le_runTask ih steps t

/-- With as many steps and as much depth as there is fuel, loops do all that a run does. -/
theorem runTask_le_loop {fuel steps depth count : Nat} (hSteps : fuel ≤ steps)
    (hDepth : fuel ≤ depth + 1) (hCount : fuel ≤ count) (t : Task) :
    Eval.Le (runTask forms fuel t) (loop forms (nested forms steps depth) count t) := by
  induction fuel generalizing depth count t with
  | zero => exact fun m => .inl rfl
  | succ fuel ih =>
    obtain ⟨left, rfl⟩ : ∃ left, count = left + 1 := ⟨count - 1, by omega⟩
    have hRun : ∀ t, Eval.Le (runTask forms fuel t) (nested forms steps depth t) := by
      intro t
      cases depth with
      | zero =>
        -- there was no fuel left either
        obtain rfl : fuel = 0 := by omega
        exact fun m => .inl rfl
      | succ depth => exact ih (by omega) (by omega) (by omega) t
    rw [runTask_succ]
    refine Eval.le_congruence.bind (step_rel Eval.le_congruence hRun forms t) fun outcome => ?_
    cases outcome with
    | done v => exact Eval.le_congruence.refl _
    | pending expr env => exact ih (by omega) (by omega) (by omega) _

/-- A run has no answer that loops do not have that are nested as deep as it has fuel. -/
theorem runTask_le_nested (fuel : Nat) (t : Task) :
    Eval.Le (runTask forms fuel t) (nested forms fuel (fuel + 1) t) :=
  runTask_le_loop (Nat.le_refl fuel) (Nat.le_succ fuel) (Nat.le_refl fuel) t

/-- Given enough steps, loops nested to this depth end on the machine with this answer. -/
def WithinDepth (forms : FormTable) (depth : Nat) (t : Task) (m : Machine) (a : Answer Value) :
    Prop :=
  ComesTo (fun steps => nested forms steps depth t) m a

/-- Every answer takes some depth, and loops that are nested do not give any other answer. -/
theorem comesTo_iff_withinDepth (t : Task) (m : Machine) (a : Answer Value) :
    ComesTo (fun fuel => runTask forms fuel t) m a ↔ ∃ depth, WithinDepth forms depth t m a := by
  constructor
  · rintro ⟨ha, fuel, hFuel⟩
    exact ⟨fuel + 1, ha, fuel, (runTask_le_nested fuel t).answer ha hFuel⟩
  · rintro ⟨depth, ha, steps, hSteps⟩
    exact ⟨ha, depth * steps, (nested_le_runTask steps depth t).answer ha hSteps⟩

/-! ## Chains of tail calls -/

/-- Where control is: before an expression that is to be evaluated in a frame. -/
structure Control where
  expr : Value
  env : FrameId
  machine : Machine

/-- One step leads from one expression to another one that is left pending; loops nested to
this depth are enough for all that the step evaluates. -/
def TailCall (forms : FormTable) (depth : Nat) (p q : Control) : Prop :=
  ComesTo (fun steps => step forms (nested forms steps depth) p.expr p.env) p.machine
    (.value (.pending q.expr q.env) q.machine)

/-- A tail call takes no depth of its own. -/
theorem withinDepth_of_tailCall {depth : Nat} {p q : Control} (h : TailCall forms depth p q)
    (a : Answer Value) :
    WithinDepth forms (depth + 1) (.eval p.expr p.env) p.machine a ↔
      WithinDepth forms (depth + 1) (.eval q.expr q.env) q.machine a := by
  obtain ⟨hEnds, fewer, hFewer⟩ := h
  -- with at least as many steps in the nested loops, the step is the same
  have hStep : ∀ steps, fewer ≤ steps → ∀ count,
      loop forms (nested forms steps depth) (count + 1) (.eval p.expr p.env) p.machine =
        loop forms (nested forms steps depth) count (.eval q.expr q.env) q.machine := by
    intro steps hSteps count
    have hLe : Eval.Le (step forms (nested forms fewer depth) p.expr p.env)
        (step forms (nested forms steps depth) p.expr p.env) :=
      step_rel Eval.le_congruence (nested_le hSteps (Nat.le_refl depth)) forms (.eval p.expr p.env)
    have hPending := hLe.answer hEnds hFewer
    simp only [loop, Task.step, Bind.bind, Eval.bind, hPending]
  constructor
  · rintro ⟨ha, steps, hSteps⟩
    -- a loop that has answered answers the same with one step more, and that is the tail call
    let more := max fewer steps
    have hMore : loop forms (nested forms (more + 1) depth) (more + 1) (.eval p.expr p.env)
        p.machine = a :=
      (nested_le (by omega) (Nat.le_refl (depth + 1)) _).answer ha hSteps
    rw [hStep (more + 1) (by omega)] at hMore
    refine ⟨ha, more + 1, ?_⟩
    exact (loop_le (fun t => Eval.le_congruence.refl _) (Nat.le_succ more) _).answer ha hMore
  · rintro ⟨ha, steps, hSteps⟩
    -- the tail call is one step before those of the second loop
    let more := max fewer steps
    have hMore : loop forms (nested forms (more + 1) depth) more (.eval q.expr q.env)
        q.machine = a := by
      have hLe : Eval.Le (loop forms (nested forms steps depth) steps (.eval q.expr q.env))
          (loop forms (nested forms (more + 1) depth) more (.eval q.expr q.env)) :=
        loop_le (nested_le (by omega) (Nat.le_refl depth)) (by omega) _
      exact hLe.answer ha hSteps
    rw [← hStep (more + 1) (by omega)] at hMore
    exact ⟨ha, more + 1, hMore⟩

/-- Nor does a chain of them, however long it is. -/
theorem withinDepth_of_tailCalls {depth : Nat} {p q : Control}
    (h : Relation.ReflTransGen (TailCall forms depth) p q) (a : Answer Value) :
    WithinDepth forms (depth + 1) (.eval p.expr p.env) p.machine a ↔
      WithinDepth forms (depth + 1) (.eval q.expr q.env) q.machine a := by
  induction h with
  | refl => exact Iff.rfl
  | tail _ hLast ih => exact ih.trans (withinDepth_of_tailCall hLast a)

/-! ## What is deferred -/

/-- With this table of forms every expression in tail position is left to the loop, and
everything before it is evaluated in order. It is so whatever `run` does with the parts. -/
structure DefersTails (forms : FormTable) : Prop where
  /-- A pair in tail position is left pending as it is, and nothing is evaluated. -/
  tail (s : Stamp) (first rest : Value) (env : FrameId) (m : Machine) :
    evalTail (.pair s first rest) env m = .value (.pending (.pair s first rest) env) m
  /-- Of a body all expressions but the last are evaluated, up to the first error. -/
  body (run : Runner) (env : FrameId) {exprs : Value} {init : List Value} {last : Value}
    (hList : exprs.isList) (hItems : exprs.items = init ++ [last]) :
    evalBody run env exprs = (do
      let _ ← evalEach run env init
      evalTail last env)
  /-- A compound procedure that the arguments fit does this with its body in the new frame. -/
  call (run : Runner) (s : Stamp) (kind : CompoundKind) (formals : Formals) (exprs : Value)
    {args : List Value} (env : FrameId) (hFits : formals.arity.accepts args.length) :
    MiniScheme.call run (.compound s kind formals exprs) args env = (do
      let frame ← Eval.makeChildFrame (kind.parent env) formals args
      evalBody run frame exprs)
  /-- A step for `if`, `cond`, `and`, `or` or `begin` keeps to its plan. -/
  form (run : Runner) (env : FrameId) (s : Stamp) {name : String} {form : Form} {operands : Value}
    {plan : Plan} (hForm : forms.lookup name = some form) (hList : operands.isList)
    (hPlan : form.plan? operands = some plan) :
    step forms run (.pair s (.symbol name) operands) env = plan.eval run env
  /-- A step for a `let` evaluates the initialisers and then does with its body as with others. -/
  binding (run : Runner) (env : FrameId) (s t : Stamp) {name : String} {bindings exprs : Value}
    {pairs : List (String × Value)} {formals : Formals}
    (hForm : forms.lookup name = some .binding) (hList : bindings.isList)
    (hEach : bindings.items.map Value.namedExpression? = pairs.map some)
    (hFormals : Formals.ofNames (pairs.map Prod.fst) = .ok formals) (hBody : exprs.isBody) :
    step forms run (.pair s (.symbol name) (.pair t bindings exprs)) env = (do
      let values ← evalEach run env (pairs.map Prod.snd)
      let frame ← Eval.makeChildFrame env formals values
      evalBody run frame exprs)
  /-- A step for any other combination evaluates the operator and the operands before the call. -/
  application (run : Runner) (env : FrameId) (s : Stamp) {head rest : Value}
    (hHead : ∀ name, head ≠ .symbol name) (hList : rest.isList) :
    step forms run (.pair s head rest) env = (do
      let operator ← run (.eval head env)
      let args ← evalEach run env rest.items
      MiniScheme.call run operator args env)
  /-- If the operator is a name, it is looked up. The expansion of a transformer is left
  pending, whatever it is. -/
  named (run : Runner) (env : FrameId) (s : Stamp) {name : String} {rest : Value}
    (hForm : forms.lookup name = none) (hList : rest.isList) :
    step forms run (.pair s (.symbol name) rest) env = (do
      let operator ← Eval.lookup env name
      if operator.isTransformer then
        let expansion ← run (.call operator rest.items env)
        return .pending expansion env
      else
        let args ← evalEach run env rest.items
        MiniScheme.call run operator args env)
  /-- Every answer of an evaluation is one that some depth of nested loops is enough for. -/
  depth (expr : Value) (env : FrameId) (m : Machine) (a : Answer Value) :
    ComesTo (fun fuel => evaluate forms fuel expr env) m a ↔
      ∃ depth, WithinDepth forms depth (.eval expr env) m a
  /-- A chain of tail calls is run by one loop: whatever depth its end needs, is enough for all
  of it, if only the parts that are evaluated on the way get one less. -/
  chain {depth : Nat} {p q : Control} (hCalls : Relation.ReflTransGen (TailCall forms depth) p q)
    (a : Answer Value) :
    WithinDepth forms (depth + 1) (.eval p.expr p.env) p.machine a ↔
      WithinDepth forms (depth + 1) (.eval q.expr q.env) q.machine a

/-- **Tail expressions are deferred.** A step evaluates what is not in tail position, in order
and once each, and leaves the rest to the loop. So a chain of tail calls of any length takes
place in one loop. -/
theorem tail_expressions_deferred (forms : FormTable) : DefersTails forms where
  tail s first rest env m := rfl
  body run env exprs init last hList hItems := by
    rw [evalBody_eq_plan hList, hItems, Plan.eval_ofBody]
  call run s kind formals exprs args env hFits := by
    rw [call_compound, enterFrame, if_pos hFits]
  form run env s name form operands plan hForm hList hPlan := by
    rw [step_form hForm hList]
    exact Form.eval_eq_plan hPlan
  binding run env s t name bindings exprs pairs formals hForm hList hEach hFormals hBody := by
    have hOperands : (Value.pair t bindings exprs).isList := (Value.items_of_isBody hBody).1
    have hStep : step forms run (.pair s (.symbol name) (.pair t bindings exprs)) env =
        evalLet run (.pair t bindings exprs) env := by
      rw [step_form hForm hOperands, Form.eval]
    rw [hStep, evalLet_eq_enterFrame hList hEach hFormals hBody]
    refine bind_congr fun values => ?_
    unfold enterFrame Eval.makeChildFrame
    split
    · rfl
    · rfl
  application run env s head rest hHead hList := step_application hHead hList
  named run env s name rest hForm hList := step_named hForm hList
  depth expr env m a := comesTo_iff_withinDepth _ m a
  chain hCalls a := withinDepth_of_tailCalls hCalls a

/-- The loop that runs `(if #t (begin 1 (or (quote x))))` runs `(quote x)`. -/
theorem tail_expressions_deferred_mixed :
    let quoted : Value := .pair 1 (.symbol "quote") (.pair 0 (.symbol "x") .nil)
    let either : Value := .pair 3 (.symbol "or") (.pair 2 quoted .nil)
    let block : Value := .pair 6 (.symbol "begin") (.pair 5 (.number 1) (.pair 4 either .nil))
    let choice : Value := .pair 9 (.symbol "if") (.pair 8 (.boolean true) (.pair 7 block .nil))
    let m := Machine.populated
    Relation.ReflTransGen (TailCall .standard 1) ⟨choice, 0, m⟩ ⟨quoted, 0, m⟩ ∧
      WithinDepth .standard 2 (.eval quoted 0) m (.value (.symbol "x") m) ∧
      WithinDepth .standard 2 (.eval choice 0) m (.value (.symbol "x") m) := by
  intro quoted either block choice m
  have hChoice : TailCall .standard 1 ⟨choice, 0, m⟩ ⟨block, 0, m⟩ := ⟨by simp, 1, rfl⟩
  have hBlock : TailCall .standard 1 ⟨block, 0, m⟩ ⟨either, 0, m⟩ := ⟨by simp, 1, rfl⟩
  have hEither : TailCall .standard 1 ⟨either, 0, m⟩ ⟨quoted, 0, m⟩ := ⟨by simp, 1, rfl⟩
  have hCalls : Relation.ReflTransGen (TailCall .standard 1) ⟨choice, 0, m⟩ ⟨quoted, 0, m⟩ :=
    ((Relation.ReflTransGen.single hChoice).tail hBlock).tail hEither
  have hQuoted : WithinDepth .standard 2 (.eval quoted 0) m (.value (.symbol "x") m) :=
    ⟨by simp, 1, rfl⟩
  exact ⟨hCalls, hQuoted, ((tail_expressions_deferred .standard).chain hCalls _).mpr hQuoted⟩

end MiniScheme
