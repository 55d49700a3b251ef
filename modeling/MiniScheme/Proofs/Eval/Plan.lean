import MiniScheme.Proofs.Eval.BindingForms

/-!
# Plans

Which expressions stand in tail position can be told from the syntax of a form. The plan of a
use of `if`, `cond`, `and`, `or` or `begin` says which expressions are evaluated on the way to
one in tail position, in which order, and what depends on their values. A body has such a plan
too.

* `Plan`, `Plan.eval` — plans, and a step that keeps to one;
* `Plan.ofBody`, `Plan.ofOperands`, `Plan.ofClauses`, `Form.plan?` — what is planned for the
  syntax;
* `Plan.eval_rel` — related runners give related steps;
* `evalBody_eq_plan`, `Form.eval_eq_plan` — bodies and forms keep to their plans;
* `step_form`, `step_application`, `step_named` — the steps for the three kinds of combinations;
* `enterFrame` — the body of a procedure or of a `let` runs in a new frame:
  `call_compound`, `evalLet_eq_enterFrame`.
-/

namespace MiniScheme

/-- What is done for an expression in one step. -/
inductive Plan where
  /-- There is nothing to evaluate. -/
  | value (v : Value)
  /-- What is wrong with the syntax comes up. -/
  | refuse (e : EvalError)
  /-- The expression is in tail position. -/
  | tail (expr : Value)
  /-- The expression is evaluated, whatever its value. -/
  | perform (expr : Value) (next : Plan)
  /-- The expression is evaluated, and its value says which way to go on. -/
  | test (expr : Value) (yes no : Plan)
  /-- The expression is evaluated, and a value of the decisive truth is the value of all. -/
  | settle (expr : Value) (decisive : Bool) (next : Plan)

namespace Plan

/-- A step that keeps to the plan: one expression after the other is evaluated, and nothing
after the first error. -/
def eval (run : Runner) (env : FrameId) : Plan → Eval Outcome
  | value v => pure (.done v)
  | refuse e => Eval.fail e
  | tail expr => evalTail expr env
  | perform expr next => do
    let _ ← run (.eval expr env)
    next.eval run env
  | test expr yes no => do
    let v ← run (.eval expr env)
    if v.isTruthy then yes.eval run env else no.eval run env
  | settle expr decisive next => do
    let v ← run (.eval expr env)
    if v.isTruthy = decisive then return .done v else next.eval run env

/-! ## The plans of the syntax -/

/-- The expressions of a body: the last one is in tail position. -/
def ofBody : List Value → Plan
  | [] => refuse (.emptyBody Value.nil.text)
  | [last] => tail last
  | expr :: exprs => perform expr (ofBody exprs)

/-- The operands of `and` and `or`: the last one is in tail position, and each of the others
may be decisive. -/
def ofOperands (decisive : Bool) : List Value → Plan
  | [] => value (.boolean !decisive)
  | [last] => tail last
  | expr :: exprs => settle expr decisive (ofOperands decisive exprs)

/-- A clause with a test: without a body the value of the test is decisive. -/
def ofTest (expr : Value) (later : Plan) : List Value → Plan
  | [] => settle expr true later
  | body => test expr (ofBody body) later

/-- A clause that begins with `else`. -/
def ofElse : List Value → Plan
  | [] => value (.boolean true)
  | body => ofBody body

/-- The expressions of one clause of a `cond`, given the clauses after it and their plan. -/
def ofClause (clauses : List Value) (later : Plan) : List Value → Plan
  | .symbol "else" :: body =>
    match clauses with
    | [] => ofElse body
    | _ => refuse (.invalidForm .cond .elseNotLast)
  | expr :: body => ofTest expr later body
  | [] => later

/-- What the check of the operands leaves. -/
def checked (x : Except EvalError (List Value)) (f : List Value → Plan) : Plan :=
  match x with
  | .ok items => f items
  | .error e => refuse e

/-- The clauses of a `cond`. -/
def ofClauses : List Value → Plan
  | [] => value .undefined
  | clause :: clauses =>
    checked (checkOperands .cond clause 1 none) (ofClause clauses (ofClauses clauses))

/-- The operands of `if`. -/
def ofBranch : List Value → Plan
  | [expr, consequent] => test expr (tail consequent) (value .undefined)
  | expr :: consequent :: alternative :: _ => test expr (tail consequent) (tail alternative)
  | operands => ofBody operands

end Plan

/-- The plan of a form that has something in tail position and makes no frame. -/
def Form.plan? (form : Form) (operands : Value) : Option Plan :=
  match form with
  | .branch => some (.checked (checkOperands .branch operands 2 (some 3)) .ofBranch)
  | .cond => some (.checked (checkOperands .cond operands 0 none) .ofClauses)
  | .conjunction => some (.checked (checkOperands .conjunction operands 0 none) (.ofOperands false))
  | .disjunction => some (.checked (checkOperands .disjunction operands 0 none) (.ofOperands true))
  | .sequence => some (.checked (checkOperands .sequence operands 1 none) .ofBody)
  | _ => none

/-! ## Plans of well-formed uses -/

/-- A list of operands passes the check if there are neither too few nor too many. -/
theorem checkOperands_of_isList {form : Form} {operands : Value} {min : Nat} {max : Option Nat}
    (hList : operands.isList) (hMin : min ≤ operands.items.length)
    (hMax : ∀ bound ∈ max, operands.items.length ≤ bound) :
    checkOperands form operands min max = .ok operands.items := by
  have hNotFew : ¬ operands.items.length < min := Nat.not_lt.mpr hMin
  have hNotMany : max.any (· < operands.items.length) = false := by
    cases max with
    | none => rfl
    | some bound => simpa using hMax bound rfl
  unfold checkOperands
  simp [toList?_of_isList hList, hNotFew, hNotMany]

/-- Operands without an upper bound pass the check if they are a list of at least the
lower bound. -/
theorem checkOperands_unbounded {form : Form} {operands : Value} {min : Nat}
    (hList : operands.isList) (hMin : min ≤ operands.items.length) :
    checkOperands form operands min none = .ok operands.items :=
  checkOperands_of_isList hList hMin fun _ hBound => by cases hBound

/-- A body is a list that has a first item. -/
theorem Value.items_of_isBody {v : Value} (h : v.isBody) :
    v.isList ∧ ∃ first rest, v.items = first :: rest := by
  cases v with
  | pair s first rest => exact ⟨h, first, rest.items, Value.items_pair s first rest⟩
  | _ => cases h

namespace Form

theorem plan?_cond {operands : Value} (hList : operands.isList) :
    cond.plan? operands = some (.ofClauses operands.items) := by
  rw [plan?, checkOperands_unbounded hList (Nat.zero_le _)]
  rfl

theorem plan?_conjunction {operands : Value} (hList : operands.isList) :
    conjunction.plan? operands = some (.ofOperands false operands.items) := by
  rw [plan?, checkOperands_unbounded hList (Nat.zero_le _)]
  rfl

theorem plan?_disjunction {operands : Value} (hList : operands.isList) :
    disjunction.plan? operands = some (.ofOperands true operands.items) := by
  rw [plan?, checkOperands_unbounded hList (Nat.zero_le _)]
  rfl

theorem plan?_sequence {operands : Value} (hBody : operands.isBody) :
    sequence.plan? operands = some (.ofBody operands.items) := by
  obtain ⟨hList, first, rest, hItems⟩ := Value.items_of_isBody hBody
  have hSome : 1 ≤ operands.items.length := by
    rw [hItems, List.length_cons]
    exact Nat.le_add_left 1 _
  rw [plan?, checkOperands_unbounded hList hSome]
  rfl

theorem plan?_branch (s t u : Stamp) (expr consequent alternative : Value) :
    branch.plan? (.pair s expr (.pair t consequent (.pair u alternative .nil))) =
      some (.test expr (.tail consequent) (.tail alternative)) :=
  rfl

end Form

namespace Plan

/-- Of several operands the first may be decisive. -/
theorem ofOperands_cons {exprs : Value} (h : exprs.isBody) (decisive : Bool) (expr : Value) :
    ofOperands decisive (expr :: exprs.items) =
      settle expr decisive (ofOperands decisive exprs.items) := by
  obtain ⟨-, first, rest, hItems⟩ := Value.items_of_isBody h
  rw [hItems]
  rfl

/-- Any other test than `else` is an expression. -/
theorem ofClause_of_ne {expr : Value} (h : expr ≠ .symbol "else") (clauses body : List Value)
    (later : Plan) : ofClause clauses later (expr :: body) = ofTest expr later body := by
  rw [ofClause]
  exact h

/-- The first clause is looked at before the others. -/
theorem ofClauses_cons {body : Value} (h : body.isList) (s : Stamp) (expr : Value)
    (clauses : List Value) :
    ofClauses (.pair s expr body :: clauses) =
      ofClause clauses (ofClauses clauses) (expr :: body.items) := by
  have hSome : 1 ≤ (Value.pair s expr body).items.length := by
    rw [Value.items_pair, List.length_cons]
    exact Nat.le_add_left 1 _
  have hList : (Value.pair s expr body).isList := h
  rw [ofClauses, checkOperands_unbounded hList hSome, Value.items_pair]
  rfl

/-- A clause without a body ends with the value of its test, if that counts as true. -/
theorem ofClauses_test {expr : Value} (h : expr ≠ .symbol "else") (s : Stamp)
    (clauses : List Value) :
    ofClauses (.pair s expr .nil :: clauses) = settle expr true (ofClauses clauses) := by
  rw [ofClauses_cons rfl, ofClause_of_ne h]
  rfl

/-- A clause with a body goes on with it, if its test counts as true. -/
theorem ofClauses_body {expr body : Value} (h : expr ≠ .symbol "else") (hBody : body.isBody)
    (s : Stamp) (clauses : List Value) :
    ofClauses (.pair s expr body :: clauses) =
      test expr (ofBody body.items) (ofClauses clauses) := by
  obtain ⟨hList, first, rest, hItems⟩ := Value.items_of_isBody hBody
  rw [ofClauses_cons hList, ofClause_of_ne h, hItems]
  rfl

/-- An `else` clause is its body. -/
theorem ofClauses_else {body : Value} (hBody : body.isBody) (s : Stamp) :
    ofClauses [.pair s (.symbol "else") body] = ofBody body.items := by
  obtain ⟨hList, first, rest, hItems⟩ := Value.items_of_isBody hBody
  rw [ofClauses_cons hList, hItems]
  rfl

end Plan

/-! ## Keeping to the plan -/

/-- Related runners give related steps. -/
theorem Plan.eval_rel {r : {α : Type} → Eval α → Eval α → Prop} (hr : Eval.Congruence r)
    {run run' : Runner} (hRun : ∀ t, r (run t) (run' t)) (env : FrameId) (plan : Plan) :
    r (plan.eval run env) (plan.eval run' env) := by
  -- One case for each thing that a plan can begin with.
  induction plan with
  | value v => exact hr.refl _
  | refuse e => exact hr.refl _
  | tail expr => exact hr.refl _
  | perform expr next ih => exact hr.bind (hRun _) fun _ => ih
  | test expr yes no ihYes ihNo =>
    refine hr.bind (hRun _) fun v => ?_
    split
    · exact ihYes
    · exact ihNo
  | settle expr decisive next ih =>
    refine hr.bind (hRun _) fun v => ?_
    split
    · exact hr.refl _
    · exact ih

variable {run : Runner} {env : FrameId}

/-- A body keeps to the plan of its expressions. -/
theorem evalBody_eq_plan {body : Value} (h : body.isList) :
    evalBody run env body = (Plan.ofBody body.items).eval run env := by
  fun_induction evalBody run env body with
  | case1 stamp last => rfl
  | case2 stamp first rest hRest ih =>
    -- after the first expression there is a body that is not empty
    have hBody : rest.isBody := Value.isBody_of_isList h hRest
    obtain ⟨second, more, hItems⟩ : ∃ second more, rest.items = second :: more := by
      cases rest with
      | pair stamp second more => exact ⟨second, more.items, Value.items_pair _ _ _⟩
      | _ => cases hBody
    rw [Value.items_pair, hItems, Plan.ofBody, ← hItems, Plan.eval, ih h]
    exact List.cons_ne_nil _ _
  | case3 v hNil hPair =>
    cases v with
    | pair stamp first rest => exact absurd rfl (hPair stamp first rest)
    | atom a =>
      cases a with
      | nil => rfl
      | _ => cases h
    | _ => cases h

/-- A body is its last expression in tail position, after all the others. -/
theorem Plan.eval_ofBody (init : List Value) (last : Value) :
    (Plan.ofBody (init ++ [last])).eval run env =
      (evalEach run env init >>= fun _ => evalTail last env) := by
  -- The induction needs whatever values have been found before.
  suffices h : ∀ values, (Plan.ofBody (init ++ [last])).eval run env =
      (evalEachOnto run env values init >>= fun _ => evalTail last env) from h []
  induction init with
  | nil => exact fun values => rfl
  | cons expr exprs ih =>
    intro values
    have hSplit : Plan.ofBody (expr :: exprs ++ [last]) =
        .perform expr (.ofBody (exprs ++ [last])) := by
      cases exprs <;> rfl
    rw [hSplit, evalEachOnto, bind_assoc]
    exact bind_congr fun v => ih (v :: values)

/-- An `and` keeps to the plan of its operands, where `#f` is decisive. -/
theorem evalConjuncts_eq_plan (exprs : List Value) :
    evalConjuncts run env exprs = (Plan.ofOperands false exprs).eval run env := by
  induction exprs with
  | nil => rfl
  | cons expr exprs ih =>
    cases exprs with
    | nil => rfl
    | cons next exprs =>
      rw [evalConjuncts, Plan.ofOperands, Plan.eval, ih]
      · refine bind_congr fun v => ?_
        cases v.isTruthy <;> rfl
      · exact List.cons_ne_nil _ _
      · exact List.cons_ne_nil _ _

/-- An `or` keeps to the plan of its operands, where any other value is decisive. -/
theorem evalDisjuncts_eq_plan (exprs : List Value) :
    evalDisjuncts run env exprs = (Plan.ofOperands true exprs).eval run env := by
  induction exprs with
  | nil => rfl
  | cons expr exprs ih =>
    cases exprs with
    | nil => rfl
    | cons next exprs =>
      rw [evalDisjuncts, Plan.ofOperands, Plan.eval, ih]
      · exact List.cons_ne_nil _ _
      · exact List.cons_ne_nil _ _

/-- Any other test than `else` is an expression. -/
theorem evalTest_of_ne {expr : Value} (h : expr ≠ .symbol "else") (later : List Value) :
    evalTest run env expr later = run (.eval expr env) := by
  rw [evalTest]
  · exact h
  · exact fun hElse _ => h hElse

/-- A `cond` keeps to the plan of its clauses. -/
theorem evalClauses_eq_plan (clauses : List Value) :
    evalClauses run env clauses = (Plan.ofClauses clauses).eval run env := by
  -- Clause by clause: a clause that is malformed is where the plan refuses.
  induction clauses with
  | nil => rfl
  | cons clause clauses ih =>
    unfold evalClauses Plan.ofClauses
    cases hCheck : checkOperands .cond clause 1 none with
    | error e => rfl
    | ok items =>
      obtain ⟨hList, rfl, hSome⟩ := checkOperands_eq_ok hCheck
      cases clause with
      | pair stamp expr body =>
        have hBody : body.isList := hList
        rw [Value.items_pair]
        cases body with
        | atom a =>
          cases a with
          | nil =>
            -- without a body the clause ends with the value of its test
            show (evalTest run env expr clauses >>= fun v => if v.isTruthy then _ else _) = _
            by_cases hElse : expr = .symbol "else"
            · subst hElse
              cases clauses <;> rfl
            · rw [evalTest_of_ne hElse, Plan.checked, Plan.ofClause_of_ne hElse, ih]
              rfl
          | _ => cases hBody
        | pair t second rest =>
          have hPlan : evalBody run env (.pair t second rest) =
              (Plan.ofBody (second :: rest.items)).eval run env := by
            rw [evalBody_eq_plan hBody, Value.items_pair]
          rw [Value.items_pair]
          show (evalTest run env expr clauses >>= fun v =>
            if v.isTruthy then evalBody run env (.pair t second rest) else _) = _
          by_cases hElse : expr = .symbol "else"
          · subst hElse
            cases clauses with
            | nil => exact hPlan
            | cons next more => rfl
          · rw [evalTest_of_ne hElse, Plan.checked, Plan.ofClause_of_ne hElse, hPlan, ih]
            rfl
        | _ => cases hBody
      | _ => simp [Value.items, Value.itemsOnto] at hSome

/-- A step with a checked list of operands keeps to the plan if it does so with each list. -/
theorem Plan.eval_checked (x : Except EvalError (List Value)) {f : List Value → Plan}
    {g : List Value → Eval Outcome}
    (h : ∀ items, x = .ok items → g items = (f items).eval run env) :
    (Eval.ofExcept x >>= g) = (checked x f).eval run env := by
  cases x with
  | ok items => exact h items rfl
  | error e => rfl

/-- **Tail positions.** A form keeps to its plan. -/
theorem Form.eval_eq_plan {form : Form} {operands : Value} {plan : Plan}
    (h : form.plan? operands = some plan) : form.eval run operands env = plan.eval run env := by
  -- Only five forms have a plan; each is checked first, and then its own recursion keeps to it.
  cases form with
  | branch =>
    cases h
    refine Plan.eval_checked _ fun items hCheck => ?_
    obtain ⟨-, -, hEnough⟩ := checkOperands_eq_ok hCheck
    rcases items with _ | ⟨expr, _ | ⟨consequent, _ | ⟨alternative, more⟩⟩⟩
    · cases hEnough
    · simp at hEnough
    · rfl
    · rfl
  | cond =>
    cases h
    exact Plan.eval_checked _ fun items _ => evalClauses_eq_plan items
  | conjunction =>
    cases h
    exact Plan.eval_checked _ fun items _ => evalConjuncts_eq_plan items
  | disjunction =>
    cases h
    exact Plan.eval_checked _ fun items _ => evalDisjuncts_eq_plan items
  | sequence =>
    cases h
    refine Plan.eval_checked _ fun items hCheck => ?_
    obtain ⟨hList, rfl, -⟩ := checkOperands_eq_ok hCheck
    exact evalBody_eq_plan hList
  | _ => cases h

/-! ## Combinations -/

/-- All forms are in the table, under their standard names. -/
def FormTable.IsComplete (forms : FormTable) : Prop :=
  ∀ form : Form, forms.lookup form.keyword = some form

/-- Every form has its keyword in the standard table. -/
theorem FormTable.standard_isComplete : standard.IsComplete := by
  intro form
  cases form <;> rfl

/-- A use of a form. -/
def Form.use (form : Form) (s : Stamp) (operands : Value) : Value :=
  .pair s (.symbol form.keyword) operands

section Combinations
variable {forms : FormTable} {s : Stamp} {name : String} {head rest : Value}

/-- A special form gets its operands as they are. -/
theorem step_form {form : Form} (hForm : forms.lookup name = some form) (hList : rest.isList) :
    step forms run (.pair s (.symbol name) rest) env = form.eval run rest env := by
  simp only [step, toList?_of_isList hList, hForm]

/-- A use of a form is a step of that form. -/
theorem step_use (hForms : forms.IsComplete) (form : Form) (hList : rest.isList) :
    step forms run (form.use s rest) env = form.eval run rest env :=
  step_form (hForms form) hList

/-- If the operator is not a name, it is evaluated as the operands are. -/
theorem step_application (hHead : ∀ name, head ≠ .symbol name) (hList : rest.isList) :
    step forms run (.pair s head rest) env = (do
      let operator ← run (.eval head env)
      let args ← evalEach run env rest.items
      call run operator args env) := by
  simp only [step, toList?_of_isList hList]
  cases head with
  | atom a =>
    cases a with
    | symbol name => exact absurd rfl (hHead name)
    | _ => rfl
  | _ => rfl

/-- If it is a name, what is done depends on what the name is bound to. -/
theorem step_named (hForm : forms.lookup name = none) (hList : rest.isList) :
    step forms run (.pair s (.symbol name) rest) env = (do
      let operator ← Eval.lookup env name
      if operator.isTransformer then
        let expansion ← run (.call operator rest.items env)
        return .pending expansion env
      else
        let args ← evalEach run env rest.items
        call run operator args env) := by
  simp only [step, toList?_of_isList hList, hForm, stepCombination]

end Combinations

/-! ## Bodies in new frames -/

/-- Runs a body in a new frame, if the arguments fit the parameters. -/
def enterFrame (misfit : Nat → EvalError) (run : Runner) (parent : FrameId) (formals : Formals)
    (body : Value) (args : List Value) : Eval Outcome :=
  if formals.arity.accepts args.length then do
    let frame ← Eval.makeChildFrame parent formals args
    evalBody run frame body
  else Eval.fail (misfit args.length)

/-- A compound procedure runs its body in a new frame. -/
theorem call_compound (run : Runner) (s : Stamp) (kind : CompoundKind) (formals : Formals)
    (body : Value) (args : List Value) (env : FrameId) :
    call run (.compound s kind formals body) args env =
      enterFrame (.wrongArguments (Value.compound s kind formals body).text formals.arity) run
        (kind.parent env) formals body args :=
  rfl

/-- A `let` evaluates the initialisers where it stands, and then runs its body in a new frame. -/
theorem evalLet_eq_enterFrame {s : Stamp} {bindings body : Value} {pairs : List (String × Value)}
    {formals : Formals} (hList : bindings.isList)
    (hEach : bindings.items.map Value.namedExpression? = pairs.map some)
    (hFormals : Formals.ofNames (pairs.map Prod.fst) = .ok formals) (hBody : body.isBody) :
    evalLet run (.pair s bindings body) env =
      (evalEach run env (pairs.map Prod.snd) >>=
        enterFrame (.wrongCount formals) run env formals body) := by
  obtain ⟨-, hEval⟩ := evalBindings_eq hEach run env [] []
  simp only [evalLet, checkOperands_of_isBody hBody, toList?_of_isList hList, hEval, bind_assoc,
    pure_bind, List.reverse_nil, List.nil_append, hFormals]
  show (evalEach run env (pairs.map Prod.snd) >>= fun values =>
    Eval.makeChildFrame env formals values >>= fun frame => evalBody run frame body) = _
  refine bind_congr fun values => ?_
  -- the frame is not made if there are too many values or too few
  unfold enterFrame Eval.makeChildFrame
  split
  · rfl
  · rfl

end MiniScheme
