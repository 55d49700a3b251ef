import MiniScheme.Proofs.Eval.Direct
import MiniScheme.Proofs.Eval.Plan

/-!
# Conditionals

With `if` and `begin` at hand `cond` and `and` are not needed, and `or` is needed for two
operands only. Two expressions behave alike if they come to the same answers on every machine,
and to none where the other one comes to none. That a use of a form behaves like another use of
another form can be told from their plans.

* `Eval.Steady`, `comesTo_bind_iff` — the answers of one computation after another;
* `Plan.EndsOn` — the answers of a plan that is carried out to the end, by what it begins with:
  `endsOn_value`, `endsOn_tail`, `endsOn_test`, `endsOn_settle`;
* `Form.comesTo_use_iff` — the use of a form has the answers of its plan;
* `BehavesAs` — expressions with the same answers;
* `conditionals_reduce` — `cond`, `and` and `or`, one clause or one operand at a time.
-/

namespace MiniScheme

/-- Only `#f` counts as false. -/
theorem Value.isTruthy_iff {v : Value} : v.isTruthy = true ↔ v ≠ .boolean false := by
  unfold Value.isTruthy
  split
  · simp
  · rename_i hNot
    exact iff_of_true rfl hNot

/-! ## One computation after another -/

/-- More fuel does not change an answer. -/
def Eval.Steady {α : Type} (x : Nat → Eval α) : Prop :=
  ∀ {fuel fuel' : Nat}, fuel ≤ fuel' → Eval.Le (x fuel) (x fuel')

/-- How an answer goes on: an error is the last answer, and a value has its own. -/
def Answer.Then {α β : Type} (b : Answer α) (next : α → Machine → Answer β → Prop)
    (a : Answer β) : Prop :=
  match b with
  | .value v m => next v m a
  | .failure e m => a = .failure e m
  | .outOfFuel => False

/-- How an answer goes on depends on how each of its values does. -/
theorem Answer.then_congr {α β : Type} {next next' : α → Machine → Answer β → Prop}
    {b : Answer α} {a : Answer β} (h : ∀ v m, next v m a ↔ next' v m a) :
    b.Then next a ↔ b.Then next' a := by
  cases b with
  | value v m => exact h v m
  | _ => exact Iff.rfl

/-- **Answers one after the other.** Two computations in sequence come to an answer exactly if the
first comes to one, and the second goes on from it. -/
theorem comesTo_bind_iff {α β : Type} {x : Nat → Eval α} {f : α → Nat → Eval β}
    (hx : Eval.Steady x) (hf : ∀ v, Eval.Steady (f v)) {m : Machine} {a : Answer β} :
    ComesTo (fun fuel => x fuel >>= fun v => f v fuel) m a ↔
      ∃ b, ComesTo x m b ∧ b.Then (fun v => ComesTo (f v)) a := by
  constructor
  · rintro ⟨ha, fuel, hFuel⟩
    simp only [Bind.bind, Eval.bind] at hFuel
    -- with this fuel the first part has an answer too, or both together would have none
    cases hFirst : x fuel m with
    | value v m' =>
      rw [hFirst] at hFuel
      exact ⟨.value v m', ⟨by simp, fuel, hFirst⟩, ha, fuel, hFuel⟩
    | failure e m' =>
      rw [hFirst] at hFuel
      exact ⟨.failure e m', ⟨by simp, fuel, hFirst⟩, hFuel.symm⟩
    | outOfFuel =>
      rw [hFirst] at hFuel
      exact absurd hFuel.symm ha
  · rintro ⟨b, ⟨hb, fuel, hFirst⟩, hThen⟩
    cases b with
    | value v m' =>
      -- both parts have their answers with the larger amount of fuel
      obtain ⟨ha, fuel', hNext⟩ := hThen
      have hFirst := (hx (Nat.le_max_left fuel fuel')).answer hb hFirst
      have hNext := (hf v (Nat.le_max_right fuel fuel')).answer ha hNext
      refine ⟨ha, max fuel fuel', ?_⟩
      simp only [Bind.bind, Eval.bind, hFirst, hNext]
    | failure e m' =>
      obtain rfl := hThen
      refine ⟨by simp, fuel, ?_⟩
      simp only [Bind.bind, Eval.bind, hFirst]
    | outOfFuel => exact absurd rfl hb

/-- A value that is returned is the only answer. -/
theorem comesTo_pure_iff {α : Type} {v : α} {m : Machine} {a : Answer α} :
    ComesTo (fun _ => pure v) m a ↔ a = .value v m := by
  constructor
  · rintro ⟨-, fuel, hv⟩
    exact hv.symm
  · rintro rfl
    exact ⟨by simp, 0, rfl⟩

/-! ## Plans to their end -/

section Plans
variable {forms : FormTable} {env : FrameId} {m : Machine} {a : Answer Value}

/-- More fuel does not change the answer of an expression. -/
theorem evaluate_steady (expr : Value) : Eval.Steady fun fuel => evaluate forms fuel expr env :=
  fun h => runTask_le_of_le h _

/-- A plan is carried out, and then what it leaves pending. -/
def Plan.run (forms : FormTable) (env : FrameId) (plan : Plan) (fuel : Nat) : Eval Value :=
  plan.eval (runTask forms fuel) env >>= complete (runTask forms fuel)

/-- More fuel does not change the answer of a plan. -/
theorem Plan.run_steady (plan : Plan) : Eval.Steady (plan.run forms env) := by
  intro fuel fuel' h
  refine Eval.le_congruence.bind
    (plan.eval_rel Eval.le_congruence (runTask_le_of_le h) env) fun outcome => ?_
  cases outcome with
  | done v => exact Eval.le_congruence.refl _
  | pending expr env => exact runTask_le_of_le h _

/-- The answers of a plan. -/
def Plan.EndsOn (forms : FormTable) (env : FrameId) (plan : Plan) (m : Machine)
    (a : Answer Value) : Prop :=
  ComesTo (plan.run forms env) m a

namespace Plan

theorem endsOn_value (v : Value) : (value v).EndsOn forms env m a ↔ a = .value v m :=
  comesTo_pure_iff

/-- What is in tail position has the answers that it has anywhere. -/
theorem endsOn_tail (expr : Value) :
    (tail expr).EndsOn forms env m a ↔ ComesTo (fun fuel => evaluate forms fuel expr env) m a := by
  cases expr with
  | pair s first rest => exact Iff.rfl
  | _ =>
    -- an atom in tail position is looked at without fuel
    constructor
    · refine ComesTo.of_le 1 fun fuel => ?_
      rw [evaluate, runTask_succ]
      exact Eval.le_congruence.refl _
    · refine ComesTo.of_le 0 fun fuel => ?_
      cases fuel with
      | zero => exact fun m => .inl rfl
      | succ fuel =>
        rw [evaluate, runTask_succ]
        show Eval.Le (finished _ >>= complete _) (finished _ >>= complete _)
        rw [Direct.finished_complete, Direct.finished_complete]
        exact Eval.le_congruence.refl _

/-- First an expression is evaluated, and then there is a plan that depends on its value. -/
theorem endsOn_of_eval_eq {plan : Plan} {expr : Value} {next : Value → Plan}
    (h : ∀ run : Runner, plan.eval run env =
      (run (.eval expr env) >>= fun v => (next v).eval run env)) :
    plan.EndsOn forms env m a ↔
      ∃ b, ComesTo (fun fuel => evaluate forms fuel expr env) m b ∧
        b.Then (fun v => (next v).EndsOn forms env) a := by
  have hRun : plan.run forms env =
      fun fuel => evaluate forms fuel expr env >>= fun v => (next v).run forms env fuel := by
    funext fuel
    rw [run, h, bind_assoc]
    rfl
  rw [EndsOn, hRun]
  exact comesTo_bind_iff (evaluate_steady expr) fun v => run_steady (next v)

/-- A plan that begins with a test ends as its branch for the value of the test. -/
theorem endsOn_test (expr : Value) (yes no : Plan) :
    (test expr yes no).EndsOn forms env m a ↔
      ∃ b, ComesTo (fun fuel => evaluate forms fuel expr env) m b ∧
        b.Then (fun v => (if v.isTruthy then yes else no).EndsOn forms env) a := by
  refine endsOn_of_eval_eq fun run => bind_congr fun v => ?_
  split <;> rfl

/-- A plan that may be settled ends on the decisive value, or else as the plan that comes next. -/
theorem endsOn_settle (expr : Value) (decisive : Bool) (next : Plan) :
    (settle expr decisive next).EndsOn forms env m a ↔
      ∃ b, ComesTo (fun fuel => evaluate forms fuel expr env) m b ∧
        b.Then (fun v => (if v.isTruthy = decisive then value v else next).EndsOn forms env) a := by
  refine endsOn_of_eval_eq fun run => bind_congr fun v => ?_
  split <;> rfl

end Plan

/-! ## Uses of forms -/

/-- The use of a form has the answers of its plan. -/
theorem Form.comesTo_use_iff (hForms : forms.IsComplete) {form : Form} {operands : Value}
    {plan : Plan} (hList : operands.isList) (hPlan : form.plan? operands = some plan) (s : Stamp) :
    ComesTo (fun fuel => evaluate forms fuel (form.use s operands) env) m a ↔
      plan.EndsOn forms env m a := by
  have hRun : ∀ fuel, evaluate forms (fuel + 1) (form.use s operands) env =
      plan.run forms env fuel := by
    intro fuel
    rw [evaluate, runTask_succ, Plan.run, ← Form.eval_eq_plan hPlan, Task.step,
      step_use hForms form hList]
  constructor
  · refine ComesTo.of_le 0 fun fuel => ?_
    rw [Nat.add_zero, ← hRun]
    exact runTask_le_succ forms fuel _
  · refine ComesTo.of_le 1 fun fuel => ?_
    rw [hRun]
    exact Eval.le_congruence.refl _

/-- Plans with the same answers. -/
def Plan.Same (forms : FormTable) (env : FrameId) (p q : Plan) : Prop :=
  ∀ m a, p.EndsOn forms env m a ↔ q.EndsOn forms env m a

namespace Plan

/-- A test between plans that are the same is the same. -/
theorem Same.test {yes yes' no no' : Plan} (hYes : yes.Same forms env yes')
    (hNo : no.Same forms env no') (expr : Value) :
    (test expr yes no).Same forms env (test expr yes' no') := by
  intro m a
  rw [endsOn_test, endsOn_test]
  refine exists_congr fun b => and_congr_right fun _ => Answer.then_congr fun v m' => ?_
  split
  · exact hYes m' a
  · exact hNo m' a

/-- Settling before plans that are the same is the same. -/
theorem Same.settle {next next' : Plan} (hNext : next.Same forms env next') (expr : Value)
    (decisive : Bool) :
    (settle expr decisive next).Same forms env (settle expr decisive next') := by
  intro m a
  rw [endsOn_settle, endsOn_settle]
  refine exists_congr fun b => and_congr_right fun _ => Answer.then_congr fun v m' => ?_
  split
  · exact Iff.rfl
  · exact hNext m' a

/-- Where `#f` is decisive the value need not be kept, as it is known. -/
theorem settle_false_same (expr : Value) (next : Plan) :
    (settle expr false next).Same forms env (test expr next (value (.boolean false))) := by
  intro m a
  rw [endsOn_settle, endsOn_test]
  refine exists_congr fun b => and_congr_right fun _ => Answer.then_congr fun v m' => ?_
  -- no other value than `#f` counts as false
  by_cases hFalse : v = .boolean false
  · subst hFalse
    exact Iff.rfl
  · rw [Value.isTruthy_iff.mpr hFalse]
    exact Iff.rfl

/-- The use of a form in tail position does what is planned for the form. -/
theorem tail_use_same (hForms : forms.IsComplete) {form : Form} {operands : Value} {plan : Plan}
    (hList : operands.isList) (hPlan : form.plan? operands = some plan) (s : Stamp) :
    (tail (form.use s operands)).Same forms env plan :=
  fun _ _ => (endsOn_tail _).trans (Form.comesTo_use_iff hForms hList hPlan s)

/-- What evaluates to itself may as well be given. -/
theorem tail_boolean_same (b : Bool) :
    (tail (.boolean b)).Same forms env (value (.boolean b)) :=
  fun _ _ => Iff.rfl

theorem Same.refl (p : Plan) : p.Same forms env p := fun _ _ => Iff.rfl

theorem Same.symm {p q : Plan} (h : p.Same forms env q) : q.Same forms env p :=
  fun m a => (h m a).symm

theorem Same.trans {p q r : Plan} (hpq : p.Same forms env q) (hqr : q.Same forms env r) :
    p.Same forms env r :=
  fun m a => (hpq m a).trans (hqr m a)

end Plan

/-! ## Expressions that behave alike -/

/-- Whatever one expression comes to in the frame, a value or an error and the machine with it,
the other one comes to. -/
def BehavesAs (forms : FormTable) (env : FrameId) (expr expr' : Value) : Prop :=
  ∀ m a, ComesTo (fun fuel => evaluate forms fuel expr env) m a ↔
    ComesTo (fun fuel => evaluate forms fuel expr' env) m a

/-- The use of a form behaves as an expression that does what is planned for the form. -/
theorem behavesAs_of_same (hForms : forms.IsComplete) {form : Form} {operands expr : Value}
    {plan : Plan} (hList : operands.isList) (hPlan : form.plan? operands = some plan)
    (hSame : (Plan.tail expr).Same forms env plan) (s : Stamp) :
    BehavesAs forms env (form.use s operands) expr := by
  intro m a
  rw [Form.comesTo_use_iff hForms hList hPlan, ← Plan.endsOn_tail expr]
  exact (hSame m a).symm

end Plans

/-! ## One clause or one operand at a time -/

/-- What `cond`, `and` and `or` come down to. Stamps do not matter. -/
structure ConditionalsReduce (forms : FormTable) : Prop where
  /-- Without clauses there is no value. -/
  cond_nil (env : FrameId) (s : Stamp) (m : Machine) (a : Answer Value) :
    ComesTo (fun fuel => evaluate forms fuel (Form.cond.use s .nil) env) m a ↔
      a = .value .undefined m
  /-- `(cond (expr) clauses...)` is `(or expr (cond clauses...))`. -/
  cond_test (env : FrameId) {expr clauses : Value} (hExpr : expr ≠ .symbol "else")
    (hClauses : clauses.isList) (s t u s' t' u' v : Stamp) :
    BehavesAs forms env (Form.cond.use s (.pair t (.pair u expr .nil) clauses))
      (Form.disjunction.use s' (.pair t' expr (.pair u' (Form.cond.use v clauses) .nil)))
  /-- `(cond (expr body...) clauses...)` is `(if expr (begin body...) (cond clauses...))`. -/
  cond_body (env : FrameId) {expr body clauses : Value} (hExpr : expr ≠ .symbol "else")
    (hBody : body.isBody) (hClauses : clauses.isList) (s t u s' t' u' v w x : Stamp) :
    BehavesAs forms env (Form.cond.use s (.pair t (.pair u expr body) clauses))
      (Form.branch.use s' (.pair t' expr (.pair u' (Form.sequence.use v body)
        (.pair w (Form.cond.use x clauses) .nil))))
  /-- `(cond (else body...))` is `(begin body...)`. -/
  cond_else (env : FrameId) {body : Value} (hBody : body.isBody) (s t u s' : Stamp) :
    BehavesAs forms env (Form.cond.use s (.pair t (.pair u (.symbol "else") body) .nil))
      (Form.sequence.use s' body)
  /-- `(and)` is `#t`. -/
  and_nil (env : FrameId) (s : Stamp) :
    BehavesAs forms env (Form.conjunction.use s .nil) (.boolean true)
  /-- `(and expr)` is `expr`. -/
  and_one (env : FrameId) (expr : Value) (s t : Stamp) :
    BehavesAs forms env (Form.conjunction.use s (.pair t expr .nil)) expr
  /-- `(and expr exprs...)` is `(if expr (and exprs...) #f)`. -/
  and_more (env : FrameId) (expr : Value) {exprs : Value} (hExprs : exprs.isBody)
    (s t s' t' u v w : Stamp) :
    BehavesAs forms env (Form.conjunction.use s (.pair t expr exprs))
      (Form.branch.use s' (.pair t' expr (.pair u (Form.conjunction.use v exprs)
        (.pair w (.boolean false) .nil))))
  /-- `(or)` is `#f`. -/
  or_nil (env : FrameId) (s : Stamp) :
    BehavesAs forms env (Form.disjunction.use s .nil) (.boolean false)
  /-- `(or expr)` is `expr`. -/
  or_one (env : FrameId) (expr : Value) (s t : Stamp) :
    BehavesAs forms env (Form.disjunction.use s (.pair t expr .nil)) expr
  /-- `(or expr exprs...)` evaluates `expr`. If there is a value other than `#f` it is the value,
  and otherwise `(or exprs...)` goes on from there. -/
  or_more (env : FrameId) (expr : Value) {exprs : Value} (hExprs : exprs.isBody)
    (s t u : Stamp) (m : Machine) (a : Answer Value) :
    ComesTo (fun fuel => evaluate forms fuel
        (Form.disjunction.use s (.pair t expr exprs)) env) m a ↔
      ∃ b, ComesTo (fun fuel => evaluate forms fuel expr env) m b ∧
        b.Then (fun v m a => v ≠ .boolean false ∧ a = .value v m ∨ v = .boolean false ∧
          ComesTo (fun fuel => evaluate forms fuel (Form.disjunction.use u exprs) env) m a) a

/-- **Conditionals.** With all forms in the table, `cond`, `and` and `or` come down to `if`,
`begin` and shorter uses of themselves. -/
theorem conditionals_reduce (forms : FormTable) (hForms : forms.IsComplete) :
    ConditionalsReduce forms where
  cond_nil env s m a := by
    rw [Form.comesTo_use_iff hForms rfl (Form.plan?_cond rfl)]
    exact Plan.endsOn_value .undefined
  cond_test env expr clauses hExpr hClauses s t u s' t' u' v := by
    have hList : (Value.pair t (.pair u expr .nil) clauses).isList := hClauses
    have hPlan : Form.cond.plan? (.pair t (.pair u expr .nil) clauses) =
        some (.settle expr true (.ofClauses clauses.items)) := by
      rw [Form.plan?_cond hList, Value.items_pair, Plan.ofClauses_test hExpr]
    have hLater : (Plan.tail (Form.cond.use v clauses)).Same forms env (.ofClauses clauses.items) :=
      Plan.tail_use_same hForms hClauses (Form.plan?_cond hClauses) v
    refine behavesAs_of_same hForms hList hPlan ?_ s
    refine (Plan.tail_use_same hForms rfl (Form.plan?_disjunction rfl) s').trans ?_
    exact hLater.settle expr true
  cond_body env expr body clauses hExpr hBody hClauses s t u s' t' u' v w x := by
    have hList : (Value.pair t (.pair u expr body) clauses).isList := hClauses
    have hPlan : Form.cond.plan? (.pair t (.pair u expr body) clauses) =
        some (.test expr (.ofBody body.items) (.ofClauses clauses.items)) := by
      rw [Form.plan?_cond hList, Value.items_pair, Plan.ofClauses_body hExpr hBody]
    have hLater : (Plan.tail (Form.cond.use x clauses)).Same forms env (.ofClauses clauses.items) :=
      Plan.tail_use_same hForms hClauses (Form.plan?_cond hClauses) x
    have hBlock : (Plan.tail (Form.sequence.use v body)).Same forms env (.ofBody body.items) :=
      Plan.tail_use_same hForms (Value.items_of_isBody hBody).1 (Form.plan?_sequence hBody) v
    refine behavesAs_of_same hForms hList hPlan ?_ s
    refine (Plan.tail_use_same hForms rfl (Form.plan?_branch _ _ _ _ _ _) s').trans ?_
    exact hBlock.test hLater expr
  cond_else env body hBody s t u s' := by
    have hPlan : Form.cond.plan? (.pair t (.pair u (.symbol "else") body) .nil) =
        some (.ofBody body.items) := by
      rw [Form.plan?_cond rfl, Value.items_pair]
      exact congrArg some (Plan.ofClauses_else hBody u)
    refine behavesAs_of_same hForms rfl hPlan ?_ s
    exact Plan.tail_use_same hForms (Value.items_of_isBody hBody).1 (Form.plan?_sequence hBody) s'
  and_nil env s :=
    behavesAs_of_same hForms rfl (Form.plan?_conjunction rfl) (Plan.tail_boolean_same true) s
  and_one env expr s t :=
    behavesAs_of_same hForms rfl (Form.plan?_conjunction rfl) (Plan.Same.refl (.tail expr)) s
  and_more env expr exprs hExprs s t s' t' u v w := by
    have hRest : exprs.isList := (Value.items_of_isBody hExprs).1
    have hList : (Value.pair t expr exprs).isList := hRest
    have hPlan : Form.conjunction.plan? (.pair t expr exprs) =
        some (.settle expr false (.ofOperands false exprs.items)) := by
      rw [Form.plan?_conjunction hList, Value.items_pair, Plan.ofOperands_cons hExprs]
    have hLater : (Plan.tail (Form.conjunction.use v exprs)).Same forms env
        (.ofOperands false exprs.items) :=
      Plan.tail_use_same hForms hRest (Form.plan?_conjunction hRest) v
    refine behavesAs_of_same hForms hList hPlan ?_ s
    refine (Plan.tail_use_same hForms rfl (Form.plan?_branch _ _ _ _ _ _) s').trans ?_
    refine (hLater.test (Plan.tail_boolean_same false) expr).trans ?_
    exact (Plan.settle_false_same expr _).symm
  or_nil env s :=
    behavesAs_of_same hForms rfl (Form.plan?_disjunction rfl) (Plan.tail_boolean_same false) s
  or_one env expr s t :=
    behavesAs_of_same hForms rfl (Form.plan?_disjunction rfl) (Plan.Same.refl (.tail expr)) s
  or_more env expr exprs hExprs s t u m a := by
    have hRest : exprs.isList := (Value.items_of_isBody hExprs).1
    have hList : (Value.pair t expr exprs).isList := hRest
    have hPlan : Form.disjunction.plan? (.pair t expr exprs) =
        some (.settle expr true (.ofOperands true exprs.items)) := by
      rw [Form.plan?_disjunction hList, Value.items_pair, Plan.ofOperands_cons hExprs]
    rw [Form.comesTo_use_iff hForms hList hPlan, Plan.endsOn_settle]
    refine exists_congr fun b => and_congr_right fun _ => Answer.then_congr fun v m' => ?_
    -- what comes after `#f` is the plan of the shorter `or`
    rw [Form.comesTo_use_iff hForms hRest (Form.plan?_disjunction hRest)]
    by_cases hFalse : v = .boolean false
    · subst hFalse
      simp [Value.isTruthy]
    · simp [Value.isTruthy_iff.mpr hFalse, hFalse, Plan.endsOn_value]

/-- `(cond (#f x) (else 2))` and `(if #f (begin x) (cond (else 2)))`. -/
theorem conditionals_reduce_standard :
    let two : Value := .pair 0 (.number 2) .nil
    let clauses : Value := .pair 1 (.pair 2 (.symbol "else") two) .nil
    let body : Value := .pair 3 (.symbol "x") .nil
    let expr := Form.cond.use 4 (.pair 5 (.pair 6 (.boolean false) body) clauses)
    let expr' := Form.branch.use 7 (.pair 8 (.boolean false) (.pair 9 (Form.sequence.use 10 body)
      (.pair 11 (Form.cond.use 12 clauses) .nil)))
    let m := Machine.empty
    FormTable.standard.IsComplete ∧
      ComesTo (fun fuel => evaluate .standard fuel expr 0) m (.value (.number 2) m) ∧
      ComesTo (fun fuel => evaluate .standard fuel expr' 0) m (.value (.number 2) m) := by
  intro two clauses body expr expr' m
  have hExpr : ComesTo (fun fuel => evaluate .standard fuel expr 0) m (.value (.number 2) m) :=
    ⟨nofun, 2, rfl⟩
  have hAlike : BehavesAs .standard 0 expr expr' :=
    (conditionals_reduce .standard FormTable.standard_isComplete).cond_body 0 (by simp) rfl rfl
      4 5 6 7 8 9 10 11 12
  exact ⟨FormTable.standard_isComplete, hExpr, (hAlike m _).mp hExpr⟩

end MiniScheme
