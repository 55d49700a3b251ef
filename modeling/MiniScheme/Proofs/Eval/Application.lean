import MiniScheme.Proofs.Eval.Ahead
import MiniScheme.Proofs.Eval.Direct
import MiniScheme.Proofs.Eval.OneWorld
import MiniScheme.Proofs.Eval.Plan
import MiniScheme.Proofs.Procedure.LetNames

/-!
# Immediate application

A `lambda` that is called where it is written makes a procedure that nobody sees, and runs its
body in a new frame below the one where it stands. A `let` does the same without the procedure.
So does the call of a `mu`, whose body runs below the frame of its caller, and that of a
transformer but for its operands, which are not evaluated, and its value, which is.

* `applyHere` — a body with arguments, in a new frame below the one at hand;
* `applyEach_agreesBut` — the same body with the same expressions as arguments has the same
  end, for a run that is ahead of another, but for what is said of arguments that do not fit;
* `evaluate_let`, `evaluate_lambda_call`, `evaluate_mu_call`, `evaluate_transformer_use`,
  `evaluate_eval_call` — what is evaluated, in terms of these;
* `let_is_application` — a `let` is the call of a `lambda`;
* `dynamic_procedures_written_out` — so is a call of a `mu`, and the use of a transformer is the
  evaluation of what such a call returns.
-/

namespace MiniScheme

open Value (AllIn AllAlike)
open Eval (AgreesBut)

/-! ## A body below the frame at hand -/

/-- Runs a body in a new frame to its value, if the arguments fit the parameters. -/
def applyHere (misfit : Nat → EvalError) (run : Runner) (env : FrameId) (formals : Formals)
    (body : Value) (args : List Value) : Eval Value :=
  enterFrame misfit run env formals body args >>= complete run

/-- Two errors about as many arguments, which do not fit the parameters. -/
structure Formals.Misfit (formals : Formals) (count : Nat) (misfit misfit' : Nat → EvalError)
    (e e' : EvalError) : Prop where
  refused : formals.arity.accepts count = false
  left : e = misfit count
  right : e' = misfit' count

/-- As many values are found as there are expressions. -/
theorem evalEach_length {run : Runner} {env : FrameId} {exprs values : List Value} {m n : Machine}
    (h : evalEach run env exprs m = .value values n) : values.length = exprs.length := by
  -- The induction needs whatever values have been found before.
  suffices hOnto : ∀ before m, evalEachOnto run env before exprs m = .value values n →
      values.length = before.length + exprs.length by
    simpa using hOnto [] m h
  clear h
  induction exprs with
  | nil =>
    intro before m hEnd
    cases hEnd
    exact List.length_reverse
  | cons expr exprs ih =>
    intro before m hEnd
    simp only [evalEachOnto, Bind.bind, Eval.bind] at hEnd
    split at hEnd
    · have hLength := ih _ _ hEnd
      simp only [List.length_cons] at hLength ⊢
      omega
    · cases hEnd
    · cases hEnd

section TwoRuns
variable {c : Correspondence} {run run' : Runner}
  (hRun : ∀ t t' : Task, t.Alike c t' → Eval.Agrees c (Value.Alike c) (run t) (run' t'))
  {env : FrameId} (hEnv : c.frame env) {body body' : Value} (hBody : body.Alike c body')
  (formals : Formals) (misfit misfit' : Nat → EvalError)
include hRun hEnv hBody

/-- Corresponding bodies are entered alike with corresponding arguments, but for what is said of
arguments that do not fit. -/
theorem enterFrame_agreesBut {args args' : List Value} (hArgs : AllAlike c args args') :
    AgreesBut c (Outcome.Alike c) (formals.Misfit args.length misfit misfit')
      (enterFrame misfit run env formals body args)
      (enterFrame misfit' run' env formals body' args') := by
  unfold enterFrame
  -- as many arguments, so they fit in both runs or in neither
  rw [← hArgs.length_eq]
  cases hFits : formals.arity.accepts args.length with
  | true =>
    refine ((Eval.makeChildFrame_agrees hEnv formals hArgs).bind ?_).but
    rintro frame _ ⟨rfl, hFrame⟩
    exact evalBody_agrees hRun hFrame hBody
  | false => exact fun m m' hm => .differ ⟨hFits, rfl, rfl⟩ hm (.refl m)

/-- They are run alike with corresponding arguments, but for what is said of arguments that do
not fit. -/
theorem applyHere_agreesBut {args args' : List Value} (hArgs : AllAlike c args args') :
    AgreesBut c (Value.Alike c) (formals.Misfit args.length misfit misfit')
      (applyHere misfit run env formals body args)
      (applyHere misfit' run' env formals body' args') := by
  refine (enterFrame_agreesBut hRun hEnv hBody formals misfit misfit' hArgs).bind ?_
  intro outcome outcome' hOutcome
  refine Eval.Agrees.but ?_
  cases hOutcome with
  | done h => exact .pure h
  | pending h hEnv => exact hRun _ _ (.eval h hEnv)

/-- They are run alike with the values of corresponding expressions, but for what is said of a
wrong number of them. -/
theorem applyEach_agreesBut {exprs exprs' : List Value} (hExprs : AllAlike c exprs exprs') :
    AgreesBut c (Value.Alike c) (formals.Misfit exprs.length misfit misfit')
      (evalEach run env exprs >>= applyHere misfit run env formals body)
      (evalEach run' env exprs' >>= applyHere misfit' run' env formals body') := by
  -- there are as many values as expressions, so it is known what misfits are reported
  have hValues := (evalEach_agrees hRun hEnv hExprs).and_of_value fun _ _ _ => evalEach_length
  refine hValues.but.bind ?_
  rintro args args' ⟨hArgs, hLength⟩
  rw [← hLength]
  exact applyHere_agreesBut hRun hEnv hBody formals misfit misfit' hArgs

end TwoRuns

/-! ## What is evaluated -/

section Equations
variable {forms : FormTable} {env : FrameId} {m : Machine} {formals : Formals}
  {params body operands : Value} {name : String}

/-- A `let` evaluates the initialisers where it stands, one after the other, and binds the
names in a new frame to their values. -/
theorem evaluate_let (hForms : forms.IsComplete) {bindings : Value}
    {pairs : List (String × Value)} (hList : bindings.isList)
    (hEach : bindings.items.map Value.namedExpression? = pairs.map some)
    (hFormals : Formals.ofNames (pairs.map Prod.fst) = .ok formals) (hBody : body.isBody)
    (fuel : Nat) (s t : Stamp) :
    evaluate forms (fuel + 1) (Form.binding.use s (.pair t bindings body)) env =
      (evalEach (runTask forms fuel) env (pairs.map Prod.snd) >>=
        applyHere (.wrongCount formals) (runTask forms fuel) env formals body) := by
  have hOperands : (Value.pair t bindings body).isList := (Value.items_of_isBody hBody).1
  rw [evaluate, runTask_succ, Task.step, step_use hForms .binding hOperands, Form.eval,
    evalLet_eq_enterFrame hList hEach hFormals hBody, bind_assoc]
  rfl

/-- A `lambda` with a parameter list and a body is a procedure that keeps the frame at hand. -/
theorem evaluate_lambda (hForms : forms.IsComplete) (hParams : Formals.parse params = .ok formals)
    (hBody : body.isBody) (fuel : Nat) (s t : Stamp) :
    evaluate forms (fuel + 1) (Form.lambda.use s (.pair t params body)) env =
      Eval.makeProcedure (.lambda env) formals body := by
  have hOperands : (Value.pair t params body).isList := (Value.items_of_isBody hBody).1
  rw [evaluate, runTask_succ, Task.step, step_use hForms .lambda hOperands, Form.eval,
    Direct.finished_complete]
  simp only [evalProcedure, checkOperands_of_isBody hBody, parseFormals, hParams]
  rfl

/-- The call of a `lambda` where it is written first makes the procedure. -/
theorem evaluate_lambda_call (hForms : forms.IsComplete)
    (hParams : Formals.parse params = .ok formals) (hBody : body.isBody)
    (hList : operands.isList) (fuel : Nat) (s t u : Stamp) :
    evaluate forms (fuel + 2) (.pair s (Form.lambda.use t (.pair u params body)) operands) env m =
      (evalEach (runTask forms (fuel + 1)) env operands.items >>=
        applyHere (.wrongArguments (Value.compound m.nextStamp (.lambda env) formals body).text
          formals.arity) (runTask forms (fuel + 1)) env formals body)
        { m with nextStamp := m.nextStamp + 1 } := by
  have hHead : ∀ name, Form.lambda.use t (.pair u params body) ≠ .symbol name := nofun
  rw [evaluate, runTask_succ, Task.step, step_application hHead hList]
  -- the operator is the `lambda`, which takes the next stamp for its value
  rw [← evaluate, evaluate_lambda hForms hParams hBody, bind_assoc]
  simp only [bind_assoc]
  rfl

/-- A combination that begins with the name of a procedure is a call of it, or a use of it if
it is a transformer. -/
theorem evaluate_named {operator : Value} (hName : forms.lookup name = none)
    (hFound : m.get? env name = some operator) (hList : operands.isList) (fuel : Nat) (s : Stamp) :
    evaluate forms (fuel + 1) (.pair s (.symbol name) operands) env m =
      (if operator.isTransformer then
        (runTask forms fuel (.call operator operands.items env) >>= fun expansion =>
          evaluate forms fuel expansion env) m
      else
        (evalEach (runTask forms fuel) env operands.items >>= fun args =>
          call (runTask forms fuel) operator args env >>= complete (runTask forms fuel)) m) := by
  have hLookup : ∀ f : Value → Eval Value, (Eval.lookup env name >>= f) m = f operator m := by
    intro f
    simp only [Bind.bind, Eval.bind, Eval.lookup, hFound]
  rw [evaluate, runTask_succ, Task.step, step_named hName hList, bind_assoc, hLookup]
  cases operator.isTransformer with
  | true =>
    exact congrFun (bind_assoc (runTask forms fuel (.call operator operands.items env)) _ _) m
  | false => exact congrFun (bind_assoc (evalEach (runTask forms fuel) env operands.items) _ _) m

/-- The body of a `mu` runs below the frame of the call. -/
theorem evaluate_mu_call {p : Stamp} (hName : forms.lookup name = none)
    (hFound : m.get? env name = some (.compound p .mu formals body)) (hList : operands.isList)
    (fuel : Nat) (s : Stamp) :
    evaluate forms (fuel + 1) (.pair s (.symbol name) operands) env m =
      (evalEach (runTask forms fuel) env operands.items >>=
        applyHere (.wrongArguments (Value.compound p .mu formals body).text formals.arity)
          (runTask forms fuel) env formals body) m :=
  evaluate_named hName hFound hList fuel s

/-- So does that of a transformer, and its value is evaluated. -/
theorem evaluate_transformer_use {p : Stamp} (hName : forms.lookup name = none)
    (hFound : m.get? env name = some (.compound p .transformer formals body))
    (hList : operands.isList) (fuel : Nat) (s : Stamp) :
    evaluate forms (fuel + 2) (.pair s (.symbol name) operands) env m =
      (applyHere (.wrongArguments (Value.compound p .transformer formals body).text formals.arity)
          (runTask forms fuel) env formals body operands.items >>= fun expansion =>
        evaluate forms (fuel + 1) expansion env) m := by
  have hCall : runTask forms (fuel + 1)
      (.call (.compound p .transformer formals body) operands.items env) =
      applyHere (.wrongArguments (Value.compound p .transformer formals body).text formals.arity)
        (runTask forms fuel) env formals body operands.items :=
    runTask_succ forms fuel _
  rw [← hCall]
  exact evaluate_named hName hFound hList (fuel + 1) s

/-- The built-in `eval` evaluates the value of its argument where it is called. -/
theorem evaluate_eval_call {b : Stamp} {expr : Value} (hName : forms.lookup "eval" = none)
    (hFound : m.get? env "eval" = some (.builtin b ⟨"eval", .exactly 2, true, .evaluate⟩))
    (fuel : Nat) (s t : Stamp) :
    evaluate forms (fuel + 1) (.pair s (.symbol "eval") (.pair t expr .nil)) env m =
      (evaluate forms fuel expr env >>= fun v => evaluate forms fuel v env) m := by
  -- it takes one argument besides the frame of the caller
  have hCall : ∀ v, call (runTask forms fuel) (.builtin b ⟨"eval", .exactly 2, true, .evaluate⟩) [v]
      env >>= complete (runTask forms fuel) = evaluate forms fuel v env :=
    fun v => Direct.finished_complete _
  have hEach : (evalEach (runTask forms fuel) env [expr] >>= fun args =>
      call (runTask forms fuel) (.builtin b ⟨"eval", .exactly 2, true, .evaluate⟩) args env >>=
        complete (runTask forms fuel)) =
      (evaluate forms fuel expr env >>= fun v => evaluate forms fuel v env) :=
    (bind_assoc (evaluate forms fuel expr env) (fun v => pure [v]) _).trans (bind_congr hCall)
  exact (evaluate_named hName hFound rfl fuel s).trans (congrFun hEach m)

end Equations

/-! ## Quoted operands -/

/-- The expression is a quotation of the value. -/
def Value.Quotes (expr v : Value) : Prop :=
  ∃ s t, expr = Form.quote.use s (.pair t v .nil)

section Quotes
variable {forms : FormTable} (hForms : forms.IsComplete) {env : FrameId}
include hForms

/-- A quoted value is that value, on any machine. -/
theorem evaluate_quote {expr v : Value} (h : expr.Quotes v) (fuel : Nat) :
    evaluate forms (fuel + 1) expr env = pure v := by
  obtain ⟨s, t, rfl⟩ := h
  rw [evaluate, runTask_succ, Task.step, step_use hForms .quote rfl, Form.eval,
    Direct.finished_complete]
  rfl

/-- Expressions that quote values have these values. -/
theorem evalEach_quotes {exprs vs : List Value} (h : List.Forall₂ Value.Quotes exprs vs)
    (fuel : Nat) : evalEach (runTask forms (fuel + 1)) env exprs = pure vs := by
  -- The induction needs whatever values have been found before.
  suffices hOnto : ∀ before, evalEachOnto (runTask forms (fuel + 1)) env before exprs =
      pure (before.reverse ++ vs) from hOnto []
  induction h with
  | nil => exact fun before => congrArg pure (List.append_nil _).symm
  | @cons expr v exprs vs hQuote hQuotes ih =>
    intro before
    have hFirst : runTask forms (fuel + 1) (.eval expr env) = pure v :=
      evaluate_quote hForms hQuote fuel
    rw [evalEachOnto, hFirst, pure_bind, ih, List.reverse_cons, List.append_assoc,
      List.singleton_append]

end Quotes

/-! ## The same with a procedure -/

section WrittenOut
variable (forms : FormTable) {w : World} {m : Machine} (hm : m.In w) {body : Value}
  (hBody : body.In w) (env : FrameId) (formals : Formals) (misfit misfit' : Nat → EvalError)
include hm hBody

/-- A procedure that has been made makes no difference to the body. -/
theorem applyHere_ahead {args : List Value} (hArgs : AllIn w args) (fuel : Nat) :
    AgreesBut (.ahead m.nextStamp 1) (Value.Alike (.ahead m.nextStamp 1))
      (formals.Misfit args.length misfit misfit')
      (applyHere misfit (runTask forms fuel) env formals body args)
      (applyHere misfit' (runTask forms fuel) env formals body args) :=
  applyHere_agreesBut (fun _ _ h => runTask_agrees forms fuel h) trivial
    (hBody.alike_ahead hm.free 1) formals misfit misfit' (hArgs.alike_ahead hm.free 1)

/-- Nor to the operands. -/
theorem applyEach_ahead {exprs : List Value} (hExprs : AllIn w exprs) (fuel : Nat) :
    AgreesBut (.ahead m.nextStamp 1) (Value.Alike (.ahead m.nextStamp 1))
      (formals.Misfit exprs.length misfit misfit')
      (evalEach (runTask forms fuel) env exprs >>=
        applyHere misfit (runTask forms fuel) env formals body)
      (evalEach (runTask forms fuel) env exprs >>=
        applyHere misfit' (runTask forms fuel) env formals body) :=
  applyEach_agreesBut (fun _ _ h => runTask_agrees forms fuel h) trivial
    (hBody.alike_ahead hm.free 1) formals misfit misfit' (hExprs.alike_ahead hm.free 1)

end WrittenOut

/-- **A `let` is the call of a `lambda`.** Where the values have their places in a world, a `let`
of different names evaluates its initialisers where it stands, once each and in order, and then
runs its body in a new frame. It has the end that the call of a `lambda` with these parameters
and this body has on the initialisers, which is ahead by the stamp of the procedure. Only
if the marker of optional parameters is among the names do the values not fit, and then
each of the two says so in its own words. -/
theorem let_is_application (forms : FormTable) (hForms : forms.IsComplete) {w : World}
    {m : Machine} (hm : m.In w) (env : FrameId) {pairs : List (String × Value)}
    (hNodup : (pairs.map Prod.fst).Nodup) (hExprs : AllIn w (pairs.map Prod.snd))
    {bindings params operands body : Value} (hBindings : bindings.isList)
    (hEach : bindings.items.map Value.namedExpression? = pairs.map some)
    (hParams : params.Symbols (pairs.map Prod.fst) none) (hOperands : operands.isList)
    (hItems : operands.items = pairs.map Prod.snd) (hBody : body.isBody) (hBodyIn : body.In w)
    (s t s' t' u : Stamp) :
    ∃ formals, Formals.ofNames (pairs.map Prod.fst) = .ok formals ∧
      (formals.arity.accepts pairs.length ↔ Formals.optionalMarker ∉ pairs.map Prod.fst) ∧
      ∀ fuel,
        evaluate forms (fuel + 1) (Form.binding.use s (.pair t bindings body)) env =
          (evalEach (runTask forms fuel) env (pairs.map Prod.snd) >>=
            applyHere (.wrongCount formals) (runTask forms fuel) env formals body) ∧
        (evaluate forms (fuel + 2) (Form.binding.use s (.pair t bindings body)) env m).AgreesBut
          (.ahead m.nextStamp 1) (Value.Alike (.ahead m.nextStamp 1))
          (formals.Misfit pairs.length (.wrongCount formals)
            (.wrongArguments (Value.compound m.nextStamp (.lambda env) formals body).text
              formals.arity)) m
          (evaluate forms (fuel + 2)
            (.pair s' (Form.lambda.use t' (.pair u params body)) operands) env m) := by
  obtain ⟨formals, hFormals, hAccepts⟩ := Formals.ofNames_of_nodup hNodup
  rw [List.length_map] at hAccepts
  -- the same names in a list of parameters declare the same formals
  have hParse : Formals.parse params = .ok formals := by
    have hDeclare : Formals.empty.declareAll false (pairs.map Prod.fst) = .ok formals := hFormals
    rw [Formals.parse, Formals.parseOnto_of_symbols hParams, hDeclare]
    rfl
  refine ⟨formals, hFormals, hAccepts, fun fuel => ⟨?_, ?_⟩⟩
  · exact evaluate_let hForms hBindings hEach hFormals hBody fuel s t
  · rw [evaluate_let hForms hBindings hEach hFormals hBody,
      evaluate_lambda_call hForms hParse hBody hOperands, hItems]
    have hBoth := applyEach_ahead forms hm hBodyIn env formals (.wrongCount formals)
      (.wrongArguments (Value.compound m.nextStamp (.lambda env) formals body).text formals.arity)
      hExprs (fuel + 1) m _ (hm.matches_ahead 1)
    rwa [List.length_map] at hBoth

/-- `(let ((x 1)) x)` and `((lambda (x) x) 1)`. -/
theorem let_is_application_one :
    let start := Machine.populated.chain [.symbol "x"] .nil
    let body := start.1
    let m := start.2
    let operands : Value := .pair 0 (.number 1) .nil
    let binding : Value := .pair 1 (.symbol "x") operands
    let expr := Form.binding.use 2 (.pair 3 (.pair 4 binding .nil) body)
    let params : Value := .pair 5 (.symbol "x") .nil
    let call : Value := .pair 6 (Form.lambda.use 7 (.pair 8 params body)) operands
    let formals : Formals := ⟨["x"], [], none⟩
    (∃ w, m.In w ∧ body.In w) ∧
      (evaluate .standard 3 expr 0 m).AgreesBut (.ahead m.nextStamp 1)
        (Value.Alike (.ahead m.nextStamp 1))
        (formals.Misfit 1 (.wrongCount formals)
          (.wrongArguments (Value.compound m.nextStamp (.lambda 0) formals body).text
            formals.arity)) m
        (evaluate .standard 3 call 0 m) ∧
      (∃ n, evaluate .standard 3 expr 0 m = .value (.number 1) n) ∧
      ∃ n, evaluate .standard 3 call 0 m = .value (.number 1) n := by
  intro start body m operands binding expr params call formals
  obtain ⟨w₀, hNames, hPopulated⟩ := Machine.populated_in_world (fun _ => True) fun _ _ => trivial
  have hSymbols : AllIn w₀ [.symbol "x"] :=
    List.forall_mem_singleton.mpr (.atom (hNames ▸ trivial : w₀.names "x"))
  have hNil : Value.nil.In w₀ := .atom trivial
  obtain ⟨w, -, hm, hBody⟩ := hPopulated.exists_chain hSymbols hNil
  -- both runs are short enough to be computed
  refine ⟨⟨w, hm, hBody⟩, ?_, ⟨_, rfl⟩, ⟨_, rfl⟩⟩
  let pairs : List (String × Value) := [("x", .number 1)]
  have hNodup : (pairs.map Prod.fst).Nodup := List.nodup_singleton "x"
  have hExprs : AllIn w (pairs.map Prod.snd) := List.forall_mem_singleton.mpr (.atom trivial)
  have hEach : (Value.pair 4 binding .nil).items.map Value.namedExpression? = pairs.map some := rfl
  have hParams : params.Symbols (pairs.map Prod.fst) none := .cons .nil
  have hItems : operands.items = pairs.map Prod.snd := rfl
  obtain ⟨found, hFormals, -, hBoth⟩ := let_is_application .standard FormTable.standard_isComplete
    hm 0 hNodup hExprs rfl hEach hParams rfl hItems rfl hBody 2 3 6 7 8
  cases hFormals
  exact (hBoth 1).2

/-- **Procedures written out.** A call of a `mu` has the end that the call of a `lambda` with its
parameters and its body has, written where the call stands. The use of a transformer has the end of
evaluating what the call of such a `lambda` on the quoted operands returns. In both
cases the run with the `lambda` is ahead by the stamp of the procedure, and if the arguments do
not fit the parameters, the two errors name different procedures. -/
theorem dynamic_procedures_written_out (forms : FormTable) (hForms : forms.IsComplete) {w : World}
    {m : Machine} (hm : m.In w) (env : FrameId) {name : String} (hName : forms.lookup name = none)
    {formals : Formals} {params body operands : Value}
    (hParams : Formals.parse params = .ok formals) (hBody : body.isBody) (hList : operands.isList)
    (hOperands : operands.In w) (p s s' t u : Stamp) :
    (m.get? env name = some (.compound p .mu formals body) → ∀ fuel,
      (evaluate forms (fuel + 2) (.pair s (.symbol name) operands) env m).AgreesBut
        (.ahead m.nextStamp 1) (Value.Alike (.ahead m.nextStamp 1))
        (formals.Misfit operands.items.length
          (.wrongArguments (Value.compound p .mu formals body).text formals.arity)
          (.wrongArguments (Value.compound m.nextStamp (.lambda env) formals body).text
            formals.arity)) m
        (evaluate forms (fuel + 2)
          (.pair s' (Form.lambda.use t (.pair u params body)) operands) env m)) ∧
    (m.get? env name = some (.compound p .transformer formals body) →
      forms.lookup "eval" = none →
      ∀ b, m.get? env "eval" = some (.builtin b ⟨"eval", .exactly 2, true, .evaluate⟩) →
      ∀ quotes : Value, quotes.isList → List.Forall₂ Value.Quotes quotes.items operands.items →
      ∀ s'' t'' fuel,
        (evaluate forms (fuel + 3) (.pair s (.symbol name) operands) env m).AgreesBut
          (.ahead m.nextStamp 1) (Value.Alike (.ahead m.nextStamp 1))
          (formals.Misfit operands.items.length
            (.wrongArguments (Value.compound p .transformer formals body).text formals.arity)
            (.wrongArguments (Value.compound m.nextStamp (.lambda env) formals body).text
              formals.arity)) m
          (evaluate forms (fuel + 3)
            (.pair s'' (.symbol "eval") (.pair t''
              (.pair s' (Form.lambda.use t (.pair u params body)) quotes) .nil)) env m)) := by
  -- the body of what is bound has its place in the world
  have hBodyIn : ∀ kind, m.get? env name = some (.compound p kind formals body) → body.In w := by
    intro kind hFound
    cases hm.get? hFound with
    | compound hHolder hNames hBody => exact hBody
  constructor
  · intro hFound fuel
    rw [evaluate_mu_call hName hFound hList,
      evaluate_lambda_call hForms hParams hBody hList]
    exact applyEach_ahead forms hm (hBodyIn _ hFound) env formals _ _ hOperands.items (fuel + 1)
      m _ (hm.matches_ahead 1)
  · intro hFound hEval b hBuiltin quotes hQuotes hEach s'' t'' fuel
    have hCall : evaluate forms (fuel + 2)
        (.pair s' (Form.lambda.use t (.pair u params body)) quotes) env m = _ :=
      evaluate_lambda_call hForms hParams hBody hQuotes fuel s' t u
    rw [evalEach_quotes hForms hEach, pure_bind] at hCall
    rw [evaluate_transformer_use hName hFound hList, evaluate_eval_call hEval hBuiltin]
    -- the body has the operands for its arguments in both runs, since they were quoted
    have hArgs := applyHere_ahead forms hm (hBodyIn _ hFound) env formals
      (.wrongArguments (Value.compound p .transformer formals body).text formals.arity)
      (.wrongArguments (Value.compound m.nextStamp (.lambda env) formals body).text formals.arity)
      hOperands.items (fuel + 1)
    -- and the expansions, being alike, are evaluated to the same end
    have hAfter : ∀ v v' : Value, v.Alike (.ahead m.nextStamp 1) v' →
        Eval.Agrees (.ahead m.nextStamp 1) (Value.Alike (.ahead m.nextStamp 1))
          (evaluate forms (fuel + 2) v env) (evaluate forms (fuel + 2) v' env) :=
      fun v v' h => runTask_agrees forms (fuel + 2) (.eval h trivial)
    have hBoth := hArgs.bind (fun v v' h => (hAfter v v' h).but) m _ (hm.matches_ahead 1)
    simp only [Bind.bind, Eval.bind] at hBoth ⊢
    rw [hCall]
    exact hBoth

/-- `(p 7)` with `p` bound to `(mu (x) x)`, and `(m 7)` with `m` bound to a transformer like it. -/
theorem dynamic_procedures_written_out_unary :
    let start := Machine.populated.chain [.symbol "x"] .nil
    let body := start.1
    let formals : Formals := ⟨["x"], [], none⟩
    let p := start.2.nextStamp
    let named : Machine :=
      Machine.define { start.2 with nextStamp := p + 1 } 0 "p" (.compound p .mu formals body)
    let named : Machine := Machine.define { named with nextStamp := p + 2 } 0 "m"
      (.compound (p + 1) .transformer formals body)
    let operands := (named.chain [.number 7] .nil).1
    let m := (named.chain [.number 7] .nil).2
    let lambda := Form.lambda.use 0 (.pair 1 (.pair 2 (.symbol "x") .nil) body)
    let quotes : Value := .pair 3 (Form.quote.use 4 (.pair 5 (.number 7) .nil)) .nil
    let other : Nat → EvalError :=
      .wrongArguments (Value.compound m.nextStamp (.lambda 0) formals body).text formals.arity
    (∃ w, m.In w ∧ operands.In w) ∧
      (evaluate .standard 3 (.pair 6 (.symbol "p") operands) 0 m).AgreesBut
        (.ahead m.nextStamp 1) (Value.Alike (.ahead m.nextStamp 1))
        (formals.Misfit 1
          (.wrongArguments (Value.compound p .mu formals body).text formals.arity) other) m
        (evaluate .standard 3 (.pair 7 lambda operands) 0 m) ∧
      (evaluate .standard 4 (.pair 6 (.symbol "m") operands) 0 m).AgreesBut
        (.ahead m.nextStamp 1) (Value.Alike (.ahead m.nextStamp 1))
        (formals.Misfit 1
          (.wrongArguments (Value.compound (p + 1) .transformer formals body).text formals.arity)
          other) m
        (evaluate .standard 4
          (.pair 8 (.symbol "eval") (.pair 9 (.pair 7 lambda quotes) .nil)) 0 m) ∧
      (∃ n, evaluate .standard 3 (.pair 6 (.symbol "p") operands) 0 m = .value (.number 7) n) ∧
      ∃ n, evaluate .standard 4 (.pair 6 (.symbol "m") operands) 0 m = .value (.number 7) n := by
  intro start body formals p bound named operands m lambda quotes other
  obtain ⟨w₀, hNames, hPopulated⟩ := Machine.populated_in_world (fun _ => True) fun _ _ => trivial
  have hAll : ∀ name, w₀.names name := fun name => hNames ▸ trivial
  have hNil : ∀ w : World, Value.nil.In w := fun w => .atom trivial
  -- the body is made, then the two procedures, and then the operands
  have hSymbols : AllIn w₀ [.symbol "x"] := List.forall_mem_singleton.mpr (.atom (hAll "x"))
  obtain ⟨w₁, hLe₁, hStart, hBody⟩ := hPopulated.exists_chain hSymbols (hNil w₀)
  obtain ⟨w₂, hLe₂, hMade, hMu⟩ :=
    hStart.exists_compound .mu (fun name _ => hLe₁.name (hAll name)) hBody
  have hBound : bound.In w₂ := hMade.define 0 ((hLe₁.trans hLe₂).name (hAll "p")) hMu
  obtain ⟨w₃, hLe₃, hMade', hTransformer⟩ := hBound.exists_compound .transformer
    (fun name _ => (hLe₁.trans hLe₂).name (hAll name)) (hBody.mono hLe₂)
  have hNamed : named.In w₃ :=
    hMade'.define 0 (((hLe₁.trans hLe₂).trans hLe₃).name (hAll "m")) hTransformer
  have hNumbers : AllIn w₃ [.number 7] := List.forall_mem_singleton.mpr (.atom trivial)
  obtain ⟨w, -, hm, hOperands⟩ := hNamed.exists_chain hNumbers (hNil w₃)
  refine ⟨⟨w, hm, hOperands⟩, ?_, ?_, ⟨_, rfl⟩, ⟨_, rfl⟩⟩
  · exact (dynamic_procedures_written_out .standard FormTable.standard_isComplete hm 0 rfl rfl rfl
      rfl hOperands p 6 7 0 1).1 rfl 1
  · have hQuotes : List.Forall₂ Value.Quotes quotes.items operands.items :=
      .cons ⟨4, 5, rfl⟩ .nil
    exact (dynamic_procedures_written_out .standard FormTable.standard_isComplete hm 0 rfl rfl rfl
      rfl hOperands (p + 1) 6 7 0 1).2 rfl rfl _ rfl quotes rfl hQuotes 8 9 1

end MiniScheme
