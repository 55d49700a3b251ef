import MiniScheme.Proofs.Eval.Application
import MiniScheme.Proofs.Procedure.Binding

/-!
# Evaluation by the program itself

The built-in `eval` evaluates where it is called, and the built-in `apply` calls from the frame
that it is called from. So `(eval (quote e))` is `e`, and `(apply f (list e1 ... en))` is
`(f e1 ... en)`, also where `f` is a `mu` or takes the frame of its caller. The operands are
evaluated in the same order and on the same machine. All that is left of the list of arguments are
the stamps of its pairs.

* `Machine.Installed` — a name that stands for the built-in procedure of that name;
* `evaluate_builtin` — a call of a built-in procedure by its name;
* `applyAfter` — operands and a call after them, with so many stamps given out in between;
* `evaluate_call`, `evaluate_apply_list` — both calls, in terms of this;
* `applyAfter_agrees` — the stamps make no difference;
* `reflection_is_evaluation` — both built-in procedures.
-/

namespace MiniScheme

open Value (AllIn AllAlike)

/-! ## Built-in procedures under their names -/

/-- The name stands for the built-in procedure of that name. -/
def Machine.Installed (m : Machine) (env : FrameId) (name : String) : Prop :=
  ∃ p, ∃ b ∈ Builtin.standard, b.name = name ∧ m.get? env name = some (.builtin p b)

/-- There is one procedure of each name in the table. -/
theorem Builtin.eq_of_name {b b' : Builtin} (hb : b ∈ standard) (hb' : b' ∈ standard)
    (h : b.name = b'.name) : b = b' := by
  have hNodup : (standard.map Builtin.name).Nodup := by decide +kernel
  exact List.inj_on_of_nodup_map hNodup hb hb' h

/-- An installed name is bound to its built-in procedure. -/
theorem Machine.Installed.get? {m : Machine} {env : FrameId} {b : Builtin}
    (h : m.Installed env b.name) (hb : b ∈ Builtin.standard) :
    ∃ p, m.get? env b.name = some (.builtin p b) := by
  obtain ⟨p, b', hb', hName, hFound⟩ := h
  exact ⟨p, Builtin.eq_of_name hb' hb hName ▸ hFound⟩

section Equations
variable {forms : FormTable} {env : FrameId} {m : Machine} {name : String} {operands : Value}

/-- A call of a built-in procedure by its name. -/
theorem evaluate_builtin {b : Builtin} (hb : b ∈ Builtin.standard)
    (hName : forms.lookup b.name = none) (hFound : m.Installed env b.name)
    (hList : operands.isList) (fuel : Nat) (s : Stamp) :
    evaluate forms (fuel + 1) (.pair s (.symbol b.name) operands) env m =
      (evalEach (runTask forms fuel) env operands.items >>= fun args =>
        callBuiltin (runTask forms fuel) b args env) m := by
  obtain ⟨p, hValue⟩ := hFound.get? hb
  have hCall : ∀ args, call (runTask forms fuel) (.builtin p b) args env >>=
      complete (runTask forms fuel) = callBuiltin (runTask forms fuel) b args env :=
    fun args => Direct.finished_complete _
  rw [evaluate_named hName hValue hList]
  exact congrFun (bind_congr hCall) m

/-- A bound symbol has the value bound to it. -/
theorem evaluate_symbol {v : Value} (hFound : m.get? env name = some v) (fuel : Nat) :
    evaluate forms (fuel + 1) (.symbol name) env m = .value v m := by
  have hAtom : evaluate forms (fuel + 1) (.symbol name) env = Eval.lookup env name :=
    (runTask_succ forms fuel _).trans (Direct.finished_complete _)
  rw [hAtom, Eval.lookup, hFound]

end Equations

/-! ## Calls -/

/-- Gives out some stamps for nothing that is kept. -/
def Eval.skipStamps (count : Nat) : Eval Unit := fun m =>
  .value () { m with nextStamp := m.nextStamp + count }

namespace Eval

variable {α β : Type} {x y : Eval α} {a : α} {m n : Machine}

/-- What comes after a computation that has a value. -/
theorem bind_at (h : x m = .value a n) (f : α → Eval β) : (x >>= f) m = f a n := by
  simp only [Bind.bind, Eval.bind, h]

/-- What comes after two computations that have the same answer. -/
theorem bind_congr_at (h : x m = y m) (f : α → Eval β) : (x >>= f) m = (y >>= f) m := by
  simp only [Bind.bind, Eval.bind, h]

end Eval

/-- Two operands, one after the other. -/
theorem evalEach_two_bind {α : Type} (run : Runner) (env : FrameId) (first second : Value)
    (f : List Value → Eval α) :
    evalEach run env [first, second] >>= f =
      (run (.eval first env) >>= fun v => run (.eval second env) >>= fun w => f [v, w]) := by
  simp only [evalEach, evalEachOnto, bind_assoc, pure_bind]
  rfl

/-- A list that has just been made has its items in it. -/
theorem callBuiltin_apply_list (forms : FormTable) (fuel : Nat) (env : FrameId) (operator : Value)
    (args : List Value) :
    (Eval.makeList args >>= fun list =>
      callBuiltin (runTask forms fuel) ⟨"apply", .exactly 3, true, .apply⟩ [operator, list] env) =
      (Eval.skipStamps args.length >>= fun _ => runTask forms fuel (.call operator args env)) := by
  have hCall : ∀ list : Value, list.toList? = some args →
      callBuiltin (runTask forms fuel) ⟨"apply", .exactly 3, true, .apply⟩ [operator, list] env =
        runTask forms fuel (.call operator args env) := by
    intro list hList
    have hFits : Arity.accepts (.exactly 3) [operator, list, .environment env].length := rfl
    rw [callBuiltin, Builtin.allArguments, if_pos rfl]
    refine (if_pos hFits).trans ?_
    simp only [List.cons_append, List.nil_append, Operation.perform, hList]
  funext m
  have hList : (Value.chain m.nextStamp args .nil).toList? = some args := by
    rw [toList?_of_isList (Value.isList_chain m.nextStamp args), Value.items_chain]
  exact congrFun (hCall _ hList) { m with nextStamp := m.nextStamp + args.length }

section Calls
variable {forms : FormTable} {env : FrameId} {m : Machine} {name : String}
  {operator operands : Value}

/-- A call of a procedure by its name. -/
theorem evaluate_call (hName : forms.lookup name = none)
    (hFound : m.get? env name = some operator) (hPlain : operator.isTransformer = false)
    (hList : operands.isList) (fuel : Nat) (s : Stamp) :
    evaluate forms (fuel + 1) (.pair s (.symbol name) operands) env m =
      (evalEach (runTask forms fuel) env operands.items >>= fun args =>
        runTask forms (fuel + 1) (.call operator args env)) m := by
  have hCall : ∀ args, runTask forms (fuel + 1) (.call operator args env) =
      (call (runTask forms fuel) operator args env >>= complete (runTask forms fuel)) :=
    fun args => runTask_succ forms fuel _
  rw [evaluate_named hName hFound hList, hPlain, if_neg Bool.false_ne_true]
  exact congrFun (bind_congr fun args => (hCall args).symm) m

/-- The same call through `apply`, with a list made of the operands. -/
theorem evaluate_apply_list (hApply : forms.lookup "apply" = none)
    (hList : forms.lookup "list" = none) (hApplyFound : m.Installed env "apply")
    (hListFound : m.Installed env "list") (hFound : m.get? env name = some operator)
    (hOperands : operands.isList) (fuel : Nat) (s t t' u : Stamp) :
    evaluate forms (fuel + 2) (.pair s (.symbol "apply") (.pair t (.symbol name)
        (.pair t' (.pair u (.symbol "list") operands) .nil))) env m =
      (evalEach (runTask forms fuel) env operands.items >>= fun args =>
        Eval.skipStamps args.length >>= fun _ =>
          runTask forms (fuel + 1) (.call operator args env)) m := by
  have hFirst : evaluate forms (fuel + 1) (.symbol name) env m = .value operator m :=
    evaluate_symbol hFound fuel
  have hSecond : evaluate forms (fuel + 1) (.pair u (.symbol "list") operands) env m =
      (evalEach (runTask forms fuel) env operands.items >>= Eval.makeList) m :=
    evaluate_builtin (b := .plain "list" (.atLeast 0) .list) (by decide +kernel) hList hListFound
      hOperands fuel u
  let finish : Value → Value → Eval Value := fun v list =>
    callBuiltin (runTask forms (fuel + 1)) ⟨"apply", .exactly 3, true, .apply⟩ [v, list] env
  -- The operator is looked up, the list is made, and then the call takes its items again.
  calc evaluate forms (fuel + 2) (.pair s (.symbol "apply") (.pair t (.symbol name)
        (.pair t' (.pair u (.symbol "list") operands) .nil))) env m
      = (evaluate forms (fuel + 1) (.symbol name) env >>= fun v =>
          evaluate forms (fuel + 1) (.pair u (.symbol "list") operands) env >>= finish v) m := by
        refine (evaluate_builtin (b := ⟨"apply", .exactly 3, true, .apply⟩) (by decide +kernel)
          hApply hApplyFound rfl (fuel + 1) s).trans ?_
        exact congrFun (evalEach_two_bind (runTask forms (fuel + 1)) env _ _ _) m
    _ = (evaluate forms (fuel + 1) (.pair u (.symbol "list") operands) env >>= finish operator) m :=
        Eval.bind_at hFirst _
    _ = ((evalEach (runTask forms fuel) env operands.items >>= Eval.makeList) >>=
          finish operator) m :=
        Eval.bind_congr_at hSecond _
    _ = _ := by
        rw [bind_assoc]
        exact congrFun (bind_congr (callBuiltin_apply_list forms (fuel + 1) env operator)) m

end Calls

/-! ## The stamps of the list -/

section Ahead
variable {forms : FormTable} {w : World} {m : Machine} {operator : Value} {exprs : List Value}

/-- Everything is seen of a machine that is ahead. -/
theorem Answer.Agrees.of_ahead {α β : Type} {next count : Nat} {r : α → β → Prop} {a : Answer α}
    {b : Answer β} {n : Machine} (h : a.Agrees (.ahead next count) r n b) (m : Machine) :
    a.Agrees (.ahead next count) r m b := by
  cases h with
  | value hValue hMatches hKeeps => exact .value hValue hMatches fun _ h => absurd trivial h
  | failure e hMatches hKeeps => exact .failure e hMatches fun _ h => absurd trivial h
  | outOfFuel => exact .outOfFuel

/-- The stamps given out between the operands and the call make no difference. -/
theorem call_agrees_ahead (hm : m.In w) (hOperator : operator.In w) (hExprs : AllIn w exprs)
    (env : FrameId) (fuel fuel' : Nat) :
    ∃ next count, Answer.Agrees (.ahead next count) (Value.Alike (.ahead next count)) m
      ((evalEach (runTask forms fuel) env exprs >>= fun args =>
        runTask forms fuel' (.call operator args env)) m)
      ((evalEach (runTask forms fuel) env exprs >>= fun args =>
        Eval.skipStamps args.length >>= fun _ =>
          runTask forms fuel' (.call operator args env)) m) := by
  have hRun : ∀ w t, t.In w → Eval.StaysIn w Value.In (runTask forms fuel t) :=
    fun _ _ h => runTask_stays forms fuel h
  have hStays : (evalEach (runTask forms fuel) env exprs m).StaysIn w AllIn :=
    evalEach_stays hRun hExprs m hm
  simp only [Bind.bind, Eval.bind]
  generalize evalEach (runTask forms fuel) env exprs m = answer at hStays
  cases hStays with
  | @value args n w' hLe hIn hArgs =>
    have hTask : (Task.call operator args env).Alike (.ahead n.nextStamp args.length)
        (.call operator args env) :=
      .call ((hOperator.mono hLe).alike_ahead hIn.free _) (hArgs.alike_ahead hIn.free _) trivial
    exact ⟨n.nextStamp, args.length,
      (runTask_agrees forms fuel' hTask n _ (hIn.matches_ahead _)).of_ahead m⟩
  | @failure e n w' hLe hIn =>
    -- no list has been made
    exact ⟨n.nextStamp, 0, .failure e (hIn.matches_ahead 0) fun _ h => absurd trivial h⟩
  | outOfFuel => exact ⟨0, 0, .outOfFuel⟩

end Ahead

/-! ## Both built-in procedures -/

/-- **Reflection.** Where `eval`, `apply` and `list` stand for the built-in procedures, `eval` of a
quoted expression has the answer of the expression itself, on the same machine.

And `apply` of a name, which stands for anything but a transformer, to a list made of some operands
has the answer of the call that begins with the name: the same error, or values that are alike,
after the same output and with frames that are alike. If the operands have values, the run with
`apply` is ahead by the stamps of the list. -/
theorem reflection_is_evaluation (forms : FormTable) (hForms : forms.IsComplete)
    (hEval : forms.lookup "eval" = none) (hApply : forms.lookup "apply" = none)
    (hList : forms.lookup "list" = none) {w : World} {m : Machine} (hm : m.In w) (env : FrameId)
    (hEvalFound : m.Installed env "eval") (hApplyFound : m.Installed env "apply")
    (hListFound : m.Installed env "list") :
    (∀ expr quoted s t fuel, quoted.Quotes expr →
      evaluate forms (fuel + 2) (.pair s (.symbol "eval") (.pair t quoted .nil)) env m =
        evaluate forms (fuel + 1) expr env m) ∧
    ∀ name operator operands s s' t t' u fuel, forms.lookup name = none →
      m.get? env name = some operator → operator.isTransformer = false →
      operands.isList → operands.In w →
      ∃ next count, Answer.Agrees (.ahead next count) (Value.Alike (.ahead next count)) m
        (evaluate forms (fuel + 1) (.pair s (.symbol name) operands) env m)
        (evaluate forms (fuel + 2) (.pair s' (.symbol "apply") (.pair t (.symbol name)
          (.pair t' (.pair u (.symbol "list") operands) .nil))) env m) := by
  constructor
  · intro expr quoted s t fuel hQuotes
    obtain ⟨p, hFound⟩ :=
      hEvalFound.get? (b := ⟨"eval", .exactly 2, true, .evaluate⟩) (by decide +kernel)
    rw [evaluate_eval_call hEval hFound, evaluate_quote hForms hQuotes]
    rfl
  · intro name operator operands s s' t t' u fuel hName hFound hPlain hOperands hIn
    rw [evaluate_call hName hFound hPlain hOperands,
      evaluate_apply_list hApply hList hApplyFound hListFound hFound hOperands]
    -- What the list has taken are stamps, and nothing else.
    exact call_agrees_ahead hm (hm.get? hFound) hIn.items env fuel (fuel + 1)

/-- `(p 7)` with `p` bound to `(mu (x) y)`, in a frame where `y` is 8. -/
theorem reflection_is_evaluation_mu :
    let start := Machine.populated.chain [.symbol "y"] .nil
    let mu : Value := .compound start.2.nextStamp .mu ⟨["x"], [], none⟩ start.1
    let named : Machine :=
      Machine.define { start.2 with nextStamp := start.2.nextStamp + 1 } 0 "p" mu
    let inner := (named.addFrame ⟨some 0, [("y", .number 8)]⟩).2
    let operands := (inner.chain [.number 7] .nil).1
    let m := (inner.chain [.number 7] .nil).2
    let expr : Value := .pair 0 (.symbol "p") operands
    let viaEval : Value := .pair 1 (.symbol "eval")
      (.pair 2 (Form.quote.use 3 (.pair 4 expr .nil)) .nil)
    let viaApply : Value := .pair 5 (.symbol "apply") (.pair 6 (.symbol "p")
      (.pair 7 (.pair 8 (.symbol "list") operands) .nil))
    m.Installed 1 "eval" ∧ m.Installed 1 "apply" ∧ m.Installed 1 "list" ∧
      m.get? 1 "p" = some mu ∧
      evaluate .standard 4 viaEval 1 m = evaluate .standard 3 expr 1 m ∧
      (∃ next count, Answer.Agrees (.ahead next count) (Value.Alike (.ahead next count)) m
        (evaluate .standard 3 expr 1 m) (evaluate .standard 4 viaApply 1 m)) ∧
      ∃ n, evaluate .standard 4 viaApply 1 m = .value (.number 8) n := by
  intro start mu named inner operands m expr viaEval viaApply
  obtain ⟨w₀, hNames, hPopulated⟩ := Machine.populated_in_world (fun _ => True) fun _ _ => trivial
  have hAll : ∀ name, w₀.names name := fun name => hNames ▸ trivial
  have hNil : ∀ w : World, Value.nil.In w := fun w => .atom trivial
  -- the body is made, then the procedure, then the frame, and then the operands
  have hSymbols : AllIn w₀ [.symbol "y"] := List.forall_mem_singleton.mpr (.atom (hAll "y"))
  obtain ⟨w₁, hLe₁, hStart, hBody⟩ := hPopulated.exists_chain hSymbols (hNil w₀)
  obtain ⟨w₂, hLe₂, hMade, hMu⟩ :=
    hStart.exists_compound .mu (fun name _ => hLe₁.name (hAll name)) hBody
  have hNamed : named.In w₂ := hMade.define 0 ((hLe₁.trans hLe₂).name (hAll "p")) hMu
  have hBindings : Bindings.In w₂ [("y", .number 8)] := by
    intro name v hMem
    cases List.mem_singleton.mp hMem
    exact ⟨(hLe₁.trans hLe₂).name (hAll "y"), .atom trivial⟩
  have hInner : inner.In w₂ := hNamed.addFrame hBindings
  have hNumbers : AllIn w₂ [.number 7] := List.forall_mem_singleton.mpr (.atom trivial)
  obtain ⟨w, -, hm, hOperands⟩ := hInner.exists_chain hNumbers (hNil w₂)
  have hEval : m.Installed 1 "eval" :=
    ⟨_, ⟨"eval", .exactly 2, true, .evaluate⟩, by decide +kernel, rfl, rfl⟩
  have hApply : m.Installed 1 "apply" :=
    ⟨_, ⟨"apply", .exactly 3, true, .apply⟩, by decide +kernel, rfl, rfl⟩
  have hList : m.Installed 1 "list" :=
    ⟨_, .plain "list" (.atLeast 0) .list, by decide +kernel, rfl, rfl⟩
  obtain ⟨hQuoted, hCall⟩ :=
    reflection_is_evaluation .standard FormTable.standard_isComplete rfl rfl rfl hm 1 hEval hApply
      hList
  refine ⟨hEval, hApply, hList, rfl, hQuoted expr _ 1 2 2 ⟨3, 4, rfl⟩, ?_, ⟨_, rfl⟩⟩
  exact hCall "p" mu operands 0 5 6 7 8 2 rfl rfl rfl rfl hOperands

end MiniScheme
