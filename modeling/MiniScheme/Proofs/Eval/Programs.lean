import MiniScheme.Proofs.Eval.History

/-!
# What programs cannot do

Programs are read and evaluated one after the other, from a populated global frame
on. All that they can get hold of stays within the regime of programs, and so the
contracts that follow from that regime are kept: those that the evaluator relies on,
and those that say where there are no environments.

* `History` — what has been evaluated so far: the machine, and the values at hand;
* `History.obeys` — both are within the regime of programs;
* `contracts_kept` — bodies are not empty, the parameters of procedures have
  different names, no argument is missing that a built-in procedure looks at, and
  the level of a template is never zero;
* `environments_confined` — no value contains an environment; the one that `eval`
  and `apply` are given is their last argument and is used up at once.
-/

namespace MiniScheme

open Value (AllObey)

/-! ## Histories of programs -/

/-- The machine and the values at hand, after some programs have been evaluated from a
populated global frame. -/
inductive History : Machine → List Value → Prop
  | start : History .populated []
  /-- A program is read. -/
  | read {m : Machine} {vs : List Value} (h : History m vs) (d : Datum) :
      History (m.load d).2 ((m.load d).1 :: vs)
  /-- What is at hand is evaluated in some frame, and comes to a value. -/
  | evaluated {m n : Machine} {vs : List Value} (h : History m vs) {expr v : Value}
      (hExpr : expr ∈ vs) {env : FrameId} (hEnv : env < m.frames.size) {forms : FormTable}
      {fuel : Nat} (hEnd : evaluate forms fuel expr env m = .value v n) : History n (v :: vs)
  /-- Or it fails. -/
  | failed {m n : Machine} {vs : List Value} (h : History m vs) {expr : Value} (hExpr : expr ∈ vs)
      {env : FrameId} (hEnv : env < m.frames.size) {forms : FormTable} {fuel : Nat} {e : EvalError}
      (hEnd : evaluate forms fuel expr env m = .failure e n) : History n vs
  /-- A bound value is looked at. -/
  | found {m : Machine} {vs : List Value} (h : History m vs) {env : FrameId} {name : String}
      {v : Value} (hFound : m.get? env name = some v) : History m (v :: vs)
  /-- What has been displayed is taken. -/
  | taken {m : Machine} {vs : List Value} (h : History m vs) : History m.takeOutput.2 vs

namespace History

variable {m : Machine} {vs : List Value}

/-- Programs keep to their regime. -/
theorem obeys (h : History m vs) : m.Obeys .programs ∧ AllObey .programs m.frames.size vs := by
  have hFollow := Contracts.none_followFrom .programs
  -- One case for each thing that can happen; only evaluation takes more than one line.
  induction h with
  | start => exact ⟨Machine.populated_obeys fun b hMem => hMem, nofun⟩
  | @read m vs h d ih =>
    exact ⟨ih.1.of_frames_eq rfl, List.forall_mem_cons.mpr ⟨.ofDatum m.nextStamp d, ih.2⟩⟩
  | @evaluated m n vs h expr v hExpr env hEnv forms fuel hEnd ih =>
    have hTask := Task.Obeys.eval (ih.2 expr hExpr) hEnv
    have hKeeps := (runTask_obeys hFollow .negativeLevel forms fuel ih.1 hTask).2
    rw [evaluate] at hEnd
    rw [hEnd] at hKeeps
    cases hKeeps with
    | value hGrows hObeys hValue =>
      exact ⟨hObeys, List.forall_mem_cons.mpr ⟨hValue, ih.2.mono hGrows.size_le⟩⟩
  | @failed m n vs h expr hExpr env hEnv forms fuel e hEnd ih =>
    have hTask := Task.Obeys.eval (ih.2 expr hExpr) hEnv
    have hKeeps := (runTask_obeys hFollow .negativeLevel forms fuel ih.1 hTask).2
    rw [evaluate] at hEnd
    rw [hEnd] at hKeeps
    cases hKeeps with
    | failure hGrows hObeys hFailure => exact ⟨hObeys, ih.2.mono hGrows.size_le⟩
  | found h hFound ih => exact ⟨ih.1, List.forall_mem_cons.mpr ⟨ih.1.get? hFound, ih.2⟩⟩
  | taken h ih => exact ⟨ih.1.of_frames_eq rfl, ih.2⟩

/-- A contract that follows from the regime of programs is kept by all of them. -/
theorem evaluate_keeps (h : History m vs) {k : Contracts} (hk : k.FollowFrom .programs)
    {expr : Value} (hExpr : expr ∈ vs) {env : FrameId} (hEnv : env < m.frames.size)
    (alarm : EvalError) (forms : FormTable) (fuel : Nat) :
    Guarded.evaluate k alarm forms fuel expr env m = evaluate forms fuel expr env m ∧
      (evaluate forms fuel expr env m).Keeps .programs m (Value.Obeys .programs) := by
  obtain ⟨hMachine, hValues⟩ := h.obeys
  exact runTask_obeys hk alarm forms fuel hMachine (.eval (hValues expr hExpr) hEnv)

end History

/-! ## What the evaluator relies on -/

/-- What the parts of the evaluator rely on without looking at it again. -/
def Contracts.internal : Contracts where
  step _ _ := true
  value _ := true
  body body := body.isBody
  procedure formals body := decide formals.names.Nodup && body.isBody
  call _ := true
  builtin b args := decide (b.operation.reads ≤ args.length)
  level level := decide (1 ≤ level)

/-- What the evaluator relies on is so after any program: bodies have an expression, names differ,
built-in procedures get as many arguments as they look at, levels are positive. -/
theorem Contracts.internal_followFrom : Contracts.internal.FollowFrom .programs where
  step _ _ := rfl
  value _ := rfl
  body_of_list h := h
  body_of_procedure h := h.2
  procedure hNodup hBody _ := by
    rw [internal, Bool.and_eq_true]
    exact ⟨decide_eq_true hNodup, hBody⟩
  call _ := rfl
  builtin h _ hCount := decide_eq_true (Builtin.reads_le_of_standard h hCount)
  level h := decide_eq_true h

/-- **The contracts within the evaluator are kept.** Whatever has been evaluated
before, an evaluation that looks at every body, new procedure, list of arguments and
level that it hands on never has anything to object, and no failure comes from there. -/
theorem contracts_kept {m : Machine} {vs : List Value} (h : History m vs) {expr : Value}
    (hExpr : expr ∈ vs) {env : FrameId} (hEnv : env < m.frames.size) (forms : FormTable)
    (fuel : Nat) :
    (∀ alarm, Guarded.evaluate .internal alarm forms fuel expr env m =
      evaluate forms fuel expr env m) ∧
    ∀ e n, evaluate forms fuel expr env m = .failure e n → e.breaksContract = false := by
  constructor
  · intro alarm
    exact (h.evaluate_keeps Contracts.internal_followFrom hExpr hEnv alarm forms fuel).1
  · intro e n hEnd
    have hKeeps := (h.evaluate_keeps Contracts.internal_followFrom hExpr hEnv e forms fuel).2
    rw [hEnd] at hKeeps
    cases hKeeps with
    | failure hGrows hObeys hFailure => exact hFailure

/-- `((lambda (x) (list x)) #t)` is evaluated with nothing to object to: a procedure is
made and its body run, and a built-in procedure is called. -/
theorem contracts_kept_called :
    let procedure : Datum :=
      .ofList [.symbol "lambda", .ofList [.symbol "x"] .nil,
        .ofList [.symbol "list", .symbol "x"] .nil] .nil
    let d : Datum := .ofList [procedure, .atom (.boolean true)] .nil
    let expr := (Machine.populated.load d).1
    let m := (Machine.populated.load d).2
    (∃ s n, evaluate .standard 5 expr 0 m = .value (.pair s (.boolean true) .nil) n) ∧
      Guarded.evaluate .internal .negativeLevel .standard 5 expr 0 m =
        evaluate .standard 5 expr 0 m := by
  intro procedure d expr m
  have hHistory : History m [expr] := .read .start d
  refine ⟨⟨_, _, rfl⟩, ?_⟩
  exact (contracts_kept hHistory List.mem_cons_self (by decide) .standard 5).1 .negativeLevel

/-- Not so for a `car` that takes any number of arguments, which is not in the table. -/
example :
    let expr : Value := .pair 1 (.builtin 0 (.plain "car" (.atLeast 0) .first)) .nil
    Guarded.evaluate .internal .divisionByZero .standard 3 expr 0 .populated =
        .failure .divisionByZero .populated ∧
      evaluate .standard 3 expr 0 .populated = .failure (.missingArgument "car") .populated :=
  ⟨rfl, rfl⟩

/-! ## Where there are no environments -/

/-- Is there an environment in the value, at any depth? -/
def Value.holdsEnvironment : Value → Bool
  | pair _ first rest => first.holdsEnvironment || rest.holdsEnvironment
  | compound _ _ _ body => body.holdsEnvironment
  | environment _ => true
  | _ => false

/-- Is there an environment in the expression, or in the procedure and its arguments? -/
def Task.holdsEnvironment : Task → Bool
  | eval expr _ => expr.holdsEnvironment
  | call procedure args _ => procedure.holdsEnvironment || args.any Value.holdsEnvironment

/-- Is there an environment in a bound value? -/
def Machine.holdsEnvironment (m : Machine) : Bool :=
  m.frames.any fun f => f.bindings.any fun b => b.2.holdsEnvironment

/-- There are no environments but as the last of as many arguments as a built-in
procedure that takes the environment looks at. -/
def Contracts.confined : Contracts where
  step t m := !t.holdsEnvironment && !m.holdsEnvironment
  value v := !v.holdsEnvironment
  body _ := true
  procedure _ body := !body.holdsEnvironment
  call args := !args.any Value.holdsEnvironment
  builtin b args :=
    if b.takesEnvironment then
      args.length == b.operation.reads && !args.dropLast.any Value.holdsEnvironment
    else !args.any Value.holdsEnvironment
  level _ := true

section Confined
variable {m : Machine} {v : Value} {vs : List Value} {made : Nat}

/-- No value of a program holds an environment. -/
theorem Value.Obeys.holdsEnvironment_eq (h : v.Obeys .programs made) :
    v.holdsEnvironment = false := by
  induction h with
  | pair hFirst hRest ihFirst ihRest => exact Bool.or_eq_false_iff.mpr ⟨ihFirst, ihRest⟩
  | compound hKind hProcedure hBody ih => exact ih
  | environment hAllowed hFrame => exact hAllowed.elim
  | _ => rfl

/-- None of several values of a program holds an environment. -/
theorem Value.AllObey.any_eq (hs : AllObey .programs made vs) :
    vs.any Value.holdsEnvironment = false := by
  rw [List.any_eq_false]
  intro v hMem
  rw [(hs v hMem).holdsEnvironment_eq]
  exact Bool.false_ne_true

/-- No value that a program has bound holds an environment. -/
theorem Machine.Obeys.holdsEnvironment_eq (h : m.Obeys .programs) : m.holdsEnvironment = false := by
  rw [holdsEnvironment, Array.any_eq_false]
  intro id hMade
  have hFrame : m.frame? id = some m.frames[id] := Array.getElem?_eq_getElem hMade
  rw [Bool.not_eq_true, List.any_eq_false]
  intro b hMem
  rw [(h.bound id _ hFrame b.1 b.2 hMem).holdsEnvironment_eq]
  exact Bool.false_ne_true

theorem Task.Obeys.holdsEnvironment_eq {t : Task} (h : t.Obeys .programs made) :
    t.holdsEnvironment = false := by
  cases h with
  | eval h hEnv => exact h.holdsEnvironment_eq
  | call h hs hEnv => exact Bool.or_eq_false_iff.mpr ⟨h.holdsEnvironment_eq, hs.any_eq⟩

/-- After any program environments are nowhere but in the last place of the arguments that `eval`
and `apply` look at. -/
theorem Contracts.confined_followFrom : Contracts.confined.FollowFrom .programs where
  step hm h := by simp [confined, hm.holdsEnvironment_eq, h.holdsEnvironment_eq]
  value h := by simp [confined, h.holdsEnvironment_eq]
  body_of_list _ := rfl
  body_of_procedure _ := rfl
  procedure _ _ h := by simp [confined, h.holdsEnvironment_eq]
  call hs := by simp only [confined, hs.any_eq, Bool.not_false]
  builtin := by
    intro b args env made h hs hCount
    simp only [confined]
    split
    · rename_i hTakes
      -- what comes before the environment is all that was passed
      have hShape := Builtin.args_of_reflective h hTakes hCount
      rw [Builtin.allArguments, if_pos hTakes, List.dropLast_concat, hs.any_eq]
      obtain ⟨hOperation, expr, rfl⟩ | ⟨hOperation, f, operands, rfl⟩ := hShape
      · rw [hOperation]
        rfl
      · rw [hOperation]
        rfl
    · rename_i hTakes
      rw [Builtin.allArguments, if_neg hTakes, hs.any_eq]
      rfl
  level _ := rfl

end Confined

/-- **Environments are confined.** Whatever has been evaluated before, no binding and
no value at hand contains an environment. Neither does, in an evaluation that goes on
from there, what is evaluated, bound, passed to a procedure, made its body or returned;
and of a procedure that takes the environment no count of arguments is accepted but
the one for which the environment comes where it is looked for. -/
theorem environments_confined {m : Machine} {vs : List Value} (h : History m vs) :
    (∀ id f name v, m.frame? id = some f → (name, v) ∈ f.bindings → v.holdsEnvironment = false) ∧
    (∀ v ∈ vs, v.holdsEnvironment = false) ∧
    (∀ expr ∈ vs, ∀ env < m.frames.size, ∀ (forms : FormTable) (fuel : Nat),
      (∀ alarm, Guarded.evaluate .confined alarm forms fuel expr env m =
        evaluate forms fuel expr env m) ∧
      ∀ v n, evaluate forms fuel expr env m = .value v n → v.holdsEnvironment = false) ∧
    ∀ b ∈ Builtin.standard, b.takesEnvironment → ∀ (args : List Value) (env : FrameId),
      b.arity.accepts (b.allArguments args env).length ↔ args.length + 1 = b.operation.reads := by
  obtain ⟨hMachine, hValues⟩ := h.obeys
  refine ⟨?_, ?_, ?_, ?_⟩
  · intro id f name v hFrame hMem
    exact (hMachine.bound id f hFrame name v hMem).holdsEnvironment_eq
  · exact fun v hMem => (hValues v hMem).holdsEnvironment_eq
  · intro expr hExpr env hEnv forms fuel
    constructor
    · intro alarm
      exact (h.evaluate_keeps Contracts.confined_followFrom hExpr hEnv alarm forms fuel).1
    · intro v n hEnd
      exact (h.evaluated hExpr hEnv hEnd).obeys.2 v List.mem_cons_self |>.holdsEnvironment_eq
  -- There are two built-in procedures that take the environment, and it is the last they look at.
  · intro b hMem hTakes args env
    rw [Builtin.allArguments, if_pos hTakes, List.length_append, List.length_singleton]
    obtain ⟨hOperation, hArity⟩ | ⟨hOperation, hArity⟩ := Builtin.reflective_of_standard hMem hTakes
    · rw [hOperation, hArity, Arity.accepts, decide_eq_true_eq]
      rfl
    · rw [hOperation, hArity, Arity.accepts, decide_eq_true_eq]
      rfl

/-- `(apply apply (quote ()))`: the second `apply` has no arguments but the environment,
which does not make up for those that are missing. -/
theorem environments_confined_apply :
    let d : Datum :=
      .ofList [.symbol "apply", .symbol "apply", .ofList [.symbol "quote", .nil] .nil] .nil
    let expr := (Machine.populated.load d).1
    let m := (Machine.populated.load d).2
    evaluate .standard 5 expr 0 m = .failure (.wrongArguments "apply" (.exactly 3) 1) m ∧
      Guarded.evaluate .confined .negativeLevel .standard 5 expr 0 m =
        evaluate .standard 5 expr 0 m := by
  intro d expr m
  have hHistory : History m [expr] := .read .start d
  refine ⟨rfl, ?_⟩
  have hConfined := (environments_confined hHistory).2.2.1
  exact (hConfined expr List.mem_cons_self 0 (by decide) .standard 5).1 .negativeLevel

end MiniScheme
